import DragonflyFabric.Proofs.Outcome

/-!
# What a failed computation tells

`FailsBy y P` says that whatever `y` fails by satisfies `P`; it says nothing of what `y` answers. `Blames x P` says so
for a computation with a state, whatever the state. A check that comes later may use what an earlier one has
ensured: in `Blames.bind_lift` the answer of the first computation is known to the second.
-/

namespace DragonflyFabric

variable {σ α β : Type} {P : Fault → Prop}

/-- Whatever the computation fails by satisfies `P`. -/
def FailsBy (y : Except Fault α) (P : Fault → Prop) : Prop := ∀ e, y = .error e → P e

namespace FailsBy

variable {y : Except Fault α} {f : α → Except Fault β}

theorem ok (a : α) : FailsBy (.ok a) P := fun _ h => (by cases h)

theorem error {e : Fault} (h : P e) : FailsBy (.error e : Except Fault α) P := by
  rintro _ ⟨⟩
  exact h

theorem imp {Q : Fault → Prop} (hy : FailsBy y P) (h : ∀ e, P e → Q e) : FailsBy y Q := fun e he => h e (hy e he)

theorem bind (hy : FailsBy y P) (hf : ∀ a, y = .ok a → FailsBy (f a) P) : FailsBy (y >>= f) P := by
  cases y with
  | error e => exact error (hy e rfl)
  | ok a => exact hf a rfl

theorem map (hy : FailsBy y P) (g : α → β) : FailsBy (g <$> y) P := by
  cases y with
  | error e => exact error (hy e rfl)
  | ok a => exact ok (g a)

theorem set (hy : FailsBy y P) (g : α → β) : FailsBy (do return g (← y)) P := hy.bind fun a _ => ok (g a)

theorem ite {c : Prop} [Decidable c] {y z : Except Fault α} (hy : FailsBy y P) (hz : FailsBy z P) :
    FailsBy (if c then y else z) P := by
  split
  · exact hy
  · exact hz

/-- What every step of a fold keeps is known where a step fails. -/
theorem foldlM_of_keeps {g : β → α → Except Fault β} {I : β → Prop} (xs : List α)
    (hkeep : ∀ b, ∀ a ∈ xs, ∀ b', I b → g b a = .ok b' → I b') (hg : ∀ b, ∀ a ∈ xs, I b → FailsBy (g b a) P) :
    ∀ {b : β}, I b → FailsBy (xs.foldlM g b) P := by
  induction xs with
  | nil => exact fun {b} _ => ok b
  | cons a rest ih =>
    intro b hb
    rw [List.foldlM_cons]
    refine (hg b a List.mem_cons_self hb).bind fun b' hb' => ?_
    exact ih (fun b c hc => hkeep b c (List.mem_cons_of_mem a hc)) (fun b c hc => hg b c (List.mem_cons_of_mem a hc))
      (hkeep b a List.mem_cons_self b' hb hb')

theorem foldlM {g : β → α → Except Fault β} (hg : ∀ b a, FailsBy (g b a) P) (xs : List α) (b : β) :
    FailsBy (xs.foldlM g b) P :=
  foldlM_of_keeps (I := fun _ => True) xs (fun _ _ _ _ _ _ => trivial) (fun b a _ _ => hg b a) trivial

theorem mapM (hf : ∀ a, FailsBy (f a) P) (xs : List α) : FailsBy (xs.mapM f) P := by
  induction xs with
  | nil => exact ok []
  | cons a rest ih =>
    rw [List.mapM_cons]
    exact (hf a).bind fun b _ => ih.bind fun bs _ => ok (b :: bs)

/-- A value that is looked up, and a fault if there is none. -/
theorem getD {found : Option α} {e : Fault} (h : P e) : FailsBy ((found.map Except.ok).getD (.error e)) P := by
  cases found with
  | none => exact error h
  | some a => exact ok a

end FailsBy

/-- Whatever the computation fails by satisfies `P`, from any state. -/
def Blames (x : ExceptT Fault (StateM σ) α) (P : Fault → Prop) : Prop := ∀ s e s', x.run s = (.error e, s') → P e

namespace Blames

variable {x : ExceptT Fault (StateM σ) α} {y : Except Fault α} {f : α → ExceptT Fault (StateM σ) β}

theorem imp {Q : Fault → Prop} (hx : Blames x P) (h : ∀ e, P e → Q e) : Blames x Q :=
  fun s e s' hr => h e (hx s e s' hr)

/-- A computation that answers fails by nothing. -/
theorem of_answers {a : α} (h : Answers x a) : Blames x P := by
  intro s e s' hr
  obtain ⟨_, ha⟩ := h s
  rw [ha] at hr
  cases hr

theorem pure (a : α) : Blames (Pure.pure a : ExceptT Fault (StateM σ) α) P := fun _ _ _ h => (by cases h)

theorem bind (hx : Blames x P) (hf : ∀ a, Blames (f a) P) : Blames (x >>= f) P := by
  intro s e s' h
  rcases hr : x.run s with ⟨result, s₁⟩
  cases result with
  | error e' =>
    rw [run_bind_error hr] at h
    cases h
    exact hx s e s' hr
  | ok a =>
    rw [run_bind_ok hr] at h
    exact hf a s₁ e s' h

theorem throw_bind {e : Fault} (h : P e) : Blames ((throw e : ExceptT Fault (StateM σ) α) >>= f) P := by
  intro s e' s' hr
  have hthrow : (throw e : ExceptT Fault (StateM σ) α).run s = (.error e, s) := rfl
  rw [run_bind_error hthrow] at hr
  cases hr
  exact h

theorem throw {e : Fault} (h : P e) : Blames (MonadExcept.throw e : ExceptT Fault (StateM σ) α) P := by
  intro s e' s' hr
  cases hr
  exact h

theorem lift (hy : FailsBy y P) : Blames (liftM y : ExceptT Fault (StateM σ) α) P := by
  intro s e s' h
  rw [run_liftM] at h
  exact hy e (Prod.mk.inj h).1

/-- What a check without a state answers is known afterwards. -/
theorem bind_lift (hy : FailsBy y P) (hf : ∀ a, y = .ok a → Blames (f a) P) : Blames (liftM y >>= f) P := by
  cases y with
  | error e =>
    intro s e' s' h
    rw [run_bind_error run_liftM] at h
    cases h
    exact hy e rfl
  | ok a => exact hf a rfl

theorem warn (n : Notice) : Blames (Report.warn n) P := fun _ _ _ h => (by cases h)

theorem forM {g : α → ExceptT Fault (StateM σ) Unit} (xs : List α) (hg : ∀ a ∈ xs, Blames (g a) P) :
    Blames (xs.forM g) P := by
  induction xs with
  | nil => exact pure ()
  | cons a rest ih =>
    exact bind (hg a List.mem_cons_self) fun _ => ih fun b hb => hg b (List.mem_cons_of_mem a hb)

theorem discard (hx : Blames x P) : Blames (discard x) P := by
  have hd : Functor.discard x = x >>= fun _ => Pure.pure () := map_eq_pure_bind (fun _ => ()) x
  rw [hd]
  exact bind hx fun _ => pure ()

theorem of_result {x : Report α} (h : Blames x P) {e : Fault} (he : x.result = .error e) : P e :=
  h #[] e (x.run #[]).2 (Prod.ext he rfl)

end Blames

end DragonflyFabric
