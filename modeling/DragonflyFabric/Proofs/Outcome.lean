import DragonflyFabric.Fault

/-!
# What a successful computation tells

The checks made while settings are read, a table is filled or the wires are audited can be had back from
the mere fact that there was an answer. `Ensures x P` says that whatever `x` answers satisfies `P`; it
says nothing of a failure, nor of the state that is left behind. Its rules follow the ways in which
computations are put together.

`Answers x a` says the other thing: that `x` does answer, and answers `a`, from every state. `Decides x P a`
joins them for computations that check something. `run_bind_ok` and its companions run a computation step by step
from a given state instead.
-/

namespace DragonflyFabric

variable {σ α β : Type}

/-! ### Computations that may fail -/

theorem ok_of_bind_ok {ε : Type} {x : Except ε α} {f : α → Except ε β} {b : β}
    (h : (x >>= f) = .ok b) : ∃ a, x = .ok a ∧ f a = .ok b := by
  cases x with
  | error e => cases h
  | ok a => exact ⟨a, rfl, h⟩

theorem ok_of_toOption {ε : Type} {x : Except ε α} {a : α} (h : x.toOption = some a) : x = .ok a := by
  cases x with
  | error e => cases h
  | ok b => exact congrArg _ (Option.some.inj h)

/-- What every step of a fold keeps, the fold keeps. -/
theorem foldlM_keeps {ε : Type} {f : β → α → Except ε β} {P : β → Prop} (xs : List α)
    (hf : ∀ b, ∀ a ∈ xs, ∀ b', P b → f b a = .ok b' → P b') :
    ∀ {b b' : β}, P b → xs.foldlM f b = .ok b' → P b' := by
  induction xs with
  | nil =>
    intro b b' hb h
    cases h
    exact hb
  | cons a rest ih =>
    intro b b' hb h
    rw [List.foldlM_cons] at h
    obtain ⟨c, hc, h⟩ := ok_of_bind_ok h
    exact ih (fun b a ha => hf b a (List.mem_cons_of_mem _ ha)) (hf b a List.mem_cons_self c hb hc) h

/-- What the step for an item brings about and every later step keeps, the fold brings about for each item. -/
theorem foldlM_reaches {ε : Type} {f : β → α → Except ε β} {Q : α → β → Prop} (xs : List α)
    (hstep : ∀ b, ∀ a ∈ xs, ∀ b', f b a = .ok b' → Q a b')
    (hkeep : ∀ b, ∀ a ∈ xs, ∀ b', f b a = .ok b' → ∀ c, Q c b → Q c b') :
    ∀ {b b' : β}, xs.foldlM f b = .ok b' → ∀ a ∈ xs, Q a b' := by
  induction xs with
  | nil =>
    intro b b' _ a ha
    cases ha
  | cons first rest ih =>
    intro b b' h a ha
    rw [List.foldlM_cons] at h
    obtain ⟨c, hc, hrun⟩ := ok_of_bind_ok h
    have hrest := fun b a ha => hkeep b a (List.mem_cons_of_mem first ha)
    rcases List.mem_cons.mp ha with rfl | ha
    · have hfirst := hstep b a List.mem_cons_self c hc
      exact foldlM_keeps rest (fun b x hx b' hb hf => hrest b x hx b' hf a hb) hfirst hrun
    · exact ih (fun b a ha => hstep b a (List.mem_cons_of_mem _ ha)) hrest hrun a ha

/-- What every step of a fold keeps, and what every step can only start from, then holds for each item. -/
theorem foldlM_requires {ε : Type} {f : β → α → Except ε β} {P : β → Prop} {S : α → Prop} (xs : List α)
    (hkeep : ∀ b a b', P b → f b a = .ok b' → P b') (hstart : ∀ b a b', P b → f b a = .ok b' → S a) :
    ∀ {b b' : β}, P b → xs.foldlM f b = .ok b' → ∀ a ∈ xs, S a := by
  induction xs with
  | nil =>
    intro b b' _ _ a ha
    cases ha
  | cons first rest ih =>
    intro b b' hb h a ha
    rw [List.foldlM_cons] at h
    obtain ⟨c, hc, hrun⟩ := ok_of_bind_ok h
    rcases List.mem_cons.mp ha with rfl | ha
    · exact hstart b a c hb hc
    · exact ih (hkeep b first c hb hc) hrun a ha

/-- If no step for one item can start from what the step for another brought about, a fold has no two such
items. -/
theorem foldlM_pairwise {ε : Type} {f : β → α → Except ε β} {Q : α → β → Prop} {R : α → α → Prop} (xs : List α)
    (hstep : ∀ b a b', f b a = .ok b' → Q a b') (hkeep : ∀ c b a b', Q c b → f b a = .ok b' → Q c b')
    (hstart : ∀ c b a b', Q c b → f b a = .ok b' → R c a) :
    ∀ {b b' : β}, xs.foldlM f b = .ok b' → xs.Pairwise R := by
  induction xs with
  | nil => exact fun _ => .nil
  | cons first rest ih =>
    intro b b' h
    rw [List.foldlM_cons] at h
    obtain ⟨c, hc, hrun⟩ := ok_of_bind_ok h
    exact .cons (foldlM_requires rest (hkeep first) (hstart first) (hstep b first c hc) hrun) (ih hrun)

/-- A fold succeeds if every step that is due can be done and leaves due what is apart from it. -/
theorem exists_foldlM_ok {ε : Type} {f : β → α → Except ε β} {Due : α → β → Prop} {R : α → α → Prop}
    (hstep : ∀ b a, Due a b → ∃ b', f b a = .ok b')
    (hkeep : ∀ b a b' c, f b a = .ok b' → R a c → Due c b → Due c b') {xs : List α} (hapart : xs.Pairwise R) :
    ∀ {b : β}, (∀ a ∈ xs, Due a b) → ∃ b', xs.foldlM f b = .ok b' := by
  induction hapart with
  | nil => exact fun {b} _ => ⟨b, rfl⟩
  | @cons a rest hfirst _ ih =>
    intro b hdue
    obtain ⟨b₁, hb₁⟩ := hstep b a (hdue a List.mem_cons_self)
    obtain ⟨b', hb'⟩ :=
      ih fun c hc => hkeep b a b₁ c hb₁ (hfirst c hc) (hdue c (List.mem_cons_of_mem a hc))
    refine ⟨b', ?_⟩
    rw [List.foldlM_cons, hb₁]
    exact hb'

/-- A list of computations that all succeed gives the list of their answers. -/
theorem getElem?_of_mapM_ok {ε : Type} {f : α → Except ε β} {xs : List α} {ys : List β} (h : xs.mapM f = .ok ys) :
    ∀ {i : Nat} {a : α}, xs[i]? = some a → ∃ b, ys[i]? = some b ∧ f a = .ok b := by
  induction xs generalizing ys with
  | nil =>
    intro i a ha
    cases ha
  | cons x xs ih =>
    rw [List.mapM_cons] at h
    obtain ⟨b, hb, h⟩ := ok_of_bind_ok h
    obtain ⟨bs, hbs, h⟩ := ok_of_bind_ok h
    cases h
    intro i a ha
    cases i with
    | zero =>
      cases ha
      exact ⟨b, rfl, hb⟩
    | succ i => exact ih hbs ha

theorem mapM_eq_ok {ε : Type} {f : α → Except ε β} {g : α → β} (xs : List α) (h : ∀ a ∈ xs, f a = .ok (g a)) :
    xs.mapM f = .ok (xs.map g) := by
  induction xs with
  | nil => rfl
  | cons x xs ih =>
    rw [List.mapM_cons, h x List.mem_cons_self, ih fun a ha => h a (List.mem_cons_of_mem x ha)]
    rfl

theorem exists_mapM_ok {ε : Type} {f : α → Except ε β} {P : β → Prop} {xs : List α}
    (h : ∀ a ∈ xs, ∃ b, f a = .ok b ∧ P b) : ∃ ys, xs.mapM f = .ok ys ∧ ∀ b ∈ ys, P b := by
  induction xs with
  | nil => exact ⟨[], rfl, fun b hb => absurd hb List.not_mem_nil⟩
  | cons a xs ih =>
    obtain ⟨b, hb, hP⟩ := h a List.mem_cons_self
    obtain ⟨ys, hys, hall⟩ := ih fun a ha => h a (List.mem_cons_of_mem _ ha)
    refine ⟨b :: ys, by rw [List.mapM_cons, hb, hys]; rfl, fun c hc => ?_⟩
    rcases List.mem_cons.mp hc with rfl | hc
    · exact hP
    · exact hall c hc

/-! ### Computations with a state that outlives a failure -/

section Runs

variable {x : ExceptT Fault (StateM σ) α} {f : α → ExceptT Fault (StateM σ) β} {s s' : σ}

theorem run_bind_ok {a : α} (h : x.run s = (.ok a, s')) : (x >>= f).run s = (f a).run s' := by
  show (ExceptT.bindCont f (x.run s).1) (x.run s).2 = (f a) s'
  rw [h]
  rfl

theorem run_bind_error {e : Fault} (h : x.run s = (.error e, s')) :
    (x >>= f).run s = (.error e, s') := by
  show (ExceptT.bindCont f (x.run s).1) (x.run s).2 = (.error e, s')
  rw [h]
  rfl

/-- A computation that succeeds does so step by step. -/
theorem ok_of_run_bind {b : β} (h : (x >>= f).run s = (.ok b, s')) :
    ∃ a s₁, x.run s = (.ok a, s₁) ∧ (f a).run s₁ = (.ok b, s') := by
  rcases hr : x.run s with ⟨result, s₁⟩
  cases result with
  | error e =>
    rw [run_bind_error hr] at h
    cases h
  | ok a =>
    rw [run_bind_ok hr] at h
    exact ⟨a, s₁, rfl, h⟩

/-- What a step keeps, and what comes after it keeps, both together keep, also where one of them fails. -/
theorem kept_of_bind {I : σ → Prop} (hx : I (x.run s).2)
    (hf : ∀ a s', x.run s = (.ok a, s') → I s' → I ((f a).run s').2) : I ((x >>= f).run s).2 := by
  cases hr : x.run s with
  | mk result s₁ =>
    rw [hr] at hx
    cases result with
    | error e =>
      rw [run_bind_error hr]
      exact hx
    | ok a =>
      rw [run_bind_ok hr]
      exact hf a s₁ hr hx

theorem run_liftM {y : Except Fault α} :
    (liftM y : ExceptT Fault (StateM σ) α).run s = (y, s) := by
  cases y <;> rfl

theorem ok_of_run_liftM {y : Except Fault α} {a : α}
    (h : (liftM y : ExceptT Fault (StateM σ) α).run s = (.ok a, s')) : y = .ok a ∧ s' = s := by
  rw [run_liftM] at h
  obtain ⟨hy, hs⟩ := Prod.mk.inj h
  exact ⟨hy, hs.symm⟩

theorem kept_of_lift {I : σ → Prop} {y : Except Fault α} (hs : I s)
    (hf : ∀ a, y = .ok a → I ((f a).run s).2) : I ((liftM y >>= f).run s).2 := by
  refine kept_of_bind (by rwa [run_liftM]) fun a s' hr _ => ?_
  obtain ⟨hy, rfl⟩ := ok_of_run_liftM hr
  exact hf a hy

end Runs

/-- A check without a state succeeds before what comes after it does. -/
theorem run_bind_lift_eq_ok_iff {y : Except Fault α} {g : α → ExceptT Fault (StateM σ) β} {b : β} {s s' : σ} :
    (liftM y >>= g).run s = (.ok b, s') ↔ ∃ a, y = .ok a ∧ (g a).run s = (.ok b, s') := by
  cases y with
  | error e =>
    rw [run_bind_error run_liftM]
    exact ⟨fun h => (by cases h), fun ⟨_, h, _⟩ => (by cases h)⟩
  | ok a =>
    rw [run_bind_ok run_liftM]
    exact ⟨fun h => ⟨a, rfl, h⟩, fun ⟨_, ha, h⟩ => (by cases ha; exact h)⟩

theorem result_bind_lift_eq_ok_iff {y : Except Fault α} {g : α → Report β} {b : β} :
    (liftM y >>= g : Report β).result = .ok b ↔ ∃ a, y = .ok a ∧ (g a).result = .ok b := by
  cases y with
  | error e => exact ⟨fun h => (by cases h), fun ⟨_, h, _⟩ => (by cases h)⟩
  | ok a => exact ⟨fun h => ⟨a, rfl, h⟩, fun ⟨_, ha, h⟩ => (by cases ha; exact h)⟩

/-- Whatever the computation answers satisfies `P`. -/
def Ensures (x : ExceptT Fault (StateM σ) α) (P : α → Prop) : Prop :=
  ∀ s a s', x.run s = (.ok a, s') → P a

namespace Ensures

variable {x : ExceptT Fault (StateM σ) α} {f : α → ExceptT Fault (StateM σ) β}
  {P : α → Prop} {Q : β → Prop}

theorem bind (hx : Ensures x P) (hf : ∀ a, P a → Ensures (f a) Q) : Ensures (x >>= f) Q := by
  intro s b s' h
  obtain ⟨a, s₁, hr, h⟩ := ok_of_run_bind h
  exact hf a (hx s a s₁ hr) s₁ b s' h

/-- A step whose answer does not matter. -/
theorem after (hf : ∀ a, Ensures (f a) Q) : Ensures (x >>= f) Q :=
  bind (P := fun _ => True) (fun _ _ _ _ => trivial) fun a _ => hf a

theorem pure {a : α} (h : P a) : Ensures (Pure.pure a : ExceptT Fault (StateM σ) α) P := by
  intro s b s' hb
  cases hb
  exact h

theorem throw_bind (e : Fault) : Ensures ((throw e : ExceptT Fault (StateM σ) α) >>= f) Q := by
  intro s b s' h
  have hr : (throw e : ExceptT Fault (StateM σ) α).run s = (.error e, s) := rfl
  rw [run_bind_error hr] at h
  cases h

theorem lift {y : Except Fault α} (h : ∀ a, y = .ok a → P a) :
    Ensures (liftM y : ExceptT Fault (StateM σ) α) P := by
  intro s a s' ha
  exact h a (ok_of_run_liftM ha).1

theorem discard (hx : Ensures x P) : Ensures (discard x) fun _ => ∃ a, P a := by
  have hd : Functor.discard x = x >>= fun _ => Pure.pure () := map_eq_pure_bind (fun _ => ()) x
  rw [hd]
  exact bind hx fun a ha => pure ⟨a, ha⟩

/-- A check made of every item of a list is made of each. -/
theorem forM {g : α → ExceptT Fault (StateM σ) Unit} {C : α → Prop}
    (hg : ∀ a, Ensures (g a) fun _ => C a) :
    ∀ xs : List α, Ensures (xs.forM g) fun _ => ∀ a ∈ xs, C a := by
  intro xs
  induction xs with
  | nil => exact pure fun a ha => absurd ha List.not_mem_nil
  | cons a rest ih =>
    refine bind (hg a) fun _ ha => ?_
    intro s u s' h b hb
    rcases List.mem_cons.mp hb with rfl | hb
    · exact ha
    · exact ih s u s' h b hb

theorem of_result {x : Report α} (h : Ensures x P) {a : α} (ha : x.result = .ok a) : P a :=
  h #[] a (x.run #[]).2 (Prod.ext ha rfl)

end Ensures

/-- The computation answers `a`, whatever the state. -/
def Answers (x : ExceptT Fault (StateM σ) α) (a : α) : Prop := ∀ s, ∃ s', x.run s = (.ok a, s')

namespace Answers

variable {x : ExceptT Fault (StateM σ) α} {f : α → ExceptT Fault (StateM σ) β} {a : α} {b : β}

theorem pure (a : α) : Answers (Pure.pure a : ExceptT Fault (StateM σ) α) a := fun s => ⟨s, rfl⟩

theorem bind (hx : Answers x a) (hf : Answers (f a) b) : Answers (x >>= f) b := by
  intro s
  obtain ⟨s₁, hx⟩ := hx s
  rw [run_bind_ok hx]
  exact hf s₁

theorem lift {y : Except Fault α} (h : y = .ok a) : Answers (liftM y : ExceptT Fault (StateM σ) α) a :=
  fun s => ⟨s, by rw [run_liftM, h]⟩

theorem warn (n : Notice) : Answers (Report.warn n) () := fun _ => ⟨_, rfl⟩

theorem forM {g : α → ExceptT Fault (StateM σ) Unit} :
    ∀ xs : List α, (∀ a ∈ xs, Answers (g a) ()) → Answers (xs.forM g) () := by
  intro xs
  induction xs with
  | nil => exact fun _ => pure ()
  | cons a rest ih =>
    intro h
    exact bind (h a List.mem_cons_self) (ih fun b hb => h b (List.mem_cons_of_mem a hb))

theorem ensures (h : Answers x a) : Ensures x (· = a) := by
  intro s b s' hb
  obtain ⟨_, hx⟩ := h s
  rw [hx] at hb
  cases hb
  rfl

theorem result_eq {x : Report α} (h : Answers x a) : x.result = .ok a := by
  obtain ⟨_, hx⟩ := h #[]
  exact congrArg Prod.fst hx

end Answers

/-- The computation answers `a` where `P` holds, and nothing where it does not, whatever the state. -/
structure Decides (x : ExceptT Fault (StateM σ) α) (P : Prop) (a : α) : Prop where
  answers : P → Answers x a
  ensures : Ensures x fun b => P ∧ b = a

namespace Decides

variable {x : ExceptT Fault (StateM σ) α} {f : α → ExceptT Fault (StateM σ) β} {P Q : Prop} {a : α} {b : β}

theorem of_answers (hP : P) (h : Answers x a) : Decides x P a :=
  ⟨fun _ => h, fun s c s' hc => ⟨hP, h.ensures s c s' hc⟩⟩

theorem of_fails (hP : ¬P) (h : Ensures x fun _ => False) : Decides x P a :=
  ⟨fun hp => absurd hp hP, fun s c s' hc => (h s c s' hc).elim⟩

theorem of_iff (h : Decides x P a) (hiff : P ↔ Q) : Decides x Q a := by rwa [← propext hiff]

theorem bind (hx : Decides x P a) (hf : P → Decides (f a) Q b) : Decides (x >>= f) (P ∧ Q) b where
  answers := fun ⟨hp, hq⟩ => (hx.answers hp).bind ((hf hp).answers hq)
  ensures := by
    refine hx.ensures.bind fun c hc => ?_
    obtain ⟨hp, rfl⟩ := hc
    intro s d s' hd
    obtain ⟨hq, rfl⟩ := (hf hp).ensures s d s' hd
    exact ⟨⟨hp, hq⟩, rfl⟩

/-- A check without an answer of its own. -/
theorem lift {y : Except Fault Unit} (h : y = .ok () ↔ P) : Decides (liftM y : ExceptT Fault (StateM σ) Unit) P () :=
  ⟨fun hp => .lift (h.mpr hp), .lift fun _ hy => ⟨h.mp hy, rfl⟩⟩

/-- Where only the success of a computation counts. -/
theorem discard_lift {y : Except Fault α} (h : (∃ a, y = .ok a) ↔ P) :
    Decides (discard (liftM y) : ExceptT Fault (StateM σ) Unit) P () where
  answers hp := by
    obtain ⟨a, ha⟩ := h.mpr hp
    exact fun s => ⟨s, by rw [ha]; rfl⟩
  ensures := fun s u s' hu =>
    ⟨h.mp (Ensures.discard (.lift fun _ hy => hy) s u s' hu), rfl⟩

theorem result_eq_ok_iff {x : Report α} (h : Decides x P a) {c : α} : x.result = .ok c ↔ P ∧ c = a := by
  constructor
  · exact h.ensures.of_result
  · rintro ⟨hp, rfl⟩
    exact (h.answers hp).result_eq

end Decides

end DragonflyFabric
