import DragonflyFabric.Proofs.Outcome
import DragonflyFabric.Proofs.Ports
import DragonflyFabric.Router.Forward

/-!
# What is done to a packet at a router

The handlings of a packet as equations between the state before and the state after. `forward_run` follows
a packet that is not refused; the others hold whatever happens.
-/

namespace DragonflyFabric.Transit

variable {t t' : Transit} {channel : Nat} {c : Congestion}

theorem get_run (t : Transit) : (get : Handling Transit).run t = (.ok t, t) := rfl

theorem set_run (t t' : Transit) : (set t' : Handling PUnit).run t = (.ok ⟨⟩, t') := rfl

/-! ### Choices at the source -/

theorem divert_run (through : Nat) (t : Transit) :
    (divert through).run t =
      if through = t.packet.origin.toNat ∨ through = t.packet.dest.group.toNat ∨
          t.router.site.parameters.groups ≤ through then
        (.error (.parameters (.notIntermediate through t.packet.origin t.packet.dest.group)), t)
      else
        (.ok (), takeSlot
          { t with packet := { t.packet with dest :=
            { t.packet.dest with target := UInt32.ofNat through, alternate := UInt32.ofNat through } } }
          through) := by
  rw [divert, run_bind_ok (get_run t)]
  dsimp only
  split
  · rw [run_bind_error (show (throw _ : Handling PUnit).run t = (.error _, t) from rfl)]
  · rfl

theorem choose_run (algorithm : Algorithm) (destination : Nat) (t : Transit) :
    (choose algorithm destination).run t =
      let t := t.takeSlot destination
      let t : Transit := { t with packet := { t.packet with otherSlot := t.packet.slot } }
      if algorithm = .minimal then (.ok (), t)
      else
        let (through, router) := t.router.drawIntermediate destination
        let t := { t with router := router }
        match through with
        | none => (.ok (), t)
        | some through =>
          if algorithm = .valiant then (divert through).run t else (.ok (), offer through t) := by
  rw [choose, run_bind_ok (show (modifyGet (m := Handling) _).run t = (.ok _, _) from rfl)]
  dsimp only
  by_cases ha : algorithm = .minimal
  · rw [if_pos ha, if_neg (fun h => h ha)]
    rfl
  · rw [if_neg ha, if_pos ha, run_bind_ok (set_run _ _)]
    generalize (t.takeSlot destination).router.drawIntermediate destination = drawn
    obtain ⟨through, router⟩ := drawn
    cases through with
    | none => rfl
    | some through =>
      dsimp only
      split <;> rfl

/-! ### On the way -/

theorem choosePort_run (algorithm : Algorithm) (stage : Stage) (channel : Nat) (c : Congestion) (t : Transit) :
    (choosePort algorithm stage channel c).run t =
      match stage with
      | .arrived => (.ok t.packet.dest.host.toNat, t)
      | .inDestination => (.ok (t.router.site.portToRouter t.packet.dest.router.toNat), t)
      | _ =>
        let decided :=
          if t.router.site.mayTurn algorithm stage t.turnHome.packet then
            t.router.site.adapt c channel t.turnHome.packet
          else .ok t.turnHome.packet
        match decided with
        | .error e => (.error e, t.turnHome)
        | .ok k =>
          (t.router.site.portToGroup k.dest.target.toNat k.slot.toNat none, { t.turnHome with packet := k }) := by
  rw [choosePort, run_bind_ok (get_run t)]
  cases stage with
  | arrived => rfl
  | inDestination => rfl
  | _ =>
    dsimp only
    rw [run_bind_ok (set_run _ _)]
    split
    · cases t.router.site.adapt c channel t.turnHome.packet with
      | error e => rw [run_bind_error run_liftM]
      | ok k =>
        rw [run_bind_ok run_liftM]
        exact run_liftM
    · exact run_liftM

theorem discard_run {p : Parameters} {port : Nat} {kind : PortClass} (h : p.classOf? port = some kind) :
    (discard (liftM (p.classOf port)) : Handling Unit).run t = (.ok (), t) := by
  rw [Parameters.classOf_ok h]
  rfl

theorem forward_run {index port : Nat} {traffic : TrafficClass} {kind : PortClass}
    (hclass : t.router.site.plan.classOf channel = .ok (index, traffic))
    (hdest : t.router.site.checkDestination t.packet.dest = .ok ())
    (hport : (choosePort traffic.algorithm (t.router.site.stage t.packet) channel c).run t = (.ok port, t'))
    (hkind : t.router.site.parameters.classOf? port = some kind)
    (hroom : traffic.contains (t.router.site.channelBehind port channel) = true) :
    (forward channel c).run t =
      (.ok ⟨port, t.router.site.channelBehind port channel,
          if t'.packet.dest.target ≠ t'.packet.dest.group ∨ t.router.site.stage t.packet = .between then 1
          else 0⟩,
        { t' with packet := { t'.packet with channel := t.router.site.channelBehind port channel } }) := by
  rw [forward, run_bind_ok (get_run t)]
  dsimp only
  rw [run_bind_ok (run_liftM.trans (by rw [hclass])), run_bind_ok (run_liftM.trans (by rw [hdest])),
    run_bind_ok hport, run_bind_ok (discard_run hkind)]
  dsimp only
  rw [hroom]
  rfl

theorem classOf?_of_discard {p : Parameters} {port : Nat}
    (h : (discard (liftM (p.classOf port)) : Handling Unit).run t = (.ok (), t')) :
    t' = t ∧ ∃ kind, p.classOf? port = some kind := by
  rw [Parameters.classOf] at h
  split at h
  · next kind hkind =>
    cases h
    exact ⟨rfl, kind, hkind⟩
  · cases h

/-- A packet that was not refused passed every check. -/
theorem ok_of_forward {egress : Egress} (h : (forward channel c).run t = (.ok egress, t')) :
    ∃ index traffic port kind t₁, t.router.site.plan.classOf channel = .ok (index, traffic) ∧
      (choosePort traffic.algorithm (t.router.site.stage t.packet) channel c).run t = (.ok port, t₁) ∧
      t.router.site.parameters.classOf? port = some kind ∧
      traffic.contains (t.router.site.channelBehind port channel) = true ∧
      egress.port = port ∧ egress.channel = t.router.site.channelBehind port channel ∧
      t' = { t₁ with packet := { t₁.packet with channel := t.router.site.channelBehind port channel } } := by
  have hrun := h
  rw [forward, run_bind_ok (get_run t)] at hrun
  dsimp only at hrun
  obtain ⟨⟨index, traffic⟩, _, hlift, hrun⟩ := ok_of_run_bind hrun
  obtain ⟨hclass, hsame⟩ := ok_of_run_liftM hlift
  obtain rfl := hsame.symm
  obtain ⟨_, _, hlift, hrun⟩ := ok_of_run_bind hrun
  obtain ⟨hdest, hsame⟩ := ok_of_run_liftM hlift
  obtain rfl := hsame.symm
  obtain ⟨port, t₁, hport, hrun⟩ := ok_of_run_bind hrun
  obtain ⟨_, _, hlift, hrun⟩ := ok_of_run_bind hrun
  obtain ⟨hsame, kind, hkind⟩ := classOf?_of_discard hlift
  obtain rfl := hsame.symm
  by_cases hroom : traffic.contains (t.router.site.channelBehind port channel) = true
  · rw [forward_run hclass hdest hport hkind hroom] at h
    cases h
    exact ⟨index, traffic, port, kind, t₁, hclass, hport, hkind, hroom, rfl, rfl, rfl⟩
  · rw [Bool.not_eq_true] at hroom
    rw [hroom] at hrun
    cases hrun

/-- What the choice of a port keeps, and what a change of the channel keeps, is kept when a packet passes, also
when it is refused. -/
theorem kept_of_forward {I : Transit → Prop} (h : I t)
    (hport : ∀ index traffic, t.router.site.plan.classOf channel = .ok (index, traffic) →
      t.router.site.checkDestination t.packet.dest = .ok () →
      I ((choosePort traffic.algorithm (t.router.site.stage t.packet) channel c).run t).2)
    (hchannel : ∀ t next, I t → I { t with packet := { t.packet with channel := next } }) :
    I ((forward channel c).run t).2 := by
  rw [forward, run_bind_ok (get_run t)]
  dsimp only
  refine kept_of_lift (I := I) h fun traffic hclass => kept_of_lift (I := I) h fun _ hdest => ?_
  refine kept_of_bind (I := I) (hport _ _ hclass hdest) fun port t' _ h' => ?_
  cases t.router.site.parameters.classOf port with
  | error e => exact h'
  | ok kind =>
    refine kept_of_bind (I := I) h' fun _ t'' hr _ => ?_
    cases hr
    split
    · exact h'
    · exact hchannel _ _ h'

theorem kept_of_forwardSeen {I : Transit → Prop} (h : I t) (hforward : ∀ c, I ((forward channel c).run t).2) :
    I ((forwardSeen channel).run t).2 := by
  rw [forwardSeen, run_bind_ok (get_run t)]
  exact kept_of_lift (I := I) h fun c _ => hforward c

theorem forwardSeen_run (h : t.router.congestion = .ok c) :
    (forwardSeen channel).run t = (forward channel c).run t := by
  rw [forwardSeen, run_bind_ok (get_run t), run_bind_ok (run_liftM.trans (by rw [h]))]

end DragonflyFabric.Transit
