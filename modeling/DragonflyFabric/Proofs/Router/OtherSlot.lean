import DragonflyFabric.Proofs.Router.Refusal

/-!
# What the other slot holds

A packet carries the parallel link of its other choice. One that is offered a way around carries the slot of that way,
and when it takes it the two slots change places, so that the straight slot is then the other one. One that is sent
through another group as it enters has the straight slot for its other slot from the start.

A packet can also be diverted after it has entered. That writes where it heads for and its slot, and leaves the other
slot alone, which is the offered one if the packet still headed straight.

* `Packet.Committed`: no choice is left in a group. It stays so, with the other slot as it is:
  `Packet.Committed.touched`.
* `Packet.otherSlot_of_straight`: a packet to which a way is open, through anything that is asked about it.
* `Router.otherSlot_of_touched`: the two joined, for every packet that enters.
-/

namespace DragonflyFabric

/-- Something asked of a router about a packet: to divert it, or to let it pass. -/
inductive Touch
  | divert (router : Router) (through : Nat)
  | visit (v : Visit)

namespace Touch

def group : Touch → Nat
  | divert router _ => router.site.group
  | visit v => v.group

/-- The packet afterwards, if it is not refused. -/
def apply (k : Packet) : Touch → Except Fault Packet
  | divert router through =>
    let handled := (Transit.divert through).run ⟨router, k⟩
    handled.1.map fun _ => handled.2.packet
  | visit v =>
    let handled := v.handling.run ⟨v.router, k⟩
    handled.1.map fun _ => handled.2.packet

end Touch

namespace Packet

/-- The packet after all of this. -/
def touched (k : Packet) (touches : List Touch) : Except Fault Packet := touches.foldlM Touch.apply k

/-- Whether the packet headed straight for its group when it was first diverted. -/
def divertedStraight (k : Packet) : List Touch → Bool
  | [] => false
  | .divert _ _ :: _ => k.dest.target = k.dest.group
  | .visit v :: rest => (v.pass k).divertedStraight rest

/-- A packet that has no choice left in a group: it took one, or there is none, or the other way would start there. -/
def Committed (group : Nat) (k : Packet) : Prop :=
  k.dest.target = k.dest.alternate ∨ k.dest.alternate = k.dest.group ∨ k.dest.alternate.toNat = group

variable {k k' : Packet} {touch : Touch} {touches : List Touch} {v : Visit} {group : Nat}

/-! ### One touch -/

theorem apply_visit (h : Touch.apply k (.visit v) = .ok k') : k' = v.pass k := by
  simp only [Touch.apply] at h
  cases hrun : (v.handling.run ⟨v.router, k⟩).1 with
  | error f => simp [hrun, Except.map] at h
  | ok egress => simpa [hrun, Except.map, Visit.pass] using h.symm

theorem apply_divert {router : Router} {through : Nat} (h : Touch.apply k (.divert router through) = .ok k') :
    k'.dest.group = k.dest.group ∧ k'.dest.target = k'.dest.alternate ∧ k'.otherSlot = k.otherSlot := by
  simp only [Touch.apply, Transit.divert_run] at h
  split at h
  · cases h
  · cases h
    exact ⟨rfl, rfl, rfl⟩

namespace Committed

theorem turnHome {router : Router} (h : k.Committed router.site.group) :
    (Transit.turnHome ⟨router, k⟩).packet.Committed router.site.group := by
  by_cases hhere : router.site.group = k.dest.target.toNat
  · rw [Transit.turnHome_of_here hhere]
    rcases h with htaken | hnone | hstart
    · exact .inr (.inr (htaken ▸ hhere.symm))
    · exact .inr (.inl hnone)
    · exact .inr (.inr hstart)
  · rwa [Transit.turnHome_of_elsewhere hhere]

/-- What a router makes of a packet without a choice is what its turn home, if any, makes of it. -/
theorem eq_of_decided {router : Router} {algorithm : Algorithm} {channel : Nat} {c : Congestion}
    (h : k.Committed router.site.group) (hdecided : Transit.decided ⟨router, k⟩ algorithm channel c = .ok k') :
    k' = (Transit.turnHome ⟨router, k⟩).packet := by
  rcases Transit.decided_cases hdecided with hkept | ⟨-, hmay, -⟩
  · exact hkept
  · obtain ⟨-, -, hstraight, hother, helsewhere⟩ := Site.of_mayTurn hmay
    rcases h.turnHome with htaken | hnone | hstart
    · exact absurd (htaken.symm.trans hstraight) hother
    · exact absurd hnone hother
    · exact absurd hstart helsewhere

/-- What is kept of a packet without a choice: it has none, its other slot is the same, and it heads for the same group
unless it has come there. -/
structure Stays (group : Nat) (k k' : Packet) : Prop where
  committed : k'.Committed group
  group_eq : k'.dest.group = k.dest.group
  otherSlot_eq : k'.otherSlot = k.otherSlot
  target_eq : k.dest.target.toNat ≠ group → k'.dest.target = k.dest.target

theorem stays_turnHome {router : Router} (h : k.Committed router.site.group) :
    Stays router.site.group k (Transit.turnHome ⟨router, k⟩).packet := by
  refine ⟨h.turnHome, (Transit.keeps_turnHome ⟨router, k⟩).group_eq, ?_, ?_⟩
  · rw [Transit.turnHome_eq]
  · intro haway
    rw [Transit.turnHome_of_elsewhere (Ne.symm haway)]

/-- **A router leaves a packet without a choice its other slot.** -/
theorem pass (h : k.Committed v.group) : Stays v.group k (v.pass k) := by
  let I (t : Transit) : Prop := Stays v.group k t.packet
  have hstart : I ⟨v.router, k⟩ := ⟨h, rfl, rfl, fun _ => rfl⟩
  have hforward : ∀ c, I ((Transit.forward v.channel c).run ⟨v.router, k⟩).2 := by
    intro c
    refine Transit.kept_of_forward (I := I) hstart (fun network traffic _ _ => ?_) fun t next h => ?_
    · by_cases hwithin : v.group = k.dest.group.toNat
      · rwa [Transit.choosePort_within (t := ⟨v.router, k⟩) hwithin]
      · show Stays v.group k (Transit.packet _)
        rw [Transit.choosePort_away (t := ⟨v.router, k⟩) hwithin]
        cases hdecided : Transit.decided ⟨v.router, k⟩ traffic.algorithm v.channel c with
        | error e => exact h.stays_turnHome
        | ok k' => exact h.eq_of_decided hdecided ▸ h.stays_turnHome
    · exact ⟨h.committed, h.group_eq, h.otherSlot_eq, h.target_eq⟩
  show I (v.handling.run ⟨v.router, k⟩).2
  rw [Visit.handling]
  split
  · exact hforward _
  · exact Transit.kept_of_forwardSeen (I := I) hstart hforward

end Committed

/-! ### Any number of them -/

/-- Without a choice left, nothing that is asked about a packet changes its other slot. -/
theorem Committed.touched (h : k.Committed group) (hgroup : ∀ touch ∈ touches, touch.group = group)
    (hrun : k.touched touches = .ok k') : k'.otherSlot = k.otherSlot := by
  induction touches generalizing k with
  | nil =>
    cases hrun
    rfl
  | cons touch rest ih =>
    obtain ⟨k₁, happly, hrest⟩ := ok_of_bind_ok hrun
    have hhere := hgroup touch List.mem_cons_self
    have hrest' : ∀ touch ∈ rest, touch.group = group := fun touch hin => hgroup touch (List.mem_cons_of_mem _ hin)
    cases touch with
    | divert router through =>
      obtain ⟨-, htarget, hother⟩ := apply_divert happly
      rw [ih (.inl htarget) hrest' hrest, hother]
    | visit v =>
      obtain rfl := apply_visit happly
      subst hhere
      have hstays := h.pass
      rw [ih hstays.committed hrest' hrest, hstays.otherSlot_eq]

/-- A packet that goes another way, which it may not leave here, is not diverted from the straight one. -/
theorem divertedStraight_of_around (h : k.Committed group) (haround : k.dest.target ≠ k.dest.group)
    (helsewhere : k.dest.target.toNat ≠ group) (hgroup : ∀ touch ∈ touches, touch.group = group) :
    k.divertedStraight touches = false := by
  induction touches generalizing k with
  | nil => rfl
  | cons touch rest ih =>
    have hhere := hgroup touch List.mem_cons_self
    cases touch with
    | divert router through => simpa [divertedStraight] using haround
    | visit v =>
      subst hhere
      have hstays := h.pass
      have htarget := hstays.target_eq helsewhere
      rw [divertedStraight]
      apply ih hstays.committed
      · rwa [htarget, hstays.group_eq]
      · rwa [htarget]
      · exact fun touch hin => hgroup touch (List.mem_cons_of_mem _ hin)

/-- **A packet that heads straight has two ways into another group.** Where it takes its other choice, the slots change
places. Where it is diverted first, the other slot is what it was. -/
theorem otherSlot_of_straight (hstraight : k.dest.target = k.dest.group) (haway : k.dest.group.toNat ≠ group)
    (hgroup : ∀ touch ∈ touches, touch.group = group) (hrun : k.touched touches = .ok k')
    (haround : k'.dest.target ≠ k'.dest.group) :
    k'.otherSlot = if k.divertedStraight touches then k.otherSlot else k.slot := by
  induction touches generalizing k with
  | nil =>
    cases hrun
    exact absurd hstraight haround
  | cons touch rest ih =>
    obtain ⟨k₁, happly, hrest⟩ := ok_of_bind_ok hrun
    have hhere := hgroup touch List.mem_cons_self
    have hrest' : ∀ touch ∈ rest, touch.group = group := fun touch hin => hgroup touch (List.mem_cons_of_mem _ hin)
    cases touch with
    | divert router through =>
      obtain ⟨-, htarget, hother⟩ := apply_divert happly
      have hfirst : k.divertedStraight (.divert router through :: rest) = true := decide_eq_true hstraight
      rw [hfirst, if_pos rfl, Committed.touched (.inl htarget) hrest' hrest, hother]
    | visit v =>
      obtain rfl := apply_visit happly
      subst hhere
      obtain ⟨hkeeps, hredirects⟩ := v.pass_redirects fun _ => hstraight
      rw [divertedStraight]
      cases hredirects with
      | kept target_eq slot_eq otherSlot_eq =>
        rw [← slot_eq, ← otherSlot_eq]
        apply ih _ _ hrest' hrest
        · rw [target_eq, hkeeps.group_eq, hstraight]
        · rwa [hkeeps.group_eq]
      | home _ away => exact absurd hstraight away
      | detour _ _ other elsewhere takes =>
        have htarget : (v.pass k).dest.target = (v.pass k).dest.alternate := by
          rw [takes.target_eq, hkeeps.alternate_eq]
        have hcommitted : (v.pass k).Committed v.group := .inl htarget
        have hnever : (v.pass k).divertedStraight rest = false := by
          apply divertedStraight_of_around hcommitted _ _ hrest'
          · rwa [takes.target_eq, hkeeps.group_eq]
          · rw [takes.target_eq]
            exact Ne.symm elsewhere
        rw [hnever, hcommitted.touched hrest' hrest, takes.otherSlot_eq, if_neg Bool.false_ne_true]

end Packet

/-! ### Packets that have entered -/

namespace Router

/-- The slot of the straight way for a request from a host of the router. Within its group there are no links to choose
among. -/
def straightSlot (r : Router) (source group : Nat) : UInt16 :=
  if group = r.site.group then 0 else (r.chooseSlot source group).1

variable {r : Router} {q : Request} {k k' : Packet}

/-- A packet enters without a choice, with the straight slot as its other one; or it is adaptive, and heads straight for
another group by the straight slot. -/
theorem inject_cases (hk : (r.inject q).1 = .ok k) :
    k.Committed r.site.group ∧ k.otherSlot = r.straightSlot q.source k.dest.group.toNat ∨
      (∃ c, r.site.plan.get q.network = .ok c ∧ c.algorithm = .adaptive) ∧ k.dest.target = k.dest.group ∧
        k.dest.group.toNat ≠ r.site.group ∧ k.slot = r.straightSlot q.source k.dest.group.toNat := by
  rw [inject_eq] at hk
  cases haccept : r.accept q with
  | error f =>
    rw [haccept] at hk
    cases hk
  | ok accepted =>
    obtain ⟨dest, c⟩ := accepted
    obtain ⟨hlocate, hget⟩ := of_accept haccept
    obtain ⟨hstraight, hnone⟩ := Parameters.straight_of_locate hlocate
    rw [haccept] at hk
    dsimp only at hk
    by_cases hhome : dest.group.toNat = r.site.group
    · rw [if_pos hhome] at hk
      cases hk
      exact .inl ⟨.inr (.inl hnone), (if_pos hhome).symm⟩
    rw [if_neg hhome, Transit.choose_run] at hk
    have hslot : r.straightSlot q.source dest.group.toNat = (r.chooseSlot q.source dest.group.toNat).1 := if_neg hhome
    dsimp only [Transit.takeSlot, Transit.enter] at hk
    split at hk
    · cases hk
      exact .inl ⟨.inr (.inl hnone), hslot.symm⟩
    · next hminimal =>
      split at hk
      · cases hk
        exact .inl ⟨.inr (.inl hnone), hslot.symm⟩
      · next through _ =>
        split at hk
        · next hvaliant =>
          rw [Transit.divert_run] at hk
          split at hk
          · cases hk
          · cases hk
            exact .inl ⟨.inl rfl, hslot.symm⟩
        · next hvaliant =>
          cases hk
          have hadaptive : c.algorithm = .adaptive := by
            cases halgorithm : c.algorithm with
            | minimal => exact absurd halgorithm hminimal
            | valiant => exact absurd halgorithm hvaliant
            | adaptive => rfl
          exact .inr ⟨⟨c, hget, hadaptive⟩, hstraight, hhome, hslot.symm⟩

/-- **The other slot of a packet that goes around.** Whatever the routers of its source group are asked about a packet
that entered there, once it heads for another group its other slot is the straight one; but if it was first diverted
while it headed straight, it is the other slot that it entered with. This is the straight one too, unless the packet is
adaptive and was offered a way around. -/
theorem otherSlot_of_touched (hk : (r.inject q).1 = .ok k) {touches : List Touch}
    (hgroup : ∀ touch ∈ touches, touch.group = r.site.group) (hrun : k.touched touches = .ok k')
    (haround : k'.dest.target ≠ k'.dest.group) :
    (k'.otherSlot =
      if k.divertedStraight touches then k.otherSlot else r.straightSlot q.source k.dest.group.toNat) ∧
    ((∃ c, r.site.plan.get q.network = .ok c ∧ c.algorithm = .adaptive) ∧ k.dest.target = k.dest.group ∨
      k.otherSlot = r.straightSlot q.source k.dest.group.toNat) := by
  rcases inject_cases hk with ⟨hcommitted, hother⟩ | ⟨hadaptive, hstraight, haway, hslot⟩
  · refine ⟨?_, .inr hother⟩
    rw [hcommitted.touched hgroup hrun, hother, ite_self]
  · refine ⟨?_, .inl ⟨hadaptive, hstraight⟩⟩
    rw [← hslot]
    exact Packet.otherSlot_of_straight hstraight haway hgroup hrun haround

/-- Router 0 of the small network in turn, after a first packet to the third group. -/
def askedOnce : Router := ((Installation.inTurn.newRouter 0 8).inject ⟨0, 4, 0, 64⟩).2

/-- The second packet to that group, an adaptive one. It is given the second link there, and is offered the first link
to the second group. -/
def secondPacket : Packet := ⟨⟨0, 4, 2, 64⟩, 5, 0, ⟨2, 2, 1, 0, 0⟩, 1, 0⟩

theorem inject_askedOnce : (askedOnce.inject secondPacket.request).1 = .ok secondPacket :=
  ok_of_toOption (by decide +kernel)

/-- The packet is let pass and then diverted by the next router, and keeps the slot that it was offered. -/
theorem otherSlot_of_touched_secondPacket :
    let n := Installation.inTurn
    let touches : List Touch := [.visit ⟨n.newRouter 0 8, 5, none⟩, .divert (n.newRouter 1 8) 1]
    ∃ k', (askedOnce.inject secondPacket.request).1 = .ok secondPacket ∧
      (∀ touch ∈ touches, touch.group = askedOnce.site.group) ∧ secondPacket.touched touches = .ok k' ∧
      k'.dest.target ≠ k'.dest.group ∧ secondPacket.divertedStraight touches = true ∧
      k'.otherSlot = secondPacket.otherSlot := by
  intro n touches
  let k' : Packet := { secondPacket with dest := ⟨2, 1, 1, 0, 0⟩, slot := 0 }
  have hgroup : ∀ touch ∈ touches, touch.group = askedOnce.site.group := by decide +kernel
  have hrun : secondPacket.touched touches = .ok k' := ok_of_toOption (by decide +kernel)
  have haround : k'.dest.target ≠ k'.dest.group := by decide
  have hstraight : secondPacket.divertedStraight touches = true := by decide +kernel
  refine ⟨k', inject_askedOnce, hgroup, hrun, haround, hstraight, ?_⟩
  rw [(otherSlot_of_touched inject_askedOnce hgroup hrun haround).1, hstraight, if_pos rfl]

/-- **The other slot need not be the straight one.** Diverted at once, the packet heads for the second group with the
first link for its other slot, where the straight way was given the second one. -/
theorem otherSlot_not_straight :
    let n := Installation.inTurn
    Router.install n.settings n.table 0 n.parameters.radix 8 = .ok (n.newRouter 0 8) ∧
      (askedOnce.inject secondPacket.request).1 = .ok secondPacket ∧
      (n.newRouter 1 8).site.group = askedOnce.site.group ∧
      ∃ k', secondPacket.touched [.divert (n.newRouter 1 8) 1] = .ok k' ∧ k'.dest.target ≠ k'.dest.group ∧
        k'.otherSlot ≠ askedOnce.straightSlot secondPacket.request.source secondPacket.dest.group.toNat := by
  intro n
  have hrun : secondPacket.touched [.divert (n.newRouter 1 8) 1] =
      .ok { secondPacket with dest := ⟨2, 1, 1, 0, 0⟩, slot := 0 } := ok_of_toOption (by decide +kernel)
  exact ⟨Router.install_eq n (by decide) (by decide), inject_askedOnce, by decide +kernel, _, hrun, by decide,
    by decide +kernel⟩

end Router

end DragonflyFabric
