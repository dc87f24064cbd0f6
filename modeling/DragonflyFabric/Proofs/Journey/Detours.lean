import DragonflyFabric.Proofs.Router.Redirection
import Mathlib.Data.List.Destutter

/-!
# Packets that are passed on

What becomes of a packet that is given to one router after another, of any number, in whatever channels and
whatever states they are in: `redirected_once`. As long as it does not come back to its source group, it heads for
its destination, for one other group, and for its destination again. This is read off three kinds of runs, each by
induction on the visits: of a packet that heads straight for its destination and has left its source group, of one
that is on its way through another group, and of one that may still turn there.
-/

namespace DragonflyFabric

namespace Packet

variable {α : Type} [DecidableEq α]

/-- The packet as it is passed on, from before the first visit to behind the last. -/
def along (k : Packet) (visits : List Visit) : List Packet := visits.scanl (fun k v => v.pass k) k

/-- The values that a part of the packet takes in turn. -/
def values (part : Packet → α) (k : Packet) (visits : List Visit) : List α :=
  ((k.along visits).map part).destutter (· ≠ ·)

section Values

variable {part : Packet → α} {k : Packet} {v : Visit} {visits : List Visit}

theorem along_cons : k.along (v :: visits) = k :: (v.pass k).along visits := List.scanl_cons

theorem exists_along_eq_cons (k : Packet) (visits : List Visit) : ∃ rest, k.along visits = k :: rest := by
  cases visits with
  | nil => exact ⟨[], rfl⟩
  | cons v visits => exact ⟨_, along_cons⟩

theorem values_nil : k.values part [] = [part k] := rfl

theorem values_cons_of_eq (h : part (v.pass k) = part k) :
    k.values part (v :: visits) = (v.pass k).values part visits := by
  obtain ⟨rest, hrest⟩ := exists_along_eq_cons (v.pass k) visits
  rw [values, values, along_cons, hrest, List.map_cons, List.map_cons, List.destutter_cons_cons,
    if_neg (not_not_intro h.symm), List.destutter_cons', h]

theorem values_cons_of_ne (h : part (v.pass k) ≠ part k) :
    k.values part (v :: visits) = part k :: (v.pass k).values part visits := by
  obtain ⟨rest, hrest⟩ := exists_along_eq_cons (v.pass k) visits
  rw [values, values, along_cons, hrest, List.map_cons, List.map_cons, List.destutter_cons_cons, if_pos h.symm,
    List.destutter_cons']

end Values

variable {k : Packet} {visits : List Visit}

/-- Outside its source group a packet that heads straight for its destination goes on so. -/
theorem values_of_outside (hstraight : k.dest.target = k.dest.group) (hout : ∀ v ∈ visits, v.group ≠ k.origin.toNat) :
    k.values (·.dest.target) visits = [k.dest.group] ∧ k.values (·.otherSlot) visits = [k.otherSlot] := by
  induction visits generalizing k with
  | nil => exact ⟨by rw [values_nil, hstraight], rfl⟩
  | cons v visits ih =>
    obtain ⟨hkeeps, h⟩ := v.pass_redirects (fun _ => hstraight)
    cases h with
    | kept target_eq _ otherSlot_eq =>
      rw [values_cons_of_eq target_eq, values_cons_of_eq otherSlot_eq, ← hkeeps.group_eq, ← otherSlot_eq]
      refine ih (by rw [target_eq, hstraight, hkeeps.group_eq]) fun w hw => ?_
      rw [hkeeps.origin_eq]
      exact hout w (List.mem_cons_of_mem v hw)
    | home _ away => exact absurd hstraight away
    | detour _ source => exact absurd source (hout v List.mem_cons_self)

/-- A packet on its way through another group turns home there, and then goes straight. -/
theorem values_of_away (hk : k.WellAimed) (haway : k.dest.target ≠ k.dest.group)
    (hleft : visits.Pairwise fun v w => v.group ≠ k.origin.toNat → w.group ≠ k.origin.toNat) :
    (k.values (·.dest.target) visits).Sublist [k.dest.target, k.dest.group] ∧
      k.values (·.otherSlot) visits = [k.otherSlot] := by
  induction visits generalizing k with
  | nil => exact ⟨(List.nil_sublist _).cons_cons _, rfl⟩
  | cons v visits ih =>
    obtain ⟨hkeeps, h⟩ := v.pass_redirects hk
    obtain ⟨hfirst, hrest⟩ := List.pairwise_cons.mp hleft
    rw [← hkeeps.origin_eq] at hrest
    cases h with
    | kept target_eq _ otherSlot_eq =>
      rw [values_cons_of_eq target_eq, values_cons_of_eq otherSlot_eq, ← hkeeps.group_eq, ← otherSlot_eq, ← target_eq]
      exact ih (v.wellAimed_pass hk) (by rwa [target_eq, hkeeps.group_eq]) hrest
    | home here _ target_eq otherSlot_eq =>
      have hsource : v.group ≠ k.origin.toNat :=
        fun hsource => haway (hk (UInt32.toNat_inj.mp (here.symm.trans hsource)))
      have hout : ∀ w ∈ visits, w.group ≠ (v.pass k).origin.toNat := by
        rw [hkeeps.origin_eq]
        exact fun w hw => hfirst w hw hsource
      obtain ⟨htarget, hother⟩ := values_of_outside (target_eq.trans hkeeps.group_eq.symm) hout
      rw [values_cons_of_ne (by rw [target_eq]; exact haway.symm), values_cons_of_eq otherSlot_eq, htarget, hother,
        hkeeps.group_eq, otherSlot_eq]
      exact ⟨.refl _, rfl⟩
    | detour _ _ _ _ takes => exact absurd takes.straight haway

/-- A packet that heads straight for its destination is sent through one other group at most. -/
theorem values_of_straight (hstraight : k.dest.target = k.dest.group)
    (hleft : visits.Pairwise fun v w => v.group ≠ k.origin.toNat → w.group ≠ k.origin.toNat) :
    ∃ through, (k.values (·.dest.target) visits).Sublist [k.dest.group, through, k.dest.group] ∧
      (k.values (·.otherSlot) visits).length ≤ 2 := by
  induction visits generalizing k with
  | nil =>
    refine ⟨0, ?_, Nat.le_succ 1⟩
    rw [values_nil, hstraight]
    exact (List.nil_sublist _).cons_cons _
  | cons v visits ih =>
    have hk : k.WellAimed := fun _ => hstraight
    obtain ⟨hkeeps, h⟩ := v.pass_redirects hk
    obtain ⟨-, hrest⟩ := List.pairwise_cons.mp hleft
    rw [← hkeeps.origin_eq] at hrest
    cases h with
    | kept target_eq _ otherSlot_eq =>
      rw [values_cons_of_eq target_eq, values_cons_of_eq otherSlot_eq, ← hkeeps.group_eq]
      exact ih (by rw [target_eq, hstraight, hkeeps.group_eq]) hrest
    | home _ away => exact absurd hstraight away
    | detour _ _ other _ takes =>
      have haway : (v.pass k).dest.target ≠ (v.pass k).dest.group := by
        rwa [takes.target_eq, hkeeps.group_eq]
      obtain ⟨htarget, hother⟩ := values_of_away (v.wellAimed_pass hk) haway hrest
      refine ⟨k.dest.alternate, ?_, ?_⟩
      · rw [values_cons_of_ne (by rw [takes.target_eq, hstraight]; exact other), hstraight]
        rw [takes.target_eq, hkeeps.group_eq] at htarget
        exact htarget.cons_cons _
      · by_cases hsame : (v.pass k).otherSlot = k.otherSlot
        · rw [values_cons_of_eq hsame, hother]
          exact Nat.le_succ 1
        · rw [values_cons_of_ne hsame, hother]
          exact Nat.le_refl 2

/-- The other slot changes where the other choice is taken, and nowhere else. -/
theorem isChain_along (hk : k.WellAimed) (visits : List Visit) :
    (k.along visits).IsChain fun before after => after.otherSlot = before.otherSlot ∨ before.Takes after := by
  induction visits generalizing k with
  | nil => exact .singleton k
  | cons v visits ih =>
    obtain ⟨rest, hrest⟩ := exists_along_eq_cons (v.pass k) visits
    rw [along_cons, List.isChain_cons]
    refine ⟨fun after hafter => ?_, ih (v.wellAimed_pass hk)⟩
    rw [hrest] at hafter
    cases hafter
    cases (v.pass_redirects hk).2 with
    | kept _ _ otherSlot_eq => exact .inl otherSlot_eq
    | home _ _ _ otherSlot_eq => exact .inl otherSlot_eq
    | detour _ _ _ _ takes => exact .inr takes

/-- **A packet is sent through one other group at most, and that group is not drawn again.** Routers make
packets that are well aimed and keep them so. Of these they change nothing but where they head for, in the ways
of `Visit.Redirects`, also where they refuse them. One that does not come back to its source group heads for its
destination, for one other group and for its destination again, and its other slot changes once at most, when it
takes its other choice. -/
theorem redirected_once :
    (∀ n index r q k, Router.InService n index r → (r.inject q).1 = .ok k → k.WellAimed) ∧
    (∀ n index t t' through, Router.InService n index t.router →
      (Transit.divert through).run t = (.ok (), t') → t'.packet.WellAimed) ∧
    ∀ k : Packet, k.WellAimed →
      (∀ v : Visit, (v.pass k).WellAimed ∧ k.Keeps (v.pass k) ∧ v.Redirects k (v.pass k)) ∧
      ∀ visits : List Visit,
        (visits.Pairwise fun v w => v.group ≠ k.origin.toNat → w.group ≠ k.origin.toNat) →
        ∃ through, (k.values (·.dest.target) visits).Sublist [k.dest.group, through, k.dest.group] ∧
          (k.values (·.otherSlot) visits).length ≤ 2 ∧
          (k.along visits).IsChain fun before after => after.otherSlot = before.otherSlot ∨ before.Takes after := by
  have hgroups : ∀ {n : Installation} {index r}, Router.InService n index r → r.site.parameters.groups ≤ 2 ^ 32 := by
    intro n index r hr
    have := n.groups_lt
    rw [hr.parameters_eq]
    omega
  refine ⟨fun n index r q k hr h => Router.wellAimed_of_inject (hgroups hr) h,
    fun n index t t' through hr h => Transit.wellAimed_of_divert (hgroups hr) h, fun k hk => ⟨fun v => ?_, ?_⟩⟩
  · exact ⟨v.wellAimed_pass hk, v.pass_redirects hk⟩
  · intro visits hleft
    have hchain := isChain_along hk visits
    by_cases hstraight : k.dest.target = k.dest.group
    · obtain ⟨through, htarget, hother⟩ := values_of_straight hstraight hleft
      exact ⟨through, htarget, hother, hchain⟩
    · obtain ⟨htarget, hother⟩ := values_of_away hk hstraight hleft
      exact ⟨k.dest.target, htarget.cons _, by rw [hother]; exact Nat.le_succ 1, hchain⟩

/-- An adaptive packet of the small network, which takes its other choice where it enters and turns home in the
group it was sent through; or which is sent through that group from the start. -/
theorem redirected_once_sample :
    let n := Installation.sample
    let k : Packet := ⟨⟨0, 5, 2, 64⟩, 5, 0, ⟨2, 2, 1, 1, 0⟩, 0, 0⟩
    let busy : Congestion := ⟨#[], (Array.replicate 13 0).push 10, 8⟩
    let visits : List Visit := [⟨n.newRouter 0 8, 5, some busy⟩, ⟨n.newRouter 3 8, 6, none⟩,
      ⟨n.newRouter 2 8, 6, none⟩, ⟨n.newRouter 5 8, 7, none⟩]
    k.WellAimed ∧ (visits.Pairwise fun v w => v.group ≠ k.origin.toNat → w.group ≠ k.origin.toNat) ∧
      k.values (·.dest.target) visits = [2, 1, 2] ∧ (k.values (·.otherSlot) visits).length ≤ 2 ∧
      ∃ t', (Transit.divert 1).run ⟨n.newRouter 0 8, k⟩ = (.ok (), t') ∧ t'.packet.WellAimed := by
  intro n k busy visits
  obtain ⟨-, hdivert, hrun⟩ := redirected_once
  have hservice : (n.newRouter 0 8).InService n 0 := .install (Router.install_eq n (by decide) (by decide))
  have hk : k.WellAimed := fun _ => rfl
  have hleft : visits.Pairwise fun v w => v.group ≠ k.origin.toNat → w.group ≠ k.origin.toNat := by decide +kernel
  obtain ⟨-, -, hother, -⟩ := (hrun k hk).2 visits hleft
  obtain ⟨t', ht'⟩ : ∃ t', (Transit.divert 1).run ⟨n.newRouter 0 8, k⟩ = (.ok (), t') := ⟨_, rfl⟩
  exact ⟨hk, hleft, by decide +kernel, hother, t', ht', hdivert n 0 ⟨n.newRouter 0 8, k⟩ t' 1 hservice ht'⟩

end Packet

end DragonflyFabric
