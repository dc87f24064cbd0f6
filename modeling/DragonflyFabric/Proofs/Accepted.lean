import DragonflyFabric.Proofs.Outcome
import DragonflyFabric.Proofs.Ports
import DragonflyFabric.Settings.Reading

/-!
# What accepted settings satisfy

Settings that were read have passed the checks of their counts, their policy and their traffic classes:
`Settings.accepted_of_ofValue`.
-/

namespace DragonflyFabric

/-- Counts that describe a network. -/
structure Parameters.Checked (p : Parameters) : Prop where
  hosts_pos : 0 < p.hosts
  routers_pos : 0 < p.routers
  groups_pos : 0 < p.groups
  links_pos : 0 < p.links
  linkCount_le_wrap : p.linkCount ≤ Word.wrap (p.routers * p.exits)

theorem Parameters.Checked.linkCount_le {p : Parameters} (h : p.Checked) : p.linkCount ≤ p.routers * p.exits :=
  Nat.le_trans h.linkCount_le_wrap (Word.wrap_le _)

/-- Where the products are words, they are compared as they are. -/
theorem Parameters.checked_iff {p : Parameters} (hexits : p.routers * p.exits < 2 ^ 64)
    (hlinks : p.rows * p.links < 2 ^ 64) : p.Checked ↔
      0 < p.hosts ∧ 0 < p.routers ∧ 0 < p.groups ∧ 0 < p.links ∧ p.rows * p.links ≤ p.routers * p.exits := by
  constructor
  · intro h
    exact ⟨h.hosts_pos, h.routers_pos, h.groups_pos, h.links_pos, linkCount_eq hlinks ▸ h.linkCount_le⟩
  · rintro ⟨hhosts, hrouters, hgroups, hpos, hle⟩
    exact ⟨hhosts, hrouters, hgroups, hpos, by rwa [linkCount_eq hlinks, Word.wrap_of_lt hexits]⟩

theorem Parameters.checked_of_check {p q : Parameters} (h : p.check = .ok q) : q = p ∧ p.Checked := by
  rw [check] at h
  split at h
  · cases h
  · next hz =>
    split at h
    · cases h
    · next he =>
      cases h
      exact ⟨rfl, by omega, by omega, by omega, by omega, by omega⟩

theorem Parameters.Checked.check_eq {p : Parameters} (h : p.Checked) : p.check = .ok p := by
  have hpos := h.hosts_pos
  have hrouters := h.routers_pos
  have hgroups := h.groups_pos
  have hlinks := h.links_pos
  have hexits := h.linkCount_le_wrap
  rw [check, if_neg (by omega), if_neg (by omega)]

theorem Parameters.Checked.classOf?_exitPort {p : Parameters} (h : p.Checked) {index : Nat} (hi : index < p.exits) :
    p.classOf? (p.exitPort index) = some .exit := by
  rw [classOf?_exit_iff h.hosts_pos h.routers_pos, exitPort, portEnd]
  omega

namespace LinkMap

theorem firstBad?_eq_none_iff {bound : Int} {entries : Array Int} :
    firstBad? bound entries = none ↔ ∀ link ∈ entries, -1 ≤ link ∧ link < bound := by
  rw [firstBad?, Option.map_eq_none_iff, List.find?_eq_none]
  constructor
  · intro hgood link hlink
    obtain ⟨i, hi, rfl⟩ := Array.mem_iff_getElem.mp hlink
    have := hgood (entries[i], i) (by simp [List.mem_zipIdx_iff_getElem?, hi])
    simp only [Bool.or_eq_true, decide_eq_true_eq, not_or] at this
    omega
  · rintro hbounds ⟨link, i⟩ hmem
    have hentry := List.mem_zipIdx_iff_getElem?.mp hmem
    rw [Array.getElem?_toList] at hentry
    have := hbounds link (Array.mem_of_getElem? hentry)
    simp only [Bool.or_eq_true, decide_eq_true_eq, not_or]
    omega

/-- Entries that are links or `-1`, one for each global port, make a map, and no others do. -/
theorem decides_ofEntries (p : Parameters) (entries : Array Int) : Decides (ofEntries p entries)
    (entries.size = p.routers * p.exits ∧ ∀ link ∈ entries, -1 ≤ link ∧ link < bound p) ⟨entries⟩ := by
  rw [ofEntries]
  dsimp only
  split
  · next hsize => exact .of_fails (fun h => hsize h.1) (.throw_bind _)
  · next hsize =>
    split
    · next hbad =>
      refine .of_fails (fun h => ?_) fun _ _ _ h => by cases h
      rw [firstBad?_eq_none_iff.mpr h.2] at hbad
      cases hbad
    · next hgood =>
      refine .of_answers ⟨Decidable.not_not.mp hsize, firstBad?_eq_none_iff.mp hgood⟩ ?_
      split
      · exact .bind (.warn _) (.pure _)
      · exact .pure _

end LinkMap

namespace Settings

/-- Settings that passed every check made while they are read. -/
structure Accepted (s : Settings) : Prop where
  counts : s.parameters.Checked
  slot_lt : ∀ slot, s.policy = .fixed slot → slot < s.parameters.links
  plan_ok : ∃ plan, s.plan = .ok plan

variable {whole : Language.Value} {f : Fields}

theorem checked_of_parameters {p : Parameters} (h : f.parameters whole = .ok p) :
    p.links = f.links ∧ p.Checked := by
  rw [Fields.parameters] at h
  obtain ⟨hosts, -, h⟩ := ok_of_bind_ok h
  obtain ⟨routers, -, h⟩ := ok_of_bind_ok h
  obtain ⟨exits, -, h⟩ := ok_of_bind_ok h
  obtain ⟨groups, -, h⟩ := ok_of_bind_ok h
  obtain ⟨rfl, hp⟩ := Parameters.checked_of_check h
  exact ⟨rfl, hp⟩

/-- The slot of a fixed policy has to be one of the parallel links. -/
theorem decides_checkPolicy (links : Nat) (policy : SlotPolicy) :
    Decides (checkPolicy links policy) (∀ slot, policy = .fixed slot → slot < links) () := by
  cases policy with
  | fixed slot =>
    rw [checkPolicy]
    split
    · next h => exact .of_fails (fun hlt => absurd (hlt slot rfl) (by omega)) (.throw_bind _)
    · next h =>
      refine .of_answers (fun slot' hs => by cases hs; omega) ?_
      split
      · exact .bind (.pure _) (.warn _)
      · exact .bind (.pure _) (.pure _)
  | roundRobin => exact .of_answers (fun _ h => by cases h) (.pure _)
  | sourceHash => exact .of_answers (fun _ h => by cases h) (.pure _)
  | random => exact .of_answers (fun _ h => by cases h) (.pure _)

theorem ensures_ofFields (whole : Language.Value) (f : Fields) :
    Ensures (ofFields whole f) Accepted := by
  refine .bind (.lift fun p hp => checked_of_parameters hp) fun p hp => ?_
  refine .after fun _ => .after fun _ => .after fun _ => ?_
  refine .bind (decides_checkPolicy f.links f.policy).ensures fun _ hpolicy => ?_
  refine .after fun map => ?_
  refine .bind (.discard (.lift fun plan hplan => hplan)) fun _ hplan => ?_
  exact .pure ⟨hp.2, fun slot hs => hp.1 ▸ hpolicy.1 slot hs, hplan⟩

/-- **Settings that were read are accepted.** -/
theorem accepted_of_ofValue {v : Language.Value} {s : Settings} (h : (ofValue v).result = .ok s) :
    s.Accepted := by
  refine Ensures.of_result ?_ h
  exact .after fun fields => .after fun f => ensures_ofFields v f

end Settings

end DragonflyFabric
