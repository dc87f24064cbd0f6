import DragonflyFabric.Proofs.Accepted
import DragonflyFabric.Proofs.Classes
import DragonflyFabric.Proofs.Exits.InOrder
import DragonflyFabric.Proofs.Settings.Fields

/-!
# Which settings are accepted

The checks of the settings ask for no more and no less than `Fields.Valid`: counts that describe a network, a
radix that is theirs, an algorithm for every traffic class, a threshold above zero, a fixed slot among the
parallel links and a link map whose entries are links. In particular a link map that is not given is never a
reason to reject anything. What is compared has to be words, `Fields.InWords`: of greater counts the checks see only
what is left of them.

There is one thing besides. The classes and the links in order are kept in rows of memory, and settings that ask
for more than a row can have are not rejected: reading them has no answer at all, `Settings.classes_beyond_memory`.
Where the rows fit, `Fields.Fits`, valid settings are accepted: `Settings.exists_ofValue_iff`.
-/

namespace DragonflyFabric.Settings

open DragonflyFabric.Language (Value)

variable {whole v : Value} {f : Fields} {p : Parameters} {s : Settings}

/-- The number of traffic classes: where it is not given, there is one for each algorithm. -/
def Fields.classCount (f : Fields) : Nat := f.networks.getD f.algorithms.length

/-- The fields give these counts. -/
structure Fields.Counts (f : Fields) (p : Parameters) : Prop where
  hosts_eq : f.hosts = some p.hosts
  routers_eq : f.routers = some p.routers
  exits_eq : f.exits = some p.exits
  groups_eq : f.groups = some p.groups
  links_eq : f.links = p.links

/-- The products and the sum that are compared while the settings are read are words. The radix is only looked at
where one is given. -/
structure Fields.InWords (f : Fields) (p : Parameters) : Prop where
  exits_lt : p.routers * p.exits < 2 ^ 64
  links_lt : p.rows * p.links < 2 ^ 64
  radix_lt : ∀ radix, f.radix = some radix → p.radix < 2 ^ 64

/-- Fields that agree with each other, and have the given counts. -/
structure Fields.Valid (f : Fields) (p : Parameters) : Prop extends f.Counts p where
  hosts_pos : 0 < p.hosts
  routers_pos : 0 < p.routers
  groups_pos : 0 < p.groups
  links_pos : 0 < p.links
  links_le : p.rows * p.links ≤ p.routers * p.exits
  radix_eq : ∀ radix, f.radix = some radix → radix = p.radix
  algorithms_ne : f.algorithms ≠ []
  classCount_pos : 0 < f.classCount
  one_or_each : f.algorithms.length = 1 ∨ f.algorithms.length = f.classCount
  threshold_pos : 0.0 < f.threshold
  slot_lt : ∀ slot, f.policy = .fixed slot → slot < f.links
  map_length : ∀ entries, f.linkMap = some entries → entries.length = p.routers * p.exits
  map_bounds : ∀ entries, f.linkMap = some entries → ∀ link ∈ entries, -1 ≤ link ∧ link < (p.rows * p.links : Nat)

/-- The rows that are made while the settings are read have room: twenty-four bytes for each class, and eight for
each global port of a group where the links are put in order. -/
structure Fields.Fits (f : Fields) (p : Parameters) : Prop where
  classes : Storage.holds f.classCount 24 = true
  links : f.linkMap = none → Storage.holds (p.routers * p.exits) 8 = true

/-- A link map that is given is one that can be kept. -/
def Fields.Held (f : Fields) : Prop := ∀ entries, f.linkMap = some entries → Storage.holds entries.length 8 = true

def Fields.chosenMap (f : Fields) (p : Parameters) : LinkMap :=
  match f.linkMap with
  | some entries => ⟨entries.toArray⟩
  | none => .inOrder p

/-- The settings that the fields give. -/
def Fields.settings (f : Fields) (p : Parameters) : Settings where
  parameters := p
  networks := f.classCount
  algorithms := f.algorithms
  threshold := f.threshold
  linkMap := f.chosenMap p
  numbering := f.numbering
  policy := f.policy
  seed := f.seed

/-! ### One check after another -/

theorem some_of_need {given : Option Nat} {e : Fault} {n : Nat}
    (h : (given.map Except.ok).getD (.error e) = .ok n) : given = some n := by
  cases given with
  | none => cases h
  | some m =>
    cases h
    rfl

theorem Fields.Valid.checked (h : f.Valid p) (hwords : f.InWords p) : p.Checked :=
  (Parameters.checked_iff hwords.exits_lt hwords.links_lt).mpr
    ⟨h.hosts_pos, h.routers_pos, h.groups_pos, h.links_pos, h.links_le⟩

theorem parameters_eq_ok_iff : f.parameters whole = .ok p ↔ f.Counts p ∧ p.Checked := by
  constructor
  · intro h
    rw [Fields.parameters] at h
    obtain ⟨hosts, hhosts, h⟩ := ok_of_bind_ok h
    obtain ⟨routers, hrouters, h⟩ := ok_of_bind_ok h
    obtain ⟨exits, hexits, h⟩ := ok_of_bind_ok h
    obtain ⟨groups, hgroups, h⟩ := ok_of_bind_ok h
    obtain ⟨rfl, hc⟩ := Parameters.checked_of_check h
    exact ⟨⟨some_of_need hhosts, some_of_need hrouters, some_of_need hexits, some_of_need hgroups, rfl⟩, hc⟩
  · rintro ⟨⟨hhosts, hrouters, hexits, hgroups, hlinks⟩, hc⟩
    rw [Fields.parameters]
    simp only [hhosts, hrouters, hexits, hgroups, hlinks]
    exact hc.check_eq

theorem checkRadix_eq_ok_iff : f.checkRadix p = .ok () ↔ ∀ radix, f.radix = some radix → radix = p.radix := by
  rw [Fields.checkRadix]
  split
  · next radix h => simp [Parameters.checkRadix, h]
  · next h => simp [h]

theorem checkAlgorithms_eq_ok_iff : f.checkAlgorithms = .ok () ↔ f.algorithms ≠ [] := by
  simp [Fields.checkAlgorithms]

theorem decides_checkThreshold (threshold : Float) : Decides (checkThreshold threshold) (0.0 < threshold) () := by
  rw [checkThreshold]
  split
  · next h => exact .of_fails (by simpa using h) (.throw_bind _)
  · next h =>
    refine .of_answers (by simpa using h) ?_
    split
    · exact .bind (.pure _) (.warn _)
    · exact .bind (.pure _) (.pure _)

theorem decides_map (hc : p.Checked) (hheld : f.Held) (hwords : f.InWords p) : Decides (f.map p)
    ((∀ entries, f.linkMap = some entries → entries.length = p.routers * p.exits ∧
      ∀ link ∈ entries, -1 ≤ link ∧ link < (p.rows * p.links : Nat)) ∧
      (f.linkMap = none → Storage.holds (p.routers * p.exits) 8 = true)) (f.chosenMap p) := by
  rw [Fields.map, Fields.chosenMap]
  cases hmap : f.linkMap with
  | none =>
    dsimp only
    by_cases hroom : Storage.holds (p.routers * p.exits) 8 = true
    · exact .of_answers (by simp [hroom]) (LinkMap.answers_spread_of_holds hc hroom)
    · refine .of_fails (by simp [hroom]) ?_
      rw [LinkMap.spread]
      simp only [hroom, Bool.not_false, if_true]
      exact .throw_bind _
  | some entries =>
    refine (LinkMap.decides_ofEntries p entries.toArray).of_iff ?_
    have hlength : entries.length * 8 ≤ Storage.limit := by simpa [Storage.holds] using hheld entries hmap
    -- with so many entries the bound is the number of links, which the global ports are enough for
    have hbound (h : entries.length = p.routers * p.exits) : LinkMap.bound p = (p.rows * p.links : Nat) := by
      have hlinks := hc.linkCount_le
      rw [Storage.limit] at hlength
      rw [LinkMap.bound_eq (by omega), Parameters.linkCount_eq hwords.links_lt]
    simp only [List.size_toArray, List.mem_toArray, Option.some.injEq, forall_eq', reduceCtorEq, false_implies,
      and_true]
    exact and_congr_right fun h => by rw [hbound h]

/-- Where the counts describe a network, all other checks together. -/
theorem decides_ofFields (hp : f.parameters whole = .ok p) (hheld : f.Held) (hwords : f.InWords p) :
    Decides (ofFields whole f) (f.Valid p ∧ f.Fits p) (f.settings p) := by
  obtain ⟨hcounts, hc⟩ := parameters_eq_ok_iff.mp hp
  rw [ofFields]
  refine Decides.of_iff (.bind (.of_answers trivial (.lift hp)) fun _ => .bind (.lift checkRadix_eq_ok_iff) fun _ =>
    .bind (.lift checkAlgorithms_eq_ok_iff) fun halgorithms => .bind (decides_checkThreshold _) fun _ =>
    .bind (decides_checkPolicy _ _) fun _ => .bind (decides_map hc hheld hwords) fun _ =>
    .bind (.discard_lift (ChannelPlan.exists_make_iff halgorithms)) fun _ => .of_answers trivial (.pure _)) ?_
  constructor
  · rintro ⟨-, hradix, halgorithms, hthreshold, hslot, ⟨hmap, hlinksFit⟩, ⟨hpos, hone, hclassesFit⟩, -⟩
    have hle : p.rows * p.links ≤ p.routers * p.exits := Parameters.linkCount_eq hwords.links_lt ▸ hc.linkCount_le
    exact ⟨⟨hcounts, hc.hosts_pos, hc.routers_pos, hc.groups_pos, hc.links_pos, hle, hradix, halgorithms, hpos, hone,
      hthreshold, hslot, fun entries h => (hmap entries h).1, fun entries h => (hmap entries h).2⟩, hclassesFit,
      hlinksFit⟩
  · rintro ⟨hvalid, hfits⟩
    exact ⟨trivial, hvalid.radix_eq, hvalid.algorithms_ne, hvalid.threshold_pos, hvalid.slot_lt,
      ⟨fun entries h => ⟨hvalid.map_length entries h, hvalid.map_bounds entries h⟩, hfits.links⟩,
      ⟨hvalid.classCount_pos, hvalid.one_or_each, hfits.classes⟩, trivial⟩

theorem ofFields_eq_ok_iff (hheld : f.Held) (hwords : ∀ p, f.Counts p → f.InWords p) :
    (ofFields whole f).result = .ok s ↔ ∃ p, f.Valid p ∧ f.Fits p ∧ s = f.settings p := by
  constructor
  · intro h
    obtain ⟨p, hp, -⟩ := result_bind_lift_eq_ok_iff.mp h
    obtain ⟨hcounts, -⟩ := parameters_eq_ok_iff.mp hp
    obtain ⟨⟨hvalid, hfits⟩, hs⟩ := (decides_ofFields hp hheld (hwords p hcounts)).result_eq_ok_iff.mp h
    exact ⟨p, hvalid, hfits, hs⟩
  · rintro ⟨p, hvalid, hfits, rfl⟩
    have hin := hwords p hvalid.toCounts
    have hp : f.parameters whole = .ok p := parameters_eq_ok_iff.mpr ⟨hvalid.toCounts, hvalid.checked hin⟩
    exact (decides_ofFields hp hheld hin).result_eq_ok_iff.mpr ⟨⟨hvalid, hfits⟩, rfl⟩

/-- **Settings that are accepted are those the last field of each name gives.** -/
theorem ofValue_eq_ok_iff (hheld : ∀ fields, v = .object "Dragonfly" fields → (given fields).Held)
    (hwords : ∀ fields p, v = .object "Dragonfly" fields → (given fields).Counts p → (given fields).InWords p) :
    (ofValue v).result = .ok s ↔ ∃ fields p, v = .object "Dragonfly" fields ∧
      (∀ key value, (key, value) ∈ fields → Reads key value) ∧
      (given fields).Valid p ∧ (given fields).Fits p ∧ s = (given fields).settings p := by
  have hread : (ofValue v).result = .ok s ↔ ∃ fields, v.readFields "Dragonfly" = .ok fields ∧
      ∃ f, readAll v fields = .ok f ∧ (ofFields v f).result = .ok s :=
    result_bind_lift_eq_ok_iff.trans (exists_congr fun _ => and_congr_right fun _ => result_bind_lift_eq_ok_iff)
  rw [hread]
  constructor
  · rintro ⟨fields, hfields, f, hf, hs⟩
    rw [readFields_eq_ok_iff] at hfields
    obtain ⟨hreads, rfl⟩ := readAll_eq_ok_iff.mp hf
    obtain ⟨p, hvalid, hfits, rfl⟩ := (ofFields_eq_ok_iff (hheld fields hfields) fun p => hwords fields p hfields).mp hs
    exact ⟨fields, p, hfields, hreads, hvalid, hfits, rfl⟩
  · rintro ⟨fields, p, hfields, hreads, hvalid, hfits, rfl⟩
    exact ⟨fields, readFields_eq_ok_iff.mpr hfields, given fields, readAll_eq_ok_iff.mpr ⟨hreads, rfl⟩,
      (ofFields_eq_ok_iff (hheld fields hfields) fun p => hwords fields p hfields).mpr ⟨p, hvalid, hfits, rfl⟩⟩

/-- **A value is accepted exactly if it is a valid object that fits.** -/
theorem exists_ofValue_iff (v : Value) (hheld : ∀ fields, v = .object "Dragonfly" fields → (given fields).Held)
    (hwords : ∀ fields p, v = .object "Dragonfly" fields → (given fields).Counts p → (given fields).InWords p) :
    (∃ s, (ofValue v).result = .ok s) ↔ ∃ fields p, v = .object "Dragonfly" fields ∧
      (∀ key value, (key, value) ∈ fields → Reads key value) ∧ (given fields).Valid p ∧ (given fields).Fits p := by
  constructor
  · rintro ⟨s, hs⟩
    obtain ⟨fields, p, hfields, hreads, hvalid, hfits, -⟩ := (ofValue_eq_ok_iff hheld hwords).mp hs
    exact ⟨fields, p, hfields, hreads, hvalid, hfits⟩
  · rintro ⟨fields, p, hfields, hreads, hvalid, hfits⟩
    exact ⟨_, (ofValue_eq_ok_iff hheld hwords).mpr ⟨fields, p, hfields, hreads, hvalid, hfits, rfl⟩⟩

/-- Three groups of two routers, joined by two links in descending order. The radix is given twice, first a wrong
one. -/
def crossedFields : List (String × Value) :=
  [("radix", .number 9), ("hosts_per_router", .number 1), ("routers_per_group", .number 2),
    ("intergroup_per_router", .number 2), ("num_groups", .number 3), ("intergroup_links", .number 2),
    ("algorithm", .array [.literal "minimal", .literal "valiant"]),
    ("global_link_map", .array [.number 3, .number 2, .number 1, .number 0]),
    ("link_slot_policy", .object "Fixed" [("slot", .number 1)]), ("legend_name", .array []), ("radix", .number 4)]

deriving instance DecidableEq for Fields

/-- What they say. -/
def crossed : Fields where
  hosts := some 1
  routers := some 2
  exits := some 2
  groups := some 3
  links := 2
  algorithms := [.minimal, .valiant]
  linkMap := some [3, 2, 1, 0]
  policy := .fixed 1
  radix := some 4

theorem readAll_crossed : readAll .absent crossedFields = .ok crossed := ok_of_toOption (by decide +kernel)

theorem exists_ofValue_crossed : ∃ s, (ofValue (.object "Dragonfly" crossedFields)).result = .ok s := by
  obtain ⟨hreads, hgiven⟩ := readAll_eq_ok_iff.mp readAll_crossed
  refine (exists_ofValue_iff (.object "Dragonfly" crossedFields) ?_ ?_).mpr
    ⟨crossedFields, ⟨1, 2, 2, 3, 2⟩, rfl, hreads, ?_, ?_⟩
  · rintro fields ⟨⟩ entries hentries
    rw [← hgiven] at hentries
    cases hentries
    decide
  · rintro fields ⟨hosts, routers, exits, groups, links⟩ ⟨⟩ hcounts
    rw [← hgiven] at hcounts ⊢
    obtain ⟨⟨⟩, ⟨⟩, ⟨⟩, ⟨⟩, rfl⟩ := hcounts
    exact ⟨by decide, by decide, fun _ _ => by decide⟩
  · rw [← hgiven]
    exact
      { hosts_eq := rfl
        routers_eq := rfl
        exits_eq := rfl
        groups_eq := rfl
        links_eq := rfl
        hosts_pos := by decide
        routers_pos := by decide
        groups_pos := by decide
        links_pos := by decide
        links_le := by decide
        radix_eq := by rintro _ ⟨⟩; rfl
        algorithms_ne := by decide
        classCount_pos := by decide
        one_or_each := by decide
        threshold_pos := by decide +kernel
        slot_lt := by rintro _ ⟨⟩; decide
        map_length := by rintro _ ⟨⟩; rfl
        map_bounds := by rintro _ ⟨⟩; decide }
  · rw [← hgiven]
    exact ⟨by decide, by rintro ⟨⟩⟩

/-- Two groups of one router each, for so many traffic classes that no row of memory can keep them. -/
def boundlessFields : List (String × Value) :=
  [("hosts_per_router", .number 1), ("routers_per_group", .number 1), ("intergroup_per_router", .number 1),
    ("num_groups", .number 2), ("algorithm", .literal "minimal"), ("num_vns", .number 1e18)]

def boundless : Fields where
  hosts := some 1
  routers := some 1
  exits := some 1
  groups := some 2
  algorithms := [.minimal]
  networks := some 1000000000000000000

theorem readAll_boundless : readAll .absent boundlessFields = .ok boundless := ok_of_toOption (by decide +kernel)

/-- **Not all valid settings are accepted.** -/
theorem classes_beyond_memory : (∀ key value, (key, value) ∈ boundlessFields → Reads key value) ∧
    (given boundlessFields).Valid ⟨1, 1, 1, 2, 1⟩ ∧
    (ofValue (.object "Dragonfly" boundlessFields)).result = .error .abort := by
  obtain ⟨hreads, hgiven⟩ := readAll_eq_ok_iff.mp readAll_boundless
  refine ⟨hreads, ?_, ?_⟩
  · rw [← hgiven]
    exact
      { hosts_eq := rfl
        routers_eq := rfl
        exits_eq := rfl
        groups_eq := rfl
        links_eq := rfl
        hosts_pos := by decide
        routers_pos := by decide
        groups_pos := by decide
        links_pos := by decide
        links_le := by decide
        radix_eq := by rintro _ ⟨⟩
        algorithms_ne := by decide
        classCount_pos := by decide
        one_or_each := by decide
        threshold_pos := by decide +kernel
        slot_lt := by rintro _ ⟨⟩
        map_length := by rintro _ ⟨⟩
        map_bounds := by rintro _ ⟨⟩ }
  · have habort : (ofValue (.object "Dragonfly" boundlessFields)).result matches .error .abort := by decide +kernel
    split at habort
    · next h => exact h
    · cases habort

end DragonflyFabric.Settings
