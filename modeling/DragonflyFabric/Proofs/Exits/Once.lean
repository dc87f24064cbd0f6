import DragonflyFabric.Proofs.Blame
import DragonflyFabric.Proofs.Exits.InOrder
import DragonflyFabric.Proofs.Exits.Views

/-!
# Links that are served once

A map fills its table if it serves each link once. If a link is served twice, the second port that serves it is
refused, whatever else is wrong. If none is, a draft is filled, and the first entry, row by row, whose link is served
by no port is named: `fills_iff_each_once`.

Between the entries of a map and those of the table stand two facts.

* `LinkMap.Listed.link?_eq_some_iff`: a port serves the row and slot whose number stands in its place.
* `Draft.holds_ofLinkMap`: a draft holds what was written for the ports, one after the other.
-/

namespace DragonflyFabric

/-- The number of the link of a row and a slot. -/
def Parameters.linkNumber (p : Parameters) (row slot : Nat) : Nat := slot * p.rows + row

namespace LinkMap

/-- One entry for each global port, a link or `-1`. -/
structure Listed (p : Parameters) (m : LinkMap) : Prop where
  size_eq : m.entries.size = p.routers * p.exits
  link_or_idle : ∀ link ∈ m.entries, -1 ≤ link ∧ link < p.linkCount

/-- Some link stands in two places. -/
def Repeats (m : LinkMap) : Prop :=
  ∃ (i j : Nat) (link : Int), i ≠ j ∧ link ≠ -1 ∧ m.entries[i]? = some link ∧ m.entries[j]? = some link

/-- The first row and slot, row by row, whose link stands nowhere. -/
structure FirstAbsent (p : Parameters) (m : LinkMap) (row slot : Nat) : Prop where
  row_lt : row < p.rows
  slot_lt : slot < p.links
  absent : (p.linkNumber row slot : Int) ∉ m.entries
  before : ∀ row' slot', slot' < p.links → row' < row ∨ row' = row ∧ slot' < slot →
    (p.linkNumber row' slot' : Int) ∈ m.entries

variable {p : Parameters} {m : LinkMap} {position index row slot : Nat}

theorem linkNumber_lt (hlinks : p.rows * p.links < 2 ^ 64) (hr : row < p.rows) (hs : slot < p.links) :
    p.linkNumber row slot < p.linkCount := by
  rw [Parameters.linkNumber, Parameters.linkCount_eq hlinks, Nat.mul_comm p.rows]
  exact Grid.place_lt hs hr

/-- Every link has a row and a slot. -/
theorem exists_linkNumber {link : Nat} (h : link < p.linkCount) :
    ∃ row slot, row < p.rows ∧ slot < p.links ∧ p.linkNumber row slot = link :=
  have hlt := Nat.lt_of_lt_of_le h p.linkCount_le_mul
  ⟨link % p.rows, link / p.rows, Nat.mod_lt _ (Nat.pos_of_lt_mul_right hlt), Nat.div_lt_of_lt_mul hlt,
    Nat.div_add_mod' _ _⟩

namespace Listed

section Places

open ExitTable.Draft (exitPlaces mem_exitPlaces nodup_exitPlaces Apart)

variable (hm : m.Listed p)

include hm

/-- **A port serves the link whose number stands in its place.** -/
theorem link?_eq_some_iff (hp : position < p.routers) (hi : index < p.exits) :
    m.link? p position index = some (row, slot) ↔
      row < p.rows ∧ slot < p.links ∧ m.entries[position * p.exits + index]? = some (p.linkNumber row slot : Int) := by
  have hplace : position * p.exits + index < m.entries.size := by
    rw [hm.size_eq]
    exact Grid.place_lt hp hi
  rw [link?, Array.getElem?_eq_getElem hplace, Option.some_inj]
  dsimp only
  have hlink := (hm.link_or_idle _ (Array.getElem_mem hplace)).2
  generalize m.entries[position * p.exits + index] = link at hlink
  split
  · next hidle =>
    constructor
    · rintro ⟨⟩
    · rintro ⟨-, -, rfl⟩
      exact absurd hidle (Int.not_lt.mpr (Int.natCast_nonneg _))
  · next hserves =>
    obtain ⟨n, rfl⟩ := Int.eq_ofNat_of_zero_le (Int.not_lt.mp hserves)
    have hn : n < p.rows * p.links := Nat.lt_of_lt_of_le (Int.ofNat_lt.mp hlink) p.linkCount_le_mul
    rw [Int.toNat_natCast, Option.some_inj, Prod.mk.injEq, Int.natCast_inj, Parameters.linkNumber]
    constructor
    · rintro ⟨rfl, rfl⟩
      exact ⟨Nat.mod_lt _ (Nat.pos_of_lt_mul_right hn), Nat.div_lt_of_lt_mul hn, (Nat.div_add_mod' _ _).symm⟩
    · rintro ⟨hr, -, rfl⟩
      exact ⟨Grid.place_mod hr slot, Grid.place_div hr slot⟩

/-- What a port serves is a row and a slot of the table. -/
theorem lt_of_link? {place : Nat × Nat} (hplace : place ∈ exitPlaces p)
    (h : m.link? p place.1 place.2 = some (row, slot)) : row < p.rows ∧ slot < p.links := by
  obtain ⟨hp, hi⟩ := mem_exitPlaces.mp hplace
  obtain ⟨hr, hs, -⟩ := (hm.link?_eq_some_iff hp hi).mp h
  exact ⟨hr, hs⟩

/-- A port that serves a link has its number. -/
theorem exists_linkNumber_of_link? (hp : position < p.routers) (hi : index < p.exits) {served : Nat × Nat}
    (h : m.link? p position index = some served) :
    m.entries[position * p.exits + index]? = some (p.linkNumber served.1 served.2 : Int) :=
  ((hm.link?_eq_some_iff hp hi).mp h).2.2

/-- The place of an entry, as a position and an index. -/
theorem exists_place {i : Nat} {link : Int} (h : m.entries[i]? = some link) :
    i / p.exits < p.routers ∧ i % p.exits < p.exits ∧ i / p.exits * p.exits + i % p.exits = i := by
  obtain ⟨hi, -⟩ := Array.getElem?_eq_some_iff.mp h
  rw [hm.size_eq, Nat.mul_comm] at hi
  exact ⟨Nat.div_lt_of_lt_mul hi, Nat.mod_lt _ (Nat.pos_of_lt_mul_right hi), Nat.div_add_mod' _ _⟩

/-- A link is served by the ports in whose places it stands. -/
theorem exists_link?_iff (hr : row < p.rows) (hs : slot < p.links) :
    (∃ position index, position < p.routers ∧ index < p.exits ∧ m.link? p position index = some (row, slot)) ↔
      (p.linkNumber row slot : Int) ∈ m.entries := by
  constructor
  · rintro ⟨position, index, hp, hi, hlink⟩
    exact Array.mem_of_getElem? (hm.exists_linkNumber_of_link? hp hi hlink)
  · intro hmem
    obtain ⟨i, hentry⟩ := Array.mem_iff_getElem?.mp hmem
    obtain ⟨hp, hi, hplace⟩ := hm.exists_place hentry
    exact ⟨i / p.exits, i % p.exits, hp, hi, (hm.link?_eq_some_iff hp hi).mpr ⟨hr, hs, by rw [hplace, hentry]⟩⟩

/-- No two ports serve one link exactly if no link stands in two places. -/
theorem pairwise_apart_iff : (exitPlaces p).Pairwise (Apart p m) ↔ ¬ m.Repeats := by
  constructor
  · rintro hapart ⟨i, j, link, hne, hserves, hentry, hentry'⟩
    obtain ⟨hp, hi, hplace⟩ := hm.exists_place hentry
    obtain ⟨hp', hi', hplace'⟩ := hm.exists_place hentry'
    obtain ⟨hlow, hlt⟩ := hm.link_or_idle link (Array.mem_of_getElem? hentry)
    obtain ⟨n, rfl⟩ := Int.eq_ofNat_of_zero_le (show 0 ≤ link by omega)
    obtain ⟨row, slot, hr, hs, rfl⟩ := exists_linkNumber (Int.ofNat_lt.mp hlt)
    have : Std.Symm (Apart p m) := ⟨fun _ _ h => h.symm⟩
    refine hapart.forall (mem_exitPlaces.mpr ⟨hp, hi⟩) (mem_exitPlaces.mpr ⟨hp', hi'⟩)
      (fun heq => hne ?_) (row, slot) ((hm.link?_eq_some_iff hp hi).mpr ⟨hr, hs, by rw [hplace, hentry]⟩)
      ((hm.link?_eq_some_iff hp' hi').mpr ⟨hr, hs, by rw [hplace', hentry']⟩)
    rw [← hplace, ← hplace', (Prod.mk.inj heq).1, (Prod.mk.inj heq).2]
  · intro honce
    refine (nodup_exitPlaces p).imp_of_mem ?_
    rintro ⟨position, index⟩ ⟨position', index'⟩ hplace hplace' hne served hlink hlink'
    obtain ⟨hp, hi⟩ := mem_exitPlaces.mp hplace
    obtain ⟨hp', hi'⟩ := mem_exitPlaces.mp hplace'
    refine honce ⟨_, _, _, fun heq => hne ?_, ?_, hm.exists_linkNumber_of_link? hp hi hlink,
      hm.exists_linkNumber_of_link? hp' hi' hlink'⟩
    · obtain ⟨rfl, rfl⟩ := Grid.place_inj hi hi' heq
      rfl
    · omega

end Places

end Listed

/-- There is one first link that stands nowhere. -/
theorem FirstAbsent.unique {row' slot' : Nat} (h : FirstAbsent p m row slot) (h' : FirstAbsent p m row' slot') :
    row = row' ∧ slot = slot' := by
  have hnot : ¬(row' < row ∨ row' = row ∧ slot' < slot) := fun hlt => h'.absent (h.before row' slot' h'.slot_lt hlt)
  have hnot' : ¬(row < row' ∨ row = row' ∧ slot < slot') := fun hlt => h.absent (h'.before row slot h.slot_lt hlt)
  omega

end LinkMap

namespace ExitTable

variable {p : Parameters} {m : LinkMap} {row slot : Nat}

/-- Two ports serve one link. -/
def ServedTwice (fault : Fault) : Prop := ∃ row slot first second, fault = .wiring (.servedTwice row slot first second)

namespace Draft

variable {d d' : Draft} {rows slots : Nat} {log : List Entry} {place : Nat × Nat}

/-! ### What is written for the ports -/

/-- The entry that is written for a global port, if it serves a link. -/
def entryOf? (p : Parameters) (m : LinkMap) (place : Nat × Nat) : Option Entry :=
  (m.link? p place.1 place.2).map fun served => ⟨served.1, served.2, .ofPlace place.1 (p.exitPort place.2)⟩

/-- What is written for the global ports of a group. -/
def portEntries (p : Parameters) (m : LinkMap) : List Entry := (exitPlaces p).filterMap (entryOf? p m)

theorem exists_mem_portEntries : (∃ e, ⟨row, slot, e⟩ ∈ portEntries p m) ↔
    ∃ position index, position < p.routers ∧ index < p.exits ∧ m.link? p position index = some (row, slot) := by
  constructor
  · rintro ⟨e, he⟩
    obtain ⟨⟨position, index⟩, hplace, hentry⟩ := List.mem_filterMap.mp he
    obtain ⟨hp, hi⟩ := mem_exitPlaces.mp hplace
    obtain ⟨served, hlink, heq⟩ := Option.map_eq_some_iff.mp hentry
    cases heq
    exact ⟨position, index, hp, hi, hlink⟩
  · rintro ⟨position, index, hp, hi, hlink⟩
    exact ⟨_, List.mem_filterMap.mpr ⟨(position, index), mem_exitPlaces.mpr ⟨hp, hi⟩, by rw [entryOf?, hlink]; rfl⟩⟩

theorem Holds.serve (hd : d.Holds p.rows p.links log)
    (hin : ∀ row slot, m.link? p place.1 place.2 = some (row, slot) → row < p.rows ∧ slot < p.links)
    (h : serve p m d place = .ok d') : d'.Holds p.rows p.links (log ++ (entryOf? p m place).toList) := by
  cases hlink : m.link? p place.1 place.2 with
  | none =>
    rw [serve_of_idle hlink] at h
    cases h
    rwa [entryOf?, hlink, Option.map_none, Option.toList_none, List.append_nil]
  | some served =>
    rw [serve_of_link? hlink] at h
    rw [entryOf?, hlink, Option.map_some, Option.toList_some]
    exact hd.set (fun _ => hd.place_lt (hin _ _ hlink)) h

/-- **A draft holds what was written for the ports**, one after the other. -/
theorem Holds.foldlM_serve (places : List (Nat × Nat)) (hd : d.Holds p.rows p.links log)
    (hin : ∀ place ∈ places, ∀ row slot, m.link? p place.1 place.2 = some (row, slot) → row < p.rows ∧ slot < p.links)
    (h : places.foldlM (Draft.serve p m) d = .ok d') :
    d'.Holds p.rows p.links (log ++ places.filterMap (entryOf? p m)) := by
  induction places generalizing d log with
  | nil =>
    cases h
    rwa [List.filterMap_nil, List.append_nil]
  | cons place rest ih =>
    rw [List.foldlM_cons] at h
    obtain ⟨hplace, hin⟩ := List.forall_mem_cons.mp hin
    obtain ⟨next, hnext, h⟩ := ok_of_bind_ok h
    have hrest := ih (hd.serve hplace hnext) hin h
    rw [List.append_assoc] at hrest
    rw [List.filterMap_cons]
    cases hentry : entryOf? p m place with
    | none => simpa only [hentry, Option.toList_none, List.nil_append] using hrest
    | some x => simpa only [hentry, Option.toList_some, List.singleton_append] using hrest

theorem holds_ofLinkMap (hm : m.Listed p) (h : ofLinkMap p m = .ok d) :
    d.Holds p.rows p.links (portEntries p m) := by
  rw [ofLinkMap] at h
  obtain ⟨start, hstart, h⟩ := ok_of_bind_ok h
  exact (Holds.of_make hstart).foldlM_serve (exitPlaces p) (fun _ hplace _ _ => hm.lt_of_link? hplace) h

/-! ### What is refused -/

/-- A port that serves a link of the table is refused only if the link is served already. -/
theorem Holds.failsBy_serve (hd : d.Holds p.rows p.links log)
    (hin : ∀ row slot, m.link? p place.1 place.2 = some (row, slot) → row < p.rows ∧ slot < p.links) :
    FailsBy (Draft.serve p m d place) ServedTwice := by
  cases hlink : m.link? p place.1 place.2 with
  | none =>
    rw [serve_of_idle hlink]
    exact .ok d
  | some served =>
    obtain ⟨row, slot⟩ := served
    obtain ⟨hr, hs⟩ := hin row slot hlink
    rw [serve_of_link? hlink]
    by_cases hmissing : ∀ first, ⟨row, slot, first⟩ ∉ log
    · obtain ⟨d', hd'⟩ := (hd.set_eq_ok_iff (fun _ => hd.place_lt ⟨hr, hs⟩) _).mpr ⟨hr, hs, hmissing⟩
      rw [hd']
      exact .ok d'
    · obtain ⟨first, hfirst⟩ := not_forall.mp hmissing
      rw [hd.set_of_mem (Decidable.not_not.mp hfirst)]
      exact .error ⟨row, slot, first, _, rfl⟩

theorem failsBy_ofLinkMap (hroom : Storage.holds (p.rows * p.links) 6) (hm : m.Listed p) :
    FailsBy (ofLinkMap p m) ServedTwice := by
  have hmake : make p.rows p.links = .ok (empty p.rows p.links) := if_pos hroom
  have hfold : FailsBy ((exitPlaces p).foldlM (serve p m) (empty p.rows p.links)) ServedTwice := by
    refine FailsBy.foldlM_of_keeps (I := fun d => ∃ log, d.Holds p.rows p.links log) (exitPlaces p) ?_ ?_
      ⟨[], .of_make hmake⟩
    · rintro d place hplace d' ⟨log, hd⟩ hserve
      exact ⟨_, hd.serve (fun row slot hlink => hm.lt_of_link? hplace hlink) hserve⟩
    · rintro d place hplace ⟨log, hd⟩
      exact hd.failsBy_serve fun row slot hlink => hm.lt_of_link? hplace hlink
  rw [ofLinkMap, hmake]
  exact hfold

end Draft

/-! ### The view of a map -/

namespace View

/-- What becomes of a map, if it repeats a link, misses one, or neither. -/
inductive Outcome (p : Parameters) (m : LinkMap) : Except Fault View → Prop
  | repeated {fault : Fault} : m.Repeats → ServedTwice fault → Outcome p m (.error fault)
  | absent {row slot : Nat} : ¬ m.Repeats → m.FirstAbsent p row slot → Outcome p m (.error (.incomplete row slot))
  | filled {v : View} : ¬ m.Repeats → (∀ link < p.linkCount, (link : Int) ∈ m.entries) → v.rows = p.rows →
    v.slots = p.links → (∀ row slot, row < v.rows → slot < v.slots → ∃ e, v.lookup row slot = .ok e) →
    Outcome p m (.ok v)

/-- **Each link once, or the reason why not.** -/
theorem outcome_ofLinkMap (hroom : Storage.holds (p.rows * p.links) 6) (hlinks : 0 < p.links) (hm : m.Listed p) :
    Outcome p m (ofLinkMap p m) := by
  rw [ofLinkMap]
  cases hdraft : Draft.ofLinkMap p m with
  | error fault =>
    refine .repeated ?_ (Draft.failsBy_ofLinkMap hroom hm fault hdraft)
    -- without a repeated link every port would be written
    by_contra honce
    obtain ⟨d, hd⟩ := Draft.exists_ofLinkMap_of_apart hroom (fun _ hplace _ _ hlink => hm.lt_of_link? hplace hlink)
      (hm.pairwise_apart_iff.mpr honce)
    rw [hdraft] at hd
    cases hd
  | ok d =>
    have honce : ¬ m.Repeats := hm.pairwise_apart_iff.mp (Draft.pairwise_apart hdraft)
    have hd := Draft.holds_ofLinkMap hm hdraft
    -- a row and a slot were written if their link stands in the map
    have hmem : ∀ row slot, row < p.rows → slot < p.links →
        ((∃ e, ⟨row, slot, e⟩ ∈ Draft.portEntries p m) ↔ (p.linkNumber row slot : Int) ∈ m.entries) :=
      fun row slot hr hs => Draft.exists_mem_portEntries.trans (hm.exists_link?_iff hr hs)
    dsimp only [Bind.bind, Except.bind]
    rcases hd.finish_cases hlinks with ⟨s, hs, hall⟩ | ⟨row, slot, hfinish, hmissing⟩
    · have hcells := (Draft.get?_of_finish hs).1
      have hbind : unbound.bind s p.rows p.links = .ok ⟨some s, p.rows, p.links⟩ := by
        rw [bind_unbound (by rw [hcells, hd.rows_eq hlinks]) (by rw [hcells, hd.columns_eq]), if_pos ⟨rfl, rfl⟩]
      rw [hs]
      dsimp only
      rw [hbind]
      refine .filled honce (fun link hlink => ?_) rfl rfl (reads_of_finish hd hs).lookup_of_inside
      obtain ⟨row, slot, hr, hs, rfl⟩ := LinkMap.exists_linkNumber hlink
      exact (hmem row slot hr hs).mp (hall row slot hr hs)
    · rw [hfinish]
      refine .absent honce ⟨hmissing.row_lt, hmissing.slot_lt, fun hserved => ?_, fun row' slot' hs' hlt => ?_⟩
      · obtain ⟨e, he⟩ := (hmem row slot hmissing.row_lt hmissing.slot_lt).mpr hserved
        exact hmissing.missing e he
      · have hr' : row' < p.rows := by have := hmissing.row_lt; omega
        exact (hmem row' slot' hr' hs').mp (hmissing.before row' slot' hs' hlt)

namespace Outcome

variable {built : Except Fault View}

theorem wiring_iff (h : Outcome p m built) : (∃ why, built = .error (.wiring why)) ↔ m.Repeats := by
  cases h with
  | repeated hrepeats hfault =>
    obtain ⟨row, slot, first, second, rfl⟩ := hfault
    exact ⟨fun _ => hrepeats, fun _ => ⟨_, rfl⟩⟩
  | absent honce =>
    refine ⟨?_, fun hrepeats => absurd hrepeats honce⟩
    rintro ⟨_, ⟨⟩⟩
  | filled honce =>
    refine ⟨?_, fun hrepeats => absurd hrepeats honce⟩
    rintro ⟨_, ⟨⟩⟩

section Numbered

variable (hlinks : p.rows * p.links < 2 ^ 64)

include hlinks

theorem incomplete_iff (h : Outcome p m built) (row slot : Nat) :
    built = .error (.incomplete row slot) ↔ ¬ m.Repeats ∧ m.FirstAbsent p row slot := by
  cases h with
  | repeated hrepeats hfault =>
    obtain ⟨row', slot', first, second, rfl⟩ := hfault
    exact ⟨fun heq => (by cases heq), fun hnot => absurd hrepeats hnot.1⟩
  | absent honce habsent =>
    constructor
    · rintro ⟨⟩
      exact ⟨honce, habsent⟩
    · rintro ⟨-, habsent'⟩
      obtain ⟨rfl, rfl⟩ := habsent.unique habsent'
      rfl
  | filled honce hserved =>
    refine ⟨fun heq => (by cases heq), fun hnot => absurd (hserved _ ?_) hnot.2.absent⟩
    exact LinkMap.linkNumber_lt hlinks hnot.2.row_lt hnot.2.slot_lt

theorem exists_incomplete_iff (h : Outcome p m built) : (∃ row slot, built = .error (.incomplete row slot)) ↔
    ¬ m.Repeats ∧ ∃ link < p.linkCount, (link : Int) ∉ m.entries := by
  constructor
  · rintro ⟨row, slot, heq⟩
    obtain ⟨honce, habsent⟩ := (h.incomplete_iff hlinks row slot).mp heq
    exact ⟨honce, _, LinkMap.linkNumber_lt hlinks habsent.row_lt habsent.slot_lt, habsent.absent⟩
  · rintro ⟨honce, link, hlt, hmissing⟩
    cases h with
    | repeated hrepeats => exact absurd hrepeats honce
    | absent _ habsent => exact ⟨_, _, rfl⟩
    | filled _ hserved => exact absurd (hserved link hlt) hmissing

theorem ok_iff (h : Outcome p m built) :
    (∃ v, built = .ok v) ↔ ¬ m.Repeats ∧ ∀ link < p.linkCount, (link : Int) ∈ m.entries := by
  constructor
  · rintro ⟨v, rfl⟩
    cases h with
    | filled honce hserved => exact ⟨honce, hserved⟩
  · rintro ⟨honce, hserved⟩
    cases h with
    | repeated hrepeats => exact absurd hrepeats honce
    | absent _ habsent =>
      exact absurd (hserved _ (LinkMap.linkNumber_lt hlinks habsent.row_lt habsent.slot_lt)) habsent.absent
    | filled => exact ⟨_, rfl⟩

end Numbered

theorem of_error (h : Outcome p m built) {fault : Fault} (he : built = .error fault) :
    ServedTwice fault ∨ ∃ row slot, fault = .incomplete row slot := by
  subst he
  cases h with
  | repeated _ hfault => exact .inl hfault
  | absent => exact .inr ⟨_, _, rfl⟩

theorem of_ok (h : Outcome p m built) {v : View} (hv : built = .ok v) : v.rows = p.rows ∧ v.slots = p.links ∧
    ∀ row slot, row < v.rows → slot < v.slots → ∃ e, v.lookup row slot = .ok e := by
  subst hv
  cases h with
  | filled _ _ hrows hslots hlookup => exact ⟨hrows, hslots, hlookup⟩

end Outcome

end View

/-! ### Lists that can be kept -/

/-- A list of entries has room if it can be kept, and the table then has room too. -/
theorem room_of_held (hc : p.Checked) (hlinks : p.rows * p.links < 2 ^ 64) {entries : Array Int}
    (hheld : Storage.holds entries.size 8 = true) (hsize : entries.size = p.routers * p.exits) :
    p.linkCount < 0x8000000000000000 ∧ Storage.holds (p.rows * p.links) 6 = true := by
  have hle := hc.linkCount_le
  rw [Storage.holds, decide_eq_true_eq, Storage.limit, hsize] at hheld
  rw [Storage.holds, decide_eq_true_eq, Storage.limit]
  rw [Parameters.linkCount_eq hlinks] at hle ⊢
  omega

/-- A list that can be kept is a map if it has a link or `-1` for each global port. -/
theorem result_ofEntries_iff (hc : p.Checked) (hlinks : p.rows * p.links < 2 ^ 64) {entries : Array Int}
    (hheld : Storage.holds entries.size 8 = true) :
    (LinkMap.ofEntries p entries).result = .ok m ↔ m.Listed p ∧ m = ⟨entries⟩ := by
  rw [(LinkMap.decides_ofEntries p entries).result_eq_ok_iff]
  constructor
  · rintro ⟨⟨hsize, hbounds⟩, rfl⟩
    rw [LinkMap.bound_eq (room_of_held hc hlinks hheld hsize).1] at hbounds
    exact ⟨⟨hsize, hbounds⟩, rfl⟩
  · rintro ⟨⟨hsize, hbounds⟩, rfl⟩
    refine ⟨⟨hsize, ?_⟩, rfl⟩
    rw [LinkMap.bound_eq (room_of_held hc hlinks hheld hsize).1]
    exact hbounds

end ExitTable

end DragonflyFabric
