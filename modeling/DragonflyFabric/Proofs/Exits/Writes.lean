import DragonflyFabric.Proofs.Exits.Filled

/-!
# Entries are written once

A draft is filled by attempts to write entries, and some of them are refused. Whatever the attempts, it holds
exactly the entries that were written: `Holds.attempts`. What becomes of the next attempt, and whether the draft
can be finished, depends on those entries alone.

* `Holds.set_eq_ok_iff`: an entry is written where it is one of the table and was not written before.
* `Holds.finish_cases`: a draft is finished, or the first entry that was not written is named.

Rows are not looked at when an entry is written, only places are. Attempts are therefore taken to be at places that
are words, `Entry.InWords`; from a row so far off that its place wraps, another entry would be written.
-/

namespace DragonflyFabric.ExitTable

/-- An exit, and the row and slot it is written for. -/
structure Entry where
  row : Nat
  slot : Nat
  exit : Exit
  deriving DecidableEq

/-- The place of an entry is a word, if the table has its slot at all. -/
def Entry.InWords (slots : Nat) (x : Entry) : Prop := x.slot < slots → x.row * slots + x.slot < 2 ^ 64

/-- The first entry, row by row, that was not written. -/
structure FirstMissing (log : List Entry) (rows slots row slot : Nat) : Prop where
  row_lt : row < rows
  slot_lt : slot < slots
  missing : ∀ e, ⟨row, slot, e⟩ ∉ log
  before : ∀ row' slot', slot' < slots → row' < row ∨ row' = row ∧ slot' < slot →
    ∃ e, ⟨row', slot', e⟩ ∈ log

namespace Draft

variable {d d' : Draft} {rows slots row slot : Nat} {log : List Entry}

/-- The draft after an attempt to write an entry. A refused one leaves it as it is. -/
def attempt (d : Draft) (x : Entry) : Draft :=
  match d.set x.row x.slot x.exit with
  | .ok d' => d'
  | .error _ => d

/-- The draft after some attempts. -/
def attempts (d : Draft) (xs : List Entry) : Draft := xs.foldl attempt d

/-- The entries that some attempts write, in order: those of the attempts that are not refused. -/
def written : Draft → List Entry → List Entry
  | _, [] => []
  | d, x :: xs =>
    match d.set x.row x.slot x.exit with
    | .ok d' => x :: d'.written xs
    | .error _ => d.written xs

/-- A refused attempt changes nothing. -/
theorem attempts_append_of_error {x : Entry} {f : Fault} (xs : List Entry)
    (h : (d.attempts xs).set x.row x.slot x.exit = .error f) : d.attempts (xs ++ [x]) = d.attempts xs := by
  rw [attempts, List.foldl_append]
  show attempt (d.attempts xs) x = _
  rw [attempt, h]

/-- A draft with so many rows and slots, in which these entries were written and no others. -/
structure Holds (d : Draft) (rows slots : Nat) (log : List Entry) : Prop where
  places_le : rows * slots ≤ 2 ^ 64
  columns_eq : d.cells.columns = slots
  size_eq : d.cells.cells.size = rows * slots
  inside : ∀ x ∈ log, x.row < rows ∧ x.slot < slots
  mem_iff : ∀ row slot e, row < rows → (d.cells.get? row slot = some (some e) ↔ ⟨row, slot, e⟩ ∈ log)

namespace Holds

theorem of_make (h : make rows slots = .ok d) : d.Holds rows slots [] := by
  rw [make] at h
  split at h
  · next hroom =>
    cases h
    refine ⟨Storage.count_le (by decide) hroom, rfl, Array.size_replicate, fun x hx => (by cases hx),
      fun row slot e _ => ⟨fun hget => ?_, fun hmem => ?_⟩⟩
    · cases Grid.eq_of_get?_constant hget
    · cases hmem
  · cases h

section Cells

variable (hd : d.Holds rows slots log)

include hd

theorem rows_eq (hslots : 0 < slots) : d.cells.rows = rows := by
  rw [Grid.rows, hd.columns_eq, if_neg (Nat.ne_of_gt hslots), hd.size_eq, Nat.mul_div_cancel _ hslots]

/-- The entries of the table have places that are words. -/
theorem place_lt (hin : row < rows ∧ slot < slots) : row * slots + slot < 2 ^ 64 :=
  Nat.lt_of_lt_of_le (Grid.place_lt hin.1 hin.2) hd.places_le

/-- There is a cell for each row and slot, and no other one. -/
theorem get?_eq_none_iff (hword : slot < slots → row * slots + slot < 2 ^ 64) :
    d.cells.get? row slot = none ↔ ¬(row < rows ∧ slot < slots) := by
  rw [Grid.get?, hd.columns_eq, Grid.cell?]
  by_cases hslot : slot < slots
  · have hplace : d.cells.place row slot = row * slots + slot := by
      rw [Grid.place, hd.columns_eq, Word.wrap_of_lt (hword hslot)]
    rw [if_pos hslot, Array.getElem?_eq_none_iff, hd.size_eq, hplace]
    constructor
    · exact fun hle hin => absurd (Grid.place_lt hin.1 hslot) (Nat.not_lt.mpr hle)
    · intro hout
      have hrow : rows ≤ row := Nat.not_lt.mp fun hrow => hout ⟨hrow, hslot⟩
      exact Nat.le_trans (Nat.mul_le_mul_right slots hrow) (Nat.le_add_right _ _)
  · rw [if_neg hslot]
    exact ⟨fun _ hin => hslot hin.2, fun _ => rfl⟩

theorem get?_of_missing (hin : row < rows ∧ slot < slots) (h : ∀ e, ⟨row, slot, e⟩ ∉ log) :
    d.cells.get? row slot = some none := by
  cases hget : d.cells.get? row slot with
  | none => exact absurd hin ((hd.get?_eq_none_iff fun _ => hd.place_lt hin).mp hget)
  | some cell =>
    cases cell with
    | none => rfl
    | some e => exact absurd ((hd.mem_iff row slot e hin.1).mp hget) (h e)

/-- What is written is an entry of the table. -/
theorem inside_of_set {e : Exit} (hword : slot < slots → row * slots + slot < 2 ^ 64)
    (h : d.set row slot e = .ok d') : row < rows ∧ slot < slots := by
  have hcell := get?_of_set h
  by_contra hout
  rw [(hd.get?_eq_none_iff hword).mpr hout] at hcell
  cases hcell

theorem set {e : Exit} (hword : slot < slots → row * slots + slot < 2 ^ 64) (h : d.set row slot e = .ok d') :
    d'.Holds rows slots (log ++ [⟨row, slot, e⟩]) := by
  have hset := set_eq_ok h
  obtain ⟨-, -, hcells⟩ := Grid.set?_eq_some hset
  have hin := hd.inside_of_set hword h
  refine ⟨hd.places_le, by rw [hcells]; exact hd.columns_eq, by rw [hcells]; simpa using hd.size_eq, ?_, ?_⟩
  · intro x hx
    rcases List.mem_append.mp hx with hlog | hnew
    · exact hd.inside x hlog
    · rw [List.mem_singleton.mp hnew]
      exact hin
  intro row' slot' e' hr'
  rw [Grid.get?_set? hset (by rw [hd.columns_eq]; exact hd.places_le) hin.1 hr', List.mem_append, List.mem_singleton,
    Entry.mk.injEq]
  by_cases hhere : row' = row ∧ slot' = slot
  · -- Nothing was written here before.
    have hmissing : (⟨row', slot', e'⟩ : Entry) ∉ log := by
      rw [← hd.mem_iff row' slot' e' hr', hhere.1, hhere.2, get?_of_set h]
      intro heq
      cases heq
    rw [if_pos hhere, or_iff_right hmissing, Option.some_inj, Option.some_inj, eq_comm]
    exact ⟨fun heq => ⟨hhere.1, hhere.2, heq⟩, fun heq => heq.2.2⟩
  · rw [if_neg hhere, hd.mem_iff row' slot' e' hr']
    constructor
    · exact Or.inl
    · rintro (hmem | ⟨hrow, hslot, -⟩)
      · exact hmem
      · exact absurd ⟨hrow, hslot⟩ hhere

end Cells

/-- **A draft holds what was written**, whatever attempts were made. -/
theorem attempts (hd : d.Holds rows slots log) (xs : List Entry) (hwords : ∀ x ∈ xs, x.InWords slots) :
    (d.attempts xs).Holds rows slots (log ++ d.written xs) := by
  induction xs generalizing d log with
  | nil =>
    rw [written, List.append_nil]
    exact hd
  | cons x xs ih =>
    obtain ⟨hword, hwords⟩ := List.forall_mem_cons.mp hwords
    rw [Draft.attempts, List.foldl_cons, attempt, written]
    cases h : d.set x.row x.slot x.exit with
    | error f => exact ih hd hwords
    | ok d' =>
      have hnext := ih (hd.set hword h) hwords
      rwa [List.append_assoc, List.singleton_append] at hnext

variable (hd : d.Holds rows slots log)

include hd

/-! ### The next attempt -/

theorem set_of_outside (hslots : 0 < slots) (hword : slot < slots → row * slots + slot < 2 ^ 64)
    (hout : ¬(row < rows ∧ slot < slots)) (e : Exit) :
    d.set row slot e = .error (.noTableEntry row slot rows slots) := by
  rw [Draft.set, (hd.get?_eq_none_iff hword).mpr hout, hd.rows_eq hslots, hd.columns_eq]

theorem set_of_mem {first : Exit} (h : ⟨row, slot, first⟩ ∈ log) (e : Exit) :
    d.set row slot e = .error (.wiring (.servedTwice row slot first e)) := by
  rw [Draft.set, (hd.mem_iff row slot first (hd.inside _ h).1).mpr h]

/-- **An entry can be written once**, and only if it is one of the table. -/
theorem set_eq_ok_iff (hword : slot < slots → row * slots + slot < 2 ^ 64) (e : Exit) :
    (∃ d', d.set row slot e = .ok d') ↔ row < rows ∧ slot < slots ∧ ∀ first, ⟨row, slot, first⟩ ∉ log := by
  constructor
  · rintro ⟨d', h⟩
    obtain ⟨hrow, hslot⟩ := hd.inside_of_set hword h
    refine ⟨hrow, hslot, fun first hfirst => ?_⟩
    rw [hd.set_of_mem hfirst] at h
    cases h
  · rintro ⟨hrow, hslot, hmissing⟩
    exact exists_set (hd.get?_of_missing ⟨hrow, hslot⟩ hmissing) e

/-! ### The end of the writing -/

/-- The cell at a place, as the cell of its row and slot. -/
theorem get?_of_place (hslots : 0 < slots) {i : Nat} (hi : i < d.cells.cells.size) :
    d.cells.get? (i / slots) (i % slots) = some d.cells.cells[i] := by
  have hword : i < 2 ^ 64 := Nat.lt_of_lt_of_le hi (hd.size_eq ▸ hd.places_le)
  have hplace : d.cells.place (i / slots) (i % slots) = i := by
    rw [← hd.columns_eq]
    exact Grid.place_div_mod hword
  rw [Grid.get?, hd.columns_eq, if_pos (Nat.mod_lt i hslots), Grid.cell?, hplace, Array.getElem?_eq_getElem hi]

theorem firstMissing_of_some (hslots : 0 < slots) (h : d.firstMissing? = some (row, slot)) :
    FirstMissing log rows slots row slot := by
  rw [firstMissing?, hd.columns_eq, Option.map_eq_some_iff] at h
  obtain ⟨i, hi, hplace⟩ := h
  cases hplace
  obtain ⟨hlt, hnone, hbefore⟩ := Array.findIdx?_eq_some_iff_getElem.mp hi
  have hcell := hd.get?_of_place hslots hlt
  rw [Option.isNone_iff_eq_none.mp hnone] at hcell
  have hrow : i / slots < rows := by
    refine Nat.div_lt_of_lt_mul ?_
    rw [Nat.mul_comm, ← hd.size_eq]
    exact hlt
  refine ⟨hrow, Nat.mod_lt i hslots, fun e hmem => ?_, fun row' slot' hslot' hlt' => ?_⟩
  · rw [(hd.mem_iff _ _ e hrow).mpr hmem] at hcell
    cases hcell
  · -- The place of the entry comes before that of the one found.
    have hplace : row' * slots + slot' < i := by
      rw [← Nat.div_add_mod' i slots]
      rcases hlt' with hrow' | ⟨rfl, hslot''⟩
      · exact Nat.lt_of_lt_of_le (Grid.place_lt hrow' hslot') (Nat.le_add_right _ _)
      · exact Nat.add_lt_add_left hslot'' _
    have hfull := hbefore (row' * slots + slot') hplace
    rw [Option.isNone_iff_eq_none] at hfull
    obtain ⟨e, he⟩ := Option.ne_none_iff_exists'.mp hfull
    have hsame := hd.get?_of_place hslots (Nat.lt_trans hplace hlt)
    rw [Grid.place_div hslot', Grid.place_mod hslot', he] at hsame
    exact ⟨e, (hd.mem_iff row' slot' e (by omega)).mp hsame⟩

/-- **A draft in which every entry was written is finished**; in any other one the first missing entry is
named. -/
theorem finish_cases (hslots : 0 < slots) :
    (∃ s, d.finish = .ok s ∧ ∀ row slot, row < rows → slot < slots → ∃ e, ⟨row, slot, e⟩ ∈ log) ∨
    ∃ row slot, d.finish = .error (.incomplete row slot) ∧ FirstMissing log rows slots row slot := by
  cases h : d.firstMissing? with
  | some place =>
    obtain ⟨row, slot⟩ := place
    exact .inr ⟨row, slot, by rw [finish, h], hd.firstMissing_of_some hslots h⟩
  | none =>
    refine .inl ⟨⟨d.cells⟩, by rw [finish, h], fun row slot hrow hslot => ?_⟩
    by_contra hmissing
    have hcell := hd.get?_of_missing ⟨hrow, hslot⟩ (not_exists.mp hmissing)
    rw [Grid.get?, hd.columns_eq, if_pos hslot, Grid.cell?] at hcell
    rw [firstMissing?, Option.map_eq_none_iff, Array.findIdx?_eq_none_iff] at h
    have hfull := h _ (Array.mem_of_getElem? hcell)
    cases hfull

end Holds

end Draft

end DragonflyFabric.ExitTable
