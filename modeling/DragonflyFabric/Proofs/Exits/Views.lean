import DragonflyFabric.Proofs.Exits.Writes

/-!
# Views are bound once

A finished table is read through views, of which there may be any number: new ones and copies of others. Each
is bound to the table once, when it is first asked to be bound to one of its size, and a copy is bound if what
it was copied from is. `Store.views_eq` says so of all views after any calls on them.

`write_once` joins this with the writing of the table: from a view that is bound one reads what was written, and
nothing else.
-/

namespace DragonflyFabric.ExitTable

/-! ### What a view tells -/

namespace View

variable {s : Store} {rows slots : Nat} {log : List Entry} {v : View}

/-- A view that is still to be bound to a table of a size. -/
structure Waits (s : Store) (rows slots : Nat) (v : View) : Prop where
  lookup_eq : ∀ row slot, v.lookup row slot = .error .tableUnbound
  bind_eq_ok : ∃ v', v.bind s rows slots = .ok v'
  bind_eq_error : ∀ r c, ¬(r = rows ∧ c = slots) →
    v.bind s r c = .error (.parameters (.tableSize rows slots r c))

/-- A view from which one reads what was written in a table of a size. -/
structure Reads (log : List Entry) (rows slots : Nat) (v : View) : Prop where
  lookup_eq_ok_iff : ∀ row slot e, v.lookup row slot = .ok e ↔ ⟨row, slot, e⟩ ∈ log
  lookup_of_inside : ∀ row slot, row < rows → slot < slots → ∃ e, v.lookup row slot = .ok e
  lookup_of_outside : ∀ row slot, ¬(row < rows ∧ slot < slots) →
    v.lookup row slot = .error (.noTableEntry row slot rows slots)
  bind_eq_error : ∀ s r c, v.bind s r c = .error .tableBound

theorem bind_unbound (hr : s.cells.rows = rows) (hc : s.cells.columns = slots) (r c : Nat) :
    unbound.bind s r c =
      if r = rows ∧ c = slots then .ok ⟨some s, rows, slots⟩
      else .error (.parameters (.tableSize rows slots r c)) := by
  rw [bind, if_neg (by simp [unbound]), hr, hc]
  by_cases hsize : r = rows ∧ c = slots
  · rw [if_pos hsize, if_neg (by omega), hsize.1, hsize.2]
  · rw [if_neg hsize, if_pos (by omega)]

theorem waits_unbound (hr : s.cells.rows = rows) (hc : s.cells.columns = slots) : unbound.Waits s rows slots where
  lookup_eq _ _ := rfl
  bind_eq_ok := ⟨_, by rw [bind_unbound hr hc, if_pos ⟨rfl, rfl⟩]⟩
  bind_eq_error r c h := by rw [bind_unbound hr hc, if_neg h]

/-- From a view of a finished draft one reads what the draft holds. -/
theorem reads_of_finish {d : Draft} (hd : d.Holds rows slots log) (h : d.finish = .ok s) :
    Reads log rows slots ⟨some s, rows, slots⟩ := by
  obtain ⟨hcells, hfull⟩ := Draft.get?_of_finish h
  have hinside : ∀ row slot e, row < rows → slot < slots → d.cells.get? row slot = some (some e) →
      lookup ⟨some s, rows, slots⟩ row slot = .ok e := by
    intro row slot e hrow hslot hget
    rw [lookup]
    dsimp only
    rw [if_neg (by omega : ¬(rows ≤ row ∨ slots ≤ slot)), hcells,
      Grid.cell?_eq_get? (by rw [hd.columns_eq]; exact hslot), hget]
  have houtside : ∀ row slot, ¬(row < rows ∧ slot < slots) →
      lookup ⟨some s, rows, slots⟩ row slot = .error (.noTableEntry row slot rows slots) :=
    fun row slot hout => if_pos (by dsimp only; omega)
  have hwritten : ∀ row slot, row < rows → slot < slots → ∃ e, d.cells.get? row slot = some (some e) := by
    intro row slot hrow hslot
    cases hget : d.cells.get? row slot with
    | none => exact absurd ⟨hrow, hslot⟩ ((hd.get?_eq_none_iff fun _ => hd.place_lt ⟨hrow, hslot⟩).mp hget)
    | some cell =>
      rw [← Grid.cell?_eq_get? (by rw [hd.columns_eq]; exact hslot)] at hget
      obtain ⟨e, rfl⟩ := Option.ne_none_iff_exists'.mp (hfull cell (Array.mem_of_getElem? hget))
      exact ⟨e, rfl⟩
  refine ⟨fun row slot e => ⟨fun hlookup => ?_, fun hmem => ?_⟩, fun row slot hrow hslot => ?_, houtside,
    fun _ _ _ => rfl⟩
  · obtain ⟨hrow, hslot⟩ := lt_of_lookup hlookup
    obtain ⟨e', he'⟩ := hwritten row slot hrow hslot
    rw [hinside row slot e' hrow hslot he'] at hlookup
    cases hlookup
    exact (hd.mem_iff row slot e hrow).mp he'
  · obtain ⟨hrow, hslot⟩ := hd.inside _ hmem
    exact hinside row slot e hrow hslot ((hd.mem_iff row slot e hrow).mpr hmem)
  · obtain ⟨e, he⟩ := hwritten row slot hrow hslot
    exact ⟨e, hinside row slot e hrow hslot he⟩

end View

/-! ### Calls on many views -/

/-- What is done with the views of a table. A view is called by its number, in the order in which they were
made. -/
inductive Call
  | fresh
  | clone (view : Nat)
  | bind (view rows slots : Nat)
  | lookup (view row slot : Nat)

/-- The views after a call. A refused one leaves them as they are, and so does a lookup. -/
def Store.call (s : Store) (views : List View) : Call → List View
  | .fresh => views ++ [.unbound]
  | .clone i => views ++ views[i]?.toList
  | .bind i rows slots =>
    match views[i]? with
    | none => views
    | some v =>
      match v.bind s rows slots with
      | .ok v' => views.set i v'
      | .error _ => views
  | .lookup .. => views

/-- The views after some calls. At first there are none. -/
def Store.views (s : Store) (calls : List Call) : List View := calls.foldl s.call []

/-- Which views are bound to a table of a size after a call: those that were bound before, one that was asked to
be bound to a table of that size, and the copy of one that was bound. -/
def Call.binds (rows slots : Nat) (bound : List Bool) : Call → List Bool
  | .fresh => bound ++ [false]
  | .clone i => bound ++ bound[i]?.toList
  | .bind i r c => if r = rows ∧ c = slots then bound.set i true else bound
  | .lookup .. => bound

/-- Which views are bound to a table of a size after some calls. -/
def bound (rows slots : Nat) (calls : List Call) : List Bool := calls.foldl (Call.binds rows slots) []

/-- A view that is bound to a table of a size, or that is not. -/
def Store.viewOf (s : Store) (rows slots : Nat) : Bool → View
  | true => ⟨some s, rows, slots⟩
  | false => .unbound

namespace Store

variable {s : Store} {rows slots : Nat}

/-- A call leaves the views as they are to be. -/
theorem call_map (hr : s.cells.rows = rows) (hc : s.cells.columns = slots) (bound : List Bool) (c : Call) :
    s.call (bound.map (s.viewOf rows slots)) c = (c.binds rows slots bound).map (s.viewOf rows slots) := by
  cases c with
  | fresh => rw [call, Call.binds, List.map_append]; rfl
  | clone i =>
    rw [call, Call.binds, List.map_append, List.getElem?_map]
    cases bound[i]? <;> rfl
  | lookup => rfl
  | bind i r c =>
    rw [call, Call.binds, List.getElem?_map]
    cases hi : bound[i]? with
    | none =>
      rw [List.set_eq_of_length_le (List.getElem?_eq_none_iff.mp hi), ite_self]
      rfl
    | some b =>
      dsimp only [Option.map_some]
      cases b with
      | true =>
        -- It is bound already, so that nothing is done, and marking it again makes no difference.
        have hsame : bound.set i true = bound := by
          obtain ⟨hlt, hget⟩ := List.getElem?_eq_some_iff.mp hi
          rw [← hget, List.set_getElem_self]
        rw [hsame, ite_self]
        rfl
      | false =>
        rw [viewOf, View.bind_unbound hr hc]
        by_cases hsize : r = rows ∧ c = slots
        · rw [if_pos hsize, if_pos hsize, List.map_set]
          rfl
        · rw [if_neg hsize, if_neg hsize]

/-- **Each view is bound once**, to the table and with its size, whatever calls were made. -/
theorem views_eq (hr : s.cells.rows = rows) (hc : s.cells.columns = slots) (calls : List Call) :
    s.views calls = (bound rows slots calls).map (s.viewOf rows slots) := by
  have hrun : ∀ marks : List Bool, calls.foldl s.call (marks.map (s.viewOf rows slots)) =
      (calls.foldl (Call.binds rows slots) marks).map (s.viewOf rows slots) := by
    induction calls with
    | nil => exact fun _ => rfl
    | cons c calls ih =>
      intro marks
      rw [List.foldl_cons, List.foldl_cons, call_map hr hc, ih]
  exact hrun []

/-- A refused call changes nothing. -/
theorem views_append_of_error {calls : List Call} {i r c : Nat} {v : View} {f : Fault}
    (hv : (s.views calls)[i]? = some v) (h : v.bind s r c = .error f) :
    s.views (calls ++ [.bind i r c]) = s.views calls := by
  rw [views, List.foldl_append]
  show s.call (s.views calls) (.bind i r c) = _
  rw [call, hv]
  dsimp only
  rw [h]

end Store

theorem Call.binds_of_bound {rows slots i : Nat} {marks : List Bool} (h : marks[i]? = some true) (c : Call) :
    (c.binds rows slots marks)[i]? = some true := by
  obtain ⟨hlt, -⟩ := List.getElem?_eq_some_iff.mp h
  cases c with
  | fresh => rw [binds, List.getElem?_append_left hlt, h]
  | clone j => rw [binds, List.getElem?_append_left hlt, h]
  | lookup => exact h
  | bind j r c =>
    rw [binds]
    split
    · rw [List.getElem?_set]
      split
      · next hj => rw [if_pos (hj ▸ hlt)]
      · exact h
    · exact h

/-- Once bound, a view stays bound. -/
theorem bound_append {rows slots i : Nat} {calls : List Call} (h : (bound rows slots calls)[i]? = some true)
    (more : List Call) : (bound rows slots (calls ++ more))[i]? = some true := by
  rw [bound, List.foldl_append]
  show (more.foldl (Call.binds rows slots) (bound rows slots calls))[i]? = some true
  generalize bound rows slots calls = marks at h
  induction more generalizing marks with
  | nil => exact h
  | cons c more ih => exact ih _ (c.binds_of_bound h)

/-! ### Written once, bound once -/

/-- **An exit table is written once and then read.** Where there is room for a table, whatever attempts were made to
write its entries, the next one succeeds if it is for an entry of the table that was not written; the table is
finished when every entry was. Its views, whatever is done with them, tell nothing before they are bound to it and
what was written from then on. Attempts are made at places that are words. -/
theorem write_once {rows slots : Nat} (hslots : 0 < slots) (hroom : Storage.holds (rows * slots) 6 = true)
    {xs : List Entry} (hwords : ∀ x ∈ xs, x.InWords slots) :
    ∃ start, Draft.make rows slots = .ok start ∧
    let d := start.attempts xs
    let log := start.written xs
    (∀ row slot e, Entry.InWords slots ⟨row, slot, e⟩ →
      ((∃ d', d.set row slot e = .ok d') ↔ row < rows ∧ slot < slots ∧ ∀ first, ⟨row, slot, first⟩ ∉ log) ∧
      (¬(row < rows ∧ slot < slots) → d.set row slot e = .error (.noTableEntry row slot rows slots)) ∧
      (∀ first, ⟨row, slot, first⟩ ∈ log → d.set row slot e = .error (.wiring (.servedTwice row slot first e))) ∧
      ∀ f, d.set row slot e = .error f → start.attempts (xs ++ [⟨row, slot, e⟩]) = d) ∧
    ((∃ s, d.finish = .ok s) ↔ ∀ row slot, row < rows → slot < slots → ∃ e, ⟨row, slot, e⟩ ∈ log) ∧
    (∀ f, d.finish = .error f → ∃ row slot, f = .incomplete row slot ∧ FirstMissing log rows slots row slot) ∧
    ∀ s, d.finish = .ok s → ∀ calls i v, (s.views calls)[i]? = some v →
      ∃ b, (bound rows slots calls)[i]? = some b ∧
        (b = false → v.Waits s rows slots) ∧
        (b = true → v.Reads log rows slots ∧ ∀ more, (s.views (calls ++ more))[i]? = some v) ∧
        ∀ r c f, v.bind s r c = .error f → s.views (calls ++ [.bind i r c]) = s.views calls := by
  have hmake : Draft.make rows slots = .ok (.empty rows slots) := if_pos hroom
  refine ⟨.empty rows slots, hmake, ?_⟩
  intro d log
  have hd : d.Holds rows slots log := (Draft.Holds.of_make hmake).attempts xs hwords
  refine ⟨fun row slot e hword => ⟨hd.set_eq_ok_iff hword e, fun hout => hd.set_of_outside hslots hword hout e,
    fun first hfirst => hd.set_of_mem hfirst e, fun f hf => Draft.attempts_append_of_error xs hf⟩, ?_, ?_, ?_⟩
  · rcases hd.finish_cases hslots with ⟨s, hs, hall⟩ | ⟨row, slot, hf, hmissing⟩
    · exact ⟨fun _ => hall, fun _ => ⟨s, hs⟩⟩
    · refine ⟨fun ⟨s, hs⟩ => ?_, fun hall => ?_⟩
      · rw [hf] at hs
        cases hs
      · obtain ⟨e, he⟩ := hall row slot hmissing.row_lt hmissing.slot_lt
        exact absurd he (hmissing.missing e)
  · intro f hf
    rcases hd.finish_cases hslots with ⟨s, hs, -⟩ | ⟨row, slot, hf', hmissing⟩
    · rw [hs] at hf
      cases hf
    · rw [hf'] at hf
      exact ⟨row, slot, (Except.error.inj hf).symm, hmissing⟩
  · intro s hs calls i v hv
    have hcells := (Draft.get?_of_finish hs).1
    have hr : s.cells.rows = rows := by rw [hcells, hd.rows_eq hslots]
    have hc : s.cells.columns = slots := by rw [hcells, hd.columns_eq]
    have hview := hv
    rw [Store.views_eq hr hc, List.getElem?_map, Option.map_eq_some_iff] at hview
    obtain ⟨b, hb, rfl⟩ := hview
    refine ⟨b, hb, ?_, ?_, fun r c f hf => Store.views_append_of_error hv hf⟩
    · rintro rfl
      exact View.waits_unbound hr hc
    · rintro rfl
      refine ⟨View.reads_of_finish hd hs, fun more => ?_⟩
      rw [Store.views_eq hr hc, List.getElem?_map, bound_append hb more]
      rfl

/-- A table of two rows: of four attempts to write it two are refused, and of two views only the copy is bound. -/
theorem write_once_sample :
    let xs : List Entry := [⟨0, 0, ⟨0, 5⟩⟩, ⟨2, 0, ⟨0, 6⟩⟩, ⟨0, 0, ⟨1, 5⟩⟩, ⟨1, 0, ⟨1, 6⟩⟩]
    let log : List Entry := [⟨0, 0, ⟨0, 5⟩⟩, ⟨1, 0, ⟨1, 6⟩⟩]
    let calls : List Call := [.fresh, .bind 0 1 1, .clone 0, .bind 1 2 1, .lookup 1 0 0]
    0 < 1 ∧ Storage.holds (2 * 1) 6 = true ∧ (∀ x ∈ xs, x.InWords 1) ∧ (Draft.empty 2 1).written xs = log ∧
      ∃ s v w, ((Draft.empty 2 1).attempts xs).finish = .ok s ∧ s.views calls = [v, w] ∧ v.Waits s 2 1 ∧
        w.Reads log 2 1 := by
  intro xs log calls
  let s : Store := ⟨⟨#[some ⟨0, 5⟩, some ⟨1, 6⟩], 1⟩⟩
  have hfinish : ((Draft.empty 2 1).attempts xs).finish = .ok s := ok_of_toOption (by decide +kernel)
  have hroom : Storage.holds (2 * 1) 6 = true := by decide
  have hwords : ∀ x ∈ xs, x.InWords 1 := by simp [xs, Entry.InWords]
  obtain ⟨_, hmake, -, -, -, hviews⟩ := write_once (by decide : 0 < 1) hroom hwords
  cases hmake
  have hcalls : s.views calls = [.unbound, ⟨some s, 2, 1⟩] := by decide
  obtain ⟨b, hb, hwaits, -⟩ := hviews s hfinish calls 0 .unbound (by rw [hcalls]; rfl)
  obtain ⟨b', hb', -, hreads, -⟩ := hviews s hfinish calls 1 ⟨some s, 2, 1⟩ (by rw [hcalls]; rfl)
  cases hb
  cases hb'
  exact ⟨by decide, hroom, hwords, rfl, s, .unbound, ⟨some s, 2, 1⟩, hfinish, hcalls, hwaits rfl, (hreads rfl).1⟩

/-- There is no table of so many rows that they cannot be kept, and of a row so far off that its place wraps the
first entry of a table is written. -/
theorem write_once_tooFar :
    Draft.make 0x2000000000000000 1 = .error .abort ∧
      ∃ start d, Draft.make 1 2 = .ok start ∧ start.set 0x8000000000000000 0 ⟨3, 4⟩ = .ok d ∧
        d.cells.get? 0 0 = some (some ⟨3, 4⟩) := by
  refine ⟨if_neg (by decide), .empty 1 2, ⟨⟨#[some ⟨3, 4⟩, none], 2⟩⟩, rfl, ?_, rfl⟩
  exact ok_of_toOption (by decide +kernel)

end DragonflyFabric.ExitTable
