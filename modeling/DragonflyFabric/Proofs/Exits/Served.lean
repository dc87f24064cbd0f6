import DragonflyFabric.Exits.Table
import DragonflyFabric.Proofs.Cells
import DragonflyFabric.Proofs.Outcome
import DragonflyFabric.Proofs.Rows
import Mathlib.Data.List.Pairwise

/-!
# The table that a link map fills

Every entry of a finished table was written for a global port that serves it, and no entry is missing:
`View.lookup_of_ofLinkMap`. As no entry is written twice, it is the only port that serves it:
`View.lookup_of_link?`.
-/

namespace DragonflyFabric.ExitTable

variable {p : Parameters} {m : LinkMap} {row slot : Nat}

namespace Draft

/-- A draft of the right size whose entries are each served by the port that they name. -/
structure Backed (p : Parameters) (m : LinkMap) (d : Draft) : Prop where
  columns_eq : d.cells.columns = p.links
  size_eq : d.cells.cells.size = p.rows * p.links
  served : ∀ row slot e, row < p.rows → d.cells.get? row slot = some (some e) →
    ∃ position index, position < p.routers ∧ index < p.exits ∧
      m.link? p position index = some (row, slot) ∧ e = .ofPlace position (p.exitPort index)

theorem mem_exitPlaces {position index : Nat} :
    (position, index) ∈ exitPlaces p ↔ position < p.routers ∧ index < p.exits := by
  simp [exitPlaces]

theorem backed_empty : Backed p m (empty p.rows p.links) where
  columns_eq := rfl
  size_eq := Array.size_replicate
  served := fun row slot e _ h => by cases Grid.eq_of_get?_constant h

/-- What is written stands in its place, and every other entry as it was. -/
theorem set_eq_ok {d d' : Draft} {e : Exit} (h : d.set row slot e = .ok d') :
    d.cells.set? row slot (some e) = some d'.cells := by
  rw [set] at h
  split at h
  · cases h
  · cases h
  · split at h
    · next cells hcells =>
      cases h
      exact hcells
    · cases h

/-- The links of a map are numbered through the rows. -/
theorem row_lt_of_link? {position index : Nat} (hrows : 0 < p.rows)
    (hlink : m.link? p position index = some (row, slot)) : row < p.rows := by
  rw [LinkMap.link?] at hlink
  split at hlink
  · split at hlink
    · cases hlink
    · cases hlink
      exact Nat.mod_lt _ hrows
  · cases hlink

theorem Backed.set {d d' : Draft} {position index : Nat} (hd : Backed p m d) (hwords : p.rows * p.links ≤ 2 ^ 64)
    (hp : position < p.routers) (hi : index < p.exits)
    (hlink : m.link? p position index = some (row, slot))
    (h : d.set row slot (.ofPlace position (p.exitPort index)) = .ok d') : Backed p m d' := by
  have hset := set_eq_ok h
  obtain ⟨-, -, hcells⟩ := Grid.set?_eq_some hset
  refine ⟨by rw [hcells]; exact hd.columns_eq, by rw [hcells]; simpa using hd.size_eq, ?_⟩
  intro row' slot' e hr' he
  rw [← hd.columns_eq] at hwords
  rw [Grid.get?_set? hset hwords (row_lt_of_link? (Nat.zero_lt_of_lt hr') hlink) hr'] at he
  split at he
  · next heq =>
    obtain ⟨rfl, rfl⟩ := heq
    cases he
    exact ⟨position, index, hp, hi, hlink, rfl⟩
  · exact hd.served row' slot' e hr' he

/-- What is done for one global port: it is written for the link that it serves. -/
def serve (p : Parameters) (m : LinkMap) (d : Draft) (place : Nat × Nat) : Except Fault Draft :=
  match m.link? p place.1 place.2 with
  | some (row, slot) => d.set row slot (.ofPlace place.1 (p.exitPort place.2))
  | none => .ok d

theorem serve_of_link? {d : Draft} {place : Nat × Nat} (h : m.link? p place.1 place.2 = some (row, slot)) :
    serve p m d place = d.set row slot (.ofPlace place.1 (p.exitPort place.2)) := by
  rw [serve, h]

theorem serve_of_idle {d : Draft} {place : Nat × Nat} (h : m.link? p place.1 place.2 = none) :
    serve p m d place = .ok d := by
  rw [serve, h]

/-- The draft of a map is filled port by port, from the empty one. -/
theorem foldlM_serve {d : Draft} (h : ofLinkMap p m = .ok d) :
    (exitPlaces p).foldlM (serve p m) (empty p.rows p.links) = .ok d := by
  rw [ofLinkMap] at h
  obtain ⟨start, hstart, h⟩ := ok_of_bind_ok h
  rw [make] at hstart
  split at hstart
  · cases hstart
    exact h
  · cases hstart

/-- There is room for the entries of a draft. -/
theorem places_lt_of_ofLinkMap {d : Draft} (h : ofLinkMap p m = .ok d) : p.rows * p.links < 2 ^ 62 := by
  rw [ofLinkMap] at h
  obtain ⟨start, hstart, -⟩ := ok_of_bind_ok h
  rw [make] at hstart
  split at hstart
  · next hroom =>
    have := Storage.le_of_holds hroom
    omega
  · cases hstart

theorem backed_ofLinkMap {d : Draft} (h : ofLinkMap p m = .ok d) : Backed p m d := by
  have hwords : p.rows * p.links ≤ 2 ^ 64 := by
    have := places_lt_of_ofLinkMap h
    omega
  refine foldlM_keeps (exitPlaces p) ?_ backed_empty (foldlM_serve h)
  rintro d ⟨position, index⟩ hmem d' hd hstep
  obtain ⟨hp, hi⟩ := mem_exitPlaces.mp hmem
  cases hlink : m.link? p position index with
  | none =>
    rw [serve_of_idle hlink] at hstep
    cases hstep
    exact hd
  | some served =>
    rw [serve_of_link? hlink] at hstep
    exact hd.set hwords hp hi hlink hstep

/-- Only a missing entry is written. -/
theorem get?_of_set {d d' : Draft} {e : Exit} (h : d.set row slot e = .ok d') :
    d.cells.get? row slot = some none := by
  rw [set] at h
  split at h
  · cases h
  · cases h
  · assumption

/-- Once written, an entry stays. -/
theorem get?_set_of_written {d d' : Draft} {row' slot' : Nat} {e e' : Exit} (h : d.set row slot e = .ok d')
    (hwritten : d.cells.get? row' slot' = some (some e')) : d'.cells.get? row' slot' = some (some e') := by
  have hset := set_eq_ok h
  rw [Grid.get?_set?_of_place hset, if_neg, hwritten]
  rintro ⟨hslot, hplace⟩
  rw [Grid.get?_eq_of_place hslot (Grid.set?_eq_some hset).1 hplace, get?_of_set h] at hwritten
  cases hwritten

/-- Two ports that do not serve the same link. -/
def Apart (p : Parameters) (m : LinkMap) (place other : Nat × Nat) : Prop :=
  ∀ served : Nat × Nat, m.link? p place.1 place.2 = some served → m.link? p other.1 other.2 ≠ some served

theorem Apart.symm {place other : Nat × Nat} (h : Apart p m place other) : Apart p m other place :=
  fun served hother hplace => h served hplace hother

/-- The entry of the link that a port serves, if it serves one, is that port. -/
def Written (p : Parameters) (m : LinkMap) (place : Nat × Nat) (d : Draft) : Prop :=
  ∀ row slot, m.link? p place.1 place.2 = some (row, slot) →
    d.cells.get? row slot = some (some (.ofPlace place.1 (p.exitPort place.2)))

section Written

variable {d d' : Draft} {place other : Nat × Nat} (h : serve p m d place = .ok d')

include h

theorem written_of_serve : Written p m place d' := by
  intro row slot hlink
  rw [serve_of_link? hlink] at h
  have hset := set_eq_ok h
  rw [Grid.get?_set?_of_place hset, if_pos ⟨(Grid.set?_eq_some hset).1, rfl⟩]

theorem Written.after (hother : Written p m other d) : Written p m other d' := by
  intro row slot hlink
  cases hplace : m.link? p place.1 place.2 with
  | none =>
    rw [serve_of_idle hplace] at h
    cases h
    exact hother row slot hlink
  | some served =>
    rw [serve_of_link? hplace] at h
    exact get?_set_of_written h (hother row slot hlink)

/-- The link of a port that was written is not served again. -/
theorem Written.apart (hother : Written p m other d) : Apart p m other place := by
  rintro ⟨row, slot⟩ hlink hplace
  rw [serve_of_link? hplace] at h
  have hwritten := hother row slot hlink
  rw [get?_of_set h] at hwritten
  cases hwritten

end Written

/-- Every port that serves a link is written for it. -/
theorem get?_ofLinkMap {d : Draft} {position index : Nat} (h : ofLinkMap p m = .ok d)
    (hp : position < p.routers) (hi : index < p.exits) (hlink : m.link? p position index = some (row, slot)) :
    d.cells.get? row slot = some (some (.ofPlace position (p.exitPort index))) :=
  foldlM_reaches (Q := Written p m) (exitPlaces p) (fun _ _ _ _ hs => written_of_serve hs)
    (fun _ _ _ _ hs _ hw => hw.after hs) (foldlM_serve h) (position, index) (mem_exitPlaces.mpr ⟨hp, hi⟩) row slot hlink

/-- **No two global ports serve one link.** -/
theorem pairwise_apart {d : Draft} (h : ofLinkMap p m = .ok d) : (exitPlaces p).Pairwise (Apart p m) :=
  foldlM_pairwise (Q := Written p m) (exitPlaces p) (fun _ _ _ hs => written_of_serve hs)
    (fun _ _ _ _ hw hs => hw.after hs) (fun _ _ _ _ hw hs => hw.apart hs) (foldlM_serve h)

/-- A finished draft has no entry missing. -/
theorem get?_of_finish {d : Draft} {s : Store} (h : d.finish = .ok s) :
    s.cells = d.cells ∧ ∀ cell ∈ d.cells.cells, cell ≠ none := by
  rw [finish] at h
  split at h
  · cases h
  · next hmissing =>
    cases h
    refine ⟨rfl, fun cell hc hn => ?_⟩
    rw [firstMissing?, Option.map_eq_none_iff, Array.findIdx?_eq_none_iff] at hmissing
    have := hmissing cell hc
    rw [hn] at this
    cases this

end Draft

namespace View

theorem store_of_bind {v v' : View} {s : Store} {rows slots : Nat} (h : v.bind s rows slots = .ok v') :
    v' = ⟨some s, rows, slots⟩ := by
  rw [bind] at h
  split at h
  · cases h
  · split at h
    · cases h
    · exact (Except.ok.inj h).symm

/-- **The table of a link map is complete**, and each entry names a global port that serves it. -/
theorem lookup_of_ofLinkMap {v : View} (h : ofLinkMap p m = .ok v) (hr : row < p.rows)
    (hs : slot < p.links) :
    ∃ position index, position < p.routers ∧ index < p.exits ∧
      m.link? p position index = some (row, slot) ∧
      v.lookup row slot = .ok (.ofPlace position (p.exitPort index)) := by
  rw [ofLinkMap] at h
  obtain ⟨d, hd, h⟩ := ok_of_bind_ok h
  obtain ⟨s, hfinish, h⟩ := ok_of_bind_ok h
  have hb := Draft.backed_ofLinkMap hd
  obtain ⟨hcells, hfull⟩ := Draft.get?_of_finish hfinish
  have hwords := Draft.places_lt_of_ofLinkMap hd
  have hplace : d.cells.place row slot < d.cells.cells.size := by
    have hplaces : p.rows * d.cells.columns ≤ 2 ^ 64 := by
      rw [hb.columns_eq]
      omega
    rw [Grid.place_eq hplaces hr (by rwa [hb.columns_eq]), hb.size_eq, hb.columns_eq]
    exact Grid.place_lt hr hs
  have hget : d.cells.get? row slot = some d.cells.cells[d.cells.place row slot] := by
    rw [Grid.get?, if_pos (by rw [hb.columns_eq]; exact hs), Grid.cell?, Array.getElem?_eq_getElem hplace]
  obtain ⟨e, he⟩ := Option.ne_none_iff_exists'.mp (hfull _ (Array.getElem_mem hplace))
  rw [he] at hget
  obtain ⟨position, index, hp, hi, hlink, rfl⟩ := hb.served row slot e hr hget
  refine ⟨position, index, hp, hi, hlink, ?_⟩
  rw [store_of_bind h, lookup]
  dsimp only
  rw [if_neg (by omega), hcells, Grid.cell?_eq_get? (by rw [hb.columns_eq]; exact hs), hget]

/-- **Every port that serves a link is the exit of that link.** -/
theorem lookup_of_link? {v : View} {position index : Nat} (h : ofLinkMap p m = .ok v) (hp : position < p.routers)
    (hi : index < p.exits) (hlink : m.link? p position index = some (row, slot)) :
    row < p.rows ∧ slot < p.links ∧ v.lookup row slot = .ok (.ofPlace position (p.exitPort index)) := by
  rw [ofLinkMap] at h
  obtain ⟨d, hd, h⟩ := ok_of_bind_ok h
  obtain ⟨s, hfinish, h⟩ := ok_of_bind_ok h
  have hb := Draft.backed_ofLinkMap hd
  have hget := Draft.get?_ofLinkMap hd hp hi hlink
  have hslot := Grid.column_lt_of_get? hget
  have hcell := hget
  rw [← Grid.cell?_eq_get? hslot, Grid.cell?] at hcell
  obtain ⟨hplace, -⟩ := Array.getElem?_eq_some_iff.mp hcell
  rw [hb.columns_eq] at hslot
  rw [hb.size_eq] at hplace
  have hrow : row < p.rows :=
    Draft.row_lt_of_link? (Nat.pos_of_mul_pos_right (Nat.zero_lt_of_lt hplace)) hlink
  refine ⟨hrow, hslot, ?_⟩
  rw [store_of_bind h, lookup]
  dsimp only
  rw [if_neg (by omega), (Draft.get?_of_finish hfinish).1, Grid.cell?_eq_get? (by rwa [hb.columns_eq]), hget]

/-- A link is served by one global port only. -/
theorem place_eq_of_link?_eq {v : View} {position index position' index' : Nat} (h : ofLinkMap p m = .ok v)
    (hp : position < p.routers) (hi : index < p.exits) (hp' : position' < p.routers) (hi' : index' < p.exits)
    (hlink : m.link? p position index = some (row, slot)) (hlink' : m.link? p position' index' = some (row, slot)) :
    position' = position ∧ index' = index := by
  rw [ofLinkMap] at h
  obtain ⟨d, hd, -⟩ := ok_of_bind_ok h
  have : Std.Symm (Draft.Apart p m) := ⟨fun _ _ hapart => hapart.symm⟩
  by_contra hne
  have hapart := (Draft.pairwise_apart hd).forall (Draft.mem_exitPlaces.mpr ⟨hp', hi'⟩)
    (Draft.mem_exitPlaces.mpr ⟨hp, hi⟩) fun heq => hne (Prod.mk.inj heq)
  exact hapart (row, slot) hlink' hlink

theorem lt_of_lookup {v : View} {e : Exit} (h : v.lookup row slot = .ok e) : row < v.rows ∧ slot < v.slots := by
  rw [lookup] at h
  split at h
  · cases h
  · split at h
    · cases h
    · omega

/-- There is room for the entries of a table. -/
theorem places_lt {v : View} (h : ofLinkMap p m = .ok v) : p.rows * p.links < 2 ^ 62 := by
  rw [ofLinkMap] at h
  obtain ⟨d, hd, -⟩ := ok_of_bind_ok h
  exact Draft.places_lt_of_ofLinkMap hd

/-- **Where there is a table, the groups are numbered in words.** -/
theorem inWords {v : View} (h : ofLinkMap p m = .ok v) (hlinks : 0 < p.links) (n : Numbering) :
    n.InWords p.groups := by
  intro _
  have hrows : p.rows ≤ p.rows * p.links := Nat.le_mul_of_pos_right _ hlinks
  have hplaces := places_lt h
  rw [Parameters.rows] at hrows hplaces
  omega

theorem size_of_ofLinkMap {v : View} (h : ofLinkMap p m = .ok v) : v.rows = p.rows ∧ v.slots = p.links := by
  rw [ofLinkMap] at h
  obtain ⟨d, hd, h⟩ := ok_of_bind_ok h
  obtain ⟨s, hfinish, h⟩ := ok_of_bind_ok h
  rw [store_of_bind h]
  exact ⟨rfl, rfl⟩

end View

end DragonflyFabric.ExitTable
