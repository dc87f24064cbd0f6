import DragonflyFabric.Proofs.Exits.Served
import Mathlib.Data.List.Nodup

/-!
# Maps that fill a table

A map in which every link of a group is served, and none twice, fills an exit table: each write finds its entry
missing, and after the last one no entry is. `View.exists_ofLinkMap` is the converse of
`View.lookup_of_ofLinkMap`.
-/

namespace DragonflyFabric

/-- The global ports of a group serve its links, each link by one of them. -/
structure LinkMap.Covers (m : LinkMap) (p : Parameters) : Prop where
  within : ∀ {position index row slot}, position < p.routers → index < p.exits →
    m.link? p position index = some (row, slot) → row < p.rows ∧ slot < p.links
  once : ∀ {position index position' index' served}, position < p.routers → index < p.exits →
    position' < p.routers → index' < p.exits → m.link? p position index = some served →
    m.link? p position' index' = some served → position = position' ∧ index = index'
  served : ∀ {row slot}, row < p.rows → slot < p.links →
    ∃ position index, position < p.routers ∧ index < p.exits ∧ m.link? p position index = some (row, slot)

namespace ExitTable

variable {p : Parameters} {m : LinkMap} {row slot : Nat}

namespace Draft

variable {d d' : Draft} {place other : Nat × Nat}

/-- A missing entry can be written. -/
theorem exists_set (h : d.cells.get? row slot = some none) (e : Exit) : ∃ d', d.set row slot e = .ok d' := by
  obtain ⟨cells, hcells⟩ := Grid.exists_set? h (some e)
  exact ⟨⟨cells⟩, by rw [set, h]; dsimp only; rw [hcells]⟩

/-- The entry of the link that a port serves, if it serves one, is missing from a draft of the right size. -/
def Due (p : Parameters) (m : LinkMap) (place : Nat × Nat) (d : Draft) : Prop :=
  d.cells.columns = p.links ∧ ∀ row slot, m.link? p place.1 place.2 = some (row, slot) →
    row < p.rows ∧ d.cells.get? row slot = some none

theorem Due.exists_serve (h : Due p m place d) : ∃ d', serve p m d place = .ok d' := by
  cases hlink : m.link? p place.1 place.2 with
  | none => exact ⟨d, serve_of_idle hlink⟩
  | some served =>
    rw [serve_of_link? hlink]
    exact exists_set (h.2 _ _ hlink).2 _

theorem Due.after (hwords : p.rows * p.links ≤ 2 ^ 64) (h : serve p m d place = .ok d')
    (hapart : Apart p m place other) (hdue : Due p m other d) : Due p m other d' := by
  cases hplace : m.link? p place.1 place.2 with
  | none =>
    rw [serve_of_idle hplace] at h
    cases h
    exact hdue
  | some served =>
    rw [serve_of_link? hplace] at h
    have hset := set_eq_ok h
    refine ⟨by rw [(Grid.set?_eq_some hset).2.2]; exact hdue.1, fun row slot hother => ?_⟩
    obtain ⟨hr, hmissing⟩ := hdue.2 row slot hother
    refine ⟨hr, ?_⟩
    rw [← hdue.1] at hwords
    rw [Grid.get?_set? hset hwords (row_lt_of_link? (Nat.zero_lt_of_lt hr) hplace) hr, if_neg, hmissing]
    rintro ⟨rfl, rfl⟩
    exact hapart _ hplace hother

theorem nodup_exitPlaces (p : Parameters) : (exitPlaces p).Nodup :=
  List.Nodup.product List.nodup_range List.nodup_range

theorem pairwise_apart_of_covers (hm : m.Covers p) : (exitPlaces p).Pairwise (Apart p m) := by
  refine (nodup_exitPlaces p).imp_of_mem ?_
  intro place other hplace hother hne served hlink hlink'
  obtain ⟨hp, hi⟩ := mem_exitPlaces.mp hplace
  obtain ⟨hp', hi'⟩ := mem_exitPlaces.mp hother
  obtain ⟨hposition, hindex⟩ := hm.once hp hi hp' hi' hlink hlink'
  exact hne (Prod.ext hposition hindex)

/-- The table of a map can be drafted if no link is served twice. -/
theorem exists_ofLinkMap_of_apart (hroom : Storage.holds (p.rows * p.links) 6)
    (hwithin : ∀ place ∈ exitPlaces p, ∀ row slot, m.link? p place.1 place.2 = some (row, slot) →
      row < p.rows ∧ slot < p.links) (hapart : (exitPlaces p).Pairwise (Apart p m)) :
    ∃ d, ofLinkMap p m = .ok d := by
  have hwords : p.rows * p.links ≤ 2 ^ 64 := Storage.count_le (by decide) hroom
  have hdue : ∀ place ∈ exitPlaces p, Due p m place (empty p.rows p.links) := by
    refine fun place hplace => ⟨rfl, fun row slot hlink => ?_⟩
    obtain ⟨hr, hs⟩ := hwithin place hplace row slot hlink
    exact ⟨hr, Grid.get?_constant hwords hr hs⟩
  obtain ⟨d, hd⟩ := exists_foldlM_ok (f := serve p m) (fun _ _ => Due.exists_serve)
    (fun _ _ _ _ => Due.after hwords) hapart hdue
  refine ⟨d, ?_⟩
  rw [ofLinkMap, make, if_pos hroom]
  exact hd

theorem exists_ofLinkMap (hroom : Storage.holds (p.rows * p.links) 6) (hm : m.Covers p) :
    ∃ d, ofLinkMap p m = .ok d := by
  refine exists_ofLinkMap_of_apart hroom (fun place hplace row slot hlink => ?_) (pairwise_apart_of_covers hm)
  obtain ⟨hp, hi⟩ := mem_exitPlaces.mp hplace
  exact hm.within hp hi hlink

/-- The draft can be finished if every link is served. -/
theorem exists_finish (h : ofLinkMap p m = .ok d) (hm : m.Covers p) : ∃ s, d.finish = .ok s := by
  have hb := backed_ofLinkMap h
  have hfull : ∀ cell ∈ d.cells.cells, (Option.isNone cell) = false := by
    intro cell hcell
    obtain ⟨i, hi, rfl⟩ := Array.mem_iff_getElem.mp hcell
    have hlt : i < p.links * p.rows := by
      rw [Nat.mul_comm, ← hb.size_eq]
      exact hi
    have hslot : i % p.links < p.links := Nat.mod_lt _ (Nat.pos_of_lt_mul_right hlt)
    obtain ⟨position, index, hp, hx, hlink⟩ := hm.served (Nat.div_lt_of_lt_mul hlt) hslot
    have hwritten := get?_ofLinkMap h hp hx hlink
    have hplace : d.cells.place (i / p.links) (i % p.links) = i := by
      have hwords := places_lt_of_ofLinkMap h
      rw [← hb.columns_eq]
      rw [hb.size_eq] at hi
      exact Grid.place_div_mod (by omega)
    rw [← Grid.cell?_eq_get? (by rw [hb.columns_eq]; exact hslot), Grid.cell?, hplace,
      Array.getElem?_eq_getElem hi] at hwritten
    rw [Option.some.inj hwritten, Option.isNone_some]
  have hnone : d.firstMissing? = none := by
    rw [firstMissing?, Option.map_eq_none_iff, Array.findIdx?_eq_none_iff]
    exact hfull
  exact ⟨⟨d.cells⟩, by rw [finish, hnone]⟩

end Draft

/-- **A map that serves every link once fills a table.** -/
theorem View.exists_ofLinkMap (hroom : Storage.holds (p.rows * p.links) 6) (hlinks : 0 < p.links)
    (hm : m.Covers p) : ∃ v, ofLinkMap p m = .ok v := by
  obtain ⟨d, hd⟩ := Draft.exists_ofLinkMap hroom hm
  obtain ⟨s, hs⟩ := Draft.exists_finish hd hm
  have hb := Draft.backed_ofLinkMap hd
  have hcells := (Draft.get?_of_finish hs).1
  have hcolumns : s.cells.columns = p.links := by rw [hcells, hb.columns_eq]
  have hrows : s.cells.rows = p.rows := by
    rw [Grid.rows, hcolumns, if_neg (Nat.ne_of_gt hlinks), hcells, hb.size_eq, Nat.mul_div_cancel _ hlinks]
  refine ⟨⟨some s, p.rows, p.links⟩, ?_⟩
  rw [ofLinkMap, hd]
  dsimp only [Bind.bind, Except.bind]
  rw [hs]
  dsimp only
  rw [View.bind, if_neg (by simp [unbound]), if_neg (by simp [hrows, hcolumns])]

end ExitTable

end DragonflyFabric
