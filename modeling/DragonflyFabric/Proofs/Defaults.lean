import DragonflyFabric.Proofs.Exits.InOrder
import DragonflyFabric.Proofs.Router.Service
import DragonflyFabric.Proofs.Wiring.Complete

/-!
# Settings without a link map

Settings that do not give a link map have the one with the links in order. Where places fit in the sixteen bits
of an exit and the number of links in a word, nothing that is built from there on can fail: the map fills a table, the
wires lead back in either numbering and a router can be put at every place, `LinkMap.network_of_spread`.
-/

namespace DragonflyFabric

open DragonflyFabric.Language (Value)

namespace Settings

variable {whole v : Value} {f : Fields} {key : String} {s : Settings}

/-- Whatever the computation makes of the fields, their link map stays. -/
def KeepsMap (f : Fields) (x : Except Fault Fields) : Prop := ∀ f', x = .ok f' → f'.linkMap = f.linkMap

theorem KeepsMap.set {α : Type} {x : Except Fault α} {g : α → Fields} (hg : ∀ a, (g a).linkMap = f.linkMap) :
    KeepsMap f (do return g (← x)) := by
  intro f' h
  obtain ⟨a, -, h⟩ := ok_of_bind_ok h
  cases h
  exact hg a

theorem KeepsMap.ite {c : Prop} [Decidable c] {x y : Except Fault Fields} (hx : c → KeepsMap f x)
    (hy : KeepsMap f y) : KeepsMap f (if c then x else y) := by
  split
  · next hc => exact hx hc
  · exact hy

/-- Only one field gives a link map. -/
theorem keepsMap_read (f : Fields) (hkey : key ≠ "global_link_map") : KeepsMap f (f.read whole key v) := by
  rw [Fields.read]
  -- eight fields are looked for before that of the link map, and four after it
  iterate 8
    refine .ite (fun _ => .set fun _ => rfl) ?_
  refine .ite (fun hmap => absurd hmap hkey) ?_
  iterate 4
    refine .ite (fun _ => .set fun _ => rfl) ?_
  refine .ite ?_ ?_
  · rintro - _ ⟨⟩
    rfl
  · rintro _ ⟨⟩

/-- Without a link map, the fields have the links in order. -/
theorem ensures_ofFields_inOrder (hnone : f.linkMap = none) :
    Ensures (ofFields whole f) fun s =>
      s.parameters.routers ≤ 65536 → s.parameters.radix ≤ 65536 → s.linkMap = .inOrder s.parameters := by
  refine .bind (.lift fun p hp => checked_of_parameters hp) fun p hp => ?_
  refine .after fun _ => .after fun _ => .after fun _ => .after fun _ => ?_
  refine .bind (P := fun m => p.routers ≤ 65536 → p.radix ≤ 65536 → m = .inOrder p) ?_ fun m hm => ?_
  · intro σ m σ' h hrouters hradix
    rw [Fields.map, hnone] at h
    exact (LinkMap.answers_spread hp.2 hrouters hradix).ensures σ m σ' h
  · exact .after fun _ => .pure hm

/-- **Settings that do not give a link map have the links in order.** -/
theorem linkMap_eq_inOrder {fields : List (String × Value)} (hfields : ∀ value, ("global_link_map", value) ∉ fields)
    (h : (ofValue (.object "Dragonfly" fields)).result = .ok s) (hrouters : s.parameters.routers ≤ 65536)
    (hradix : s.parameters.radix ≤ 65536) : s.linkMap = .inOrder s.parameters := by
  refine Ensures.of_result (P := fun s => s.parameters.routers ≤ 65536 → s.parameters.radix ≤ 65536 →
    s.linkMap = .inOrder s.parameters) ?_ h hrouters hradix
  have hgiven : Value.readFields "Dragonfly" (.object "Dragonfly" fields) = .ok fields := by
    rw [Value.readFields, if_pos rfl]
  refine .bind (.lift (P := (fields = ·)) fun given hread => Except.ok.inj (hgiven.symm.trans hread)) ?_
  rintro _ rfl
  refine .bind (.lift (P := fun f => f.linkMap = none) fun f hf => ?_) fun f hf => ensures_ofFields_inOrder hf
  refine foldlM_keeps (P := fun f => f.linkMap = none) fields ?_ rfl hf
  rintro f ⟨key, value⟩ hmem f' hnone hstep
  refine (keepsMap_read f ?_ f' hstep).trans hnone
  rintro rfl
  exact hfields value hmem

end Settings

namespace LinkMap

variable {p : Parameters}

/-- The links in order fill a table. -/
theorem exists_complete_inOrder (hc : p.Checked) (hrouters : p.routers ≤ 65536) (hradix : p.radix ≤ 65536)
    (hlinks : p.rows * p.links < 2 ^ 64) : ∃ table, (inOrder p).Complete p table := by
  have hplaces := places_le hrouters hradix
  have hle := hc.linkCount_le
  have hroom : Storage.holds (p.rows * p.links) 6 := by
    rw [Storage.holds, Storage.limit, decide_eq_true_eq]
    rw [Parameters.linkCount_eq hlinks] at hle
    omega
  obtain ⟨table, htable⟩ := ExitTable.View.exists_ofLinkMap hroom hc.links_pos (covers_inOrder hc hlinks)
  exact ⟨table, hc, hrouters, hradix, htable⟩

end LinkMap

end DragonflyFabric
