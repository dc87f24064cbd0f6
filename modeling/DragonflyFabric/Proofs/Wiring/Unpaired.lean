import DragonflyFabric.Proofs.Wiring.Complete

/-!
# Networks over a table of another map

A network is built of a map and a view of a table, which may be that of another map or of none at all. The audit
asks every port that leads to a port whether that one leads back, and passes over those that lead nowhere. A
global port that serves a link leads nowhere where the table has no answer for the way back, so that a network that
was built may still have links without another end: `Fabric.paired_or_unanswered` says that this is the only way.
-/

namespace DragonflyFabric.Fabric

variable {p : Parameters} {m : LinkMap} {table : ExitTable.View} {numbering : Numbering} {f : Fabric}
  {group position index row slot router next nextPort : Nat}

/-- What the table answers for the way back of a link, under the row that the other group has for this one. -/
def wayBack (f : Fabric) (group row slot : Nat) : Except Fault Exit :=
  f.table.lookup (f.numbering.rowOf (f.numbering.groupAt group row f.parameters.groups) group f.parameters.groups) slot

theorem across_of_unanswered {why : Fault} (h : f.wayBack group row slot = .error why) :
    f.across group row slot = .nothing := by
  rw [wayBack] at h
  simp only [across, h]

/-- Two ports of routers lead to each other, by a wire between groups. -/
def Paired (f : Fabric) (router port next nextPort : Nat) : Prop :=
  f.link router port = ⟨.router next nextPort, Link.globalKind⟩ ∧
    f.link next nextPort = ⟨.router router port, Link.globalKind⟩

/-- In a network that was built, a global port that leads to a port of a router is paired with it. -/
theorem paired_of_link (hc : p.Checked) (hbuild : (build p numbering table m).result = .ok f)
    (hg : group < p.groups) (hp : position < p.routers) (hi : index < p.exits)
    (hlink : f.link (p.routerAt group position) (p.exitPort index) = ⟨.router next nextPort, Link.globalKind⟩) :
    f.Paired (p.routerAt group position) (p.exitPort index) next nextPort := by
  obtain ⟨rfl, hreturns⟩ := (ensures_build p numbering table m).of_result hbuild
  have hport := Parameters.lt_radix_of_classOf? hc.routers_pos (hc.classOf?_exitPort hi)
  have hback := link_back hc.routers_pos (hreturns _ _ (Parameters.routerAt_lt hg hp) hport) (by rw [hlink])
  rw [hlink] at hback
  exact ⟨hlink, hback⟩

/-- **A global port that serves a link is paired, or the table has no answer for its way back** and it leads
nowhere. -/
theorem paired_or_unanswered {entries : Array Int} (hcheck : p.check = .ok p) (_hcount : p.Countable)
    (hmap : (LinkMap.ofEntries p entries).result = .ok m) (hbuild : (build p numbering table m).result = .ok f)
    (hg : group < p.groups) (hp : position < p.routers) (hi : index < p.exits)
    (hserves : m.entries[position * p.exits + index]? ≠ some (-1)) :
    ∃ row slot, m.link? p position index = some (row, slot) ∧
      ((∃ e, f.wayBack group row slot = .ok e ∧
          f.Paired (p.routerAt group position) (p.exitPort index)
            (p.routerAt (numbering.groupAt group row p.groups) e.router.toNat) e.port.toNat) ∨
        ∃ why, f.wayBack group row slot = .error why ∧
          f.link (p.routerAt group position) (p.exitPort index) = ⟨.nothing, Link.globalKind⟩) := by
  have hc := (Parameters.checked_of_check hcheck).2
  obtain ⟨hsize, hleast⟩ := (LinkMap.ensures_ofEntries p entries).of_result hmap
  obtain ⟨⟨row, slot⟩, hlink⟩ :=
    Option.ne_none_iff_exists'.mp (mt (LinkMap.link?_eq_none_iff hsize hleast hp hi).mp hserves)
  have hf := ((ensures_build p numbering table m).of_result hbuild).1
  have hleads : f.link (p.routerAt group position) (p.exitPort index) =
      ⟨f.across group row slot, Link.globalKind⟩ := by
    rw [hf]
    exact link_ofParts_of_some numbering table group hp hi (hc.classOf?_exitPort hi) hlink
  refine ⟨row, slot, hlink, ?_⟩
  cases hback : f.wayBack group row slot with
  | ok e =>
    rw [across_of_lookup hback, hf, ofParts_parameters, ofParts_numbering, ← hf] at hleads
    exact .inl ⟨e, rfl, paired_of_link hc hbuild hg hp hi hleads⟩
  | error why =>
    rw [across_of_unanswered hback] at hleads
    exact .inr ⟨why, rfl, hleads⟩

/-- A table of one exit, which is less than two groups with two links between them need. -/
def oneExit : ExitTable.View := ⟨some ⟨⟨#[some ⟨0, 2⟩], 1⟩⟩, 1, 1⟩

/-- Over it the first links of both groups are paired, and the second ones lead nowhere. -/
theorem paired_or_unanswered_oneExit : ∃ f, (build ⟨1, 2, 1, 2, 2⟩ .relative oneExit ⟨#[0, 1]⟩).result = .ok f ∧
    f.Paired 0 2 2 2 ∧ f.link 1 2 = ⟨.nothing, Link.globalKind⟩ := by
  have hbuild : (build ⟨1, 2, 1, 2, 2⟩ .relative oneExit ⟨#[0, 1]⟩).result =
      .ok (ofParts ⟨1, 2, 1, 2, 2⟩ .relative oneExit ⟨#[0, 1]⟩) := ok_of_toOption (by decide +kernel)
  have hall {position : Nat} := @paired_or_unanswered ⟨1, 2, 1, 2, 2⟩ ⟨#[0, 1]⟩ oneExit .relative _ 0 position 0
    #[0, 1] rfl ⟨⟨by decide, by decide, by decide⟩, by decide⟩ (ok_of_toOption (by decide +kernel)) hbuild (by decide)
  refine ⟨_, hbuild, ?_, ?_⟩
  · obtain ⟨_, _, ⟨⟩, ⟨_, ⟨⟩, hpaired⟩ | ⟨_, ⟨⟩, -⟩⟩ := @hall 0 (by decide) (by decide) (by decide)
    exact hpaired
  · obtain ⟨_, _, ⟨⟩, ⟨_, ⟨⟩, -⟩ | ⟨_, -, hnothing⟩⟩ := @hall 1 (by decide) (by decide) (by decide)
    exact hnothing

/-- **Not every network that was built is paired.** Over no table at all, no port between groups leads anywhere. -/
theorem unpaired_of_unbound : Parameters.check ⟨1, 2, 1, 3, 1⟩ = .ok ⟨1, 2, 1, 3, 1⟩ ∧
    (LinkMap.ofEntries ⟨1, 2, 1, 3, 1⟩ #[0, 1]).result = .ok ⟨#[0, 1]⟩ ∧
    (build ⟨1, 2, 1, 3, 1⟩ .relative .unbound ⟨#[0, 1]⟩).result =
      .ok (ofParts ⟨1, 2, 1, 3, 1⟩ .relative .unbound ⟨#[0, 1]⟩) ∧
    (ofParts ⟨1, 2, 1, 3, 1⟩ .relative .unbound ⟨#[0, 1]⟩).link 0 2 = ⟨.nothing, Link.globalKind⟩ :=
  ⟨rfl, ok_of_toOption (by decide +kernel), ok_of_toOption (by decide +kernel), by decide +kernel⟩

end DragonflyFabric.Fabric
