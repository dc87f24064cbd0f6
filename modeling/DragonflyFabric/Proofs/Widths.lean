import DragonflyFabric.Proofs.Installation
import DragonflyFabric.Proofs.Wiring.Complete
import DragonflyFabric.Router.Inject

/-!
# What fits in addresses, exits and slots

An exit holds a position and a port in sixteen bits each, an address its parts in thirty-two, and a packet its
slots in sixteen. Nothing is refused for being too large when settings are read and a table is made of them. What
does not fit is cut, so that every part is carried up to a multiple of its range: `Settings.parts_carried`.

Where the wires pass the audit, no exit was cut, as a port that does not fit cannot be led back to, and groups fit
as well. Hosts and slots may still not. All of this is about numbers that are words before they are cut.
-/

namespace DragonflyFabric

namespace Router

/-- The slot toward a group, by the policy of the router, before it is put in a packet. -/
def slotToward (r : Router) (source group : Nat) : Nat :=
  match r.site.policy with
  | .fixed slot => slot
  | .roundRobin => r.counters[group]?.getD 0
  | .sourceHash => hashedSlot source group r.site.parameters.links
  | .random => (Random.draw r.site.parameters.links r.random).1

theorem chooseSlot_fst (r : Router) (source group : Nat) :
    (r.chooseSlot source group).1 = UInt16.ofNat (r.slotToward source group) := by
  cases hpolicy : r.site.policy with
  | fixed slot => simp only [chooseSlot, slotToward, hpolicy]
  | roundRobin =>
    simp only [chooseSlot, slotToward, hpolicy]
    cases r.counters[group]? <;> rfl
  | sourceHash => simp only [chooseSlot, slotToward, hpolicy]
  | random => simp only [chooseSlot, slotToward, hpolicy]

theorem toNat_chooseSlot (r : Router) (source group : Nat) :
    (r.chooseSlot source group).1.toNat = r.slotToward source group % 65536 := by
  rw [chooseSlot_fst]
  exact UInt16.toNat_ofNat'

end Router

/-- The place of a host, each part up to a multiple of the range of an address. -/
theorem Parameters.locate_parts {p : Parameters} {host : Nat} (hw : p.hosts * p.routers * p.groups < 2 ^ 64)
    (h : host < p.hosts * p.routers * p.groups) :
    ∃ a, p.locate host = .ok a ∧ a.group.toNat = host / (p.hosts * p.routers) % 2 ^ 32 ∧ a.target = a.group ∧
      a.alternate = a.group ∧ a.router.toNat = host / p.hosts % p.routers % 2 ^ 32 ∧
      a.host.toNat = host % p.hosts % 2 ^ 32 := by
  rw [← groupOf_div_hosts]
  rw [← hostCount_eq hw] at h
  exact ⟨_, p.locate_of_lt hw h, UInt32.toNat_ofNat', rfl, rfl, UInt32.toNat_ofNat', UInt32.toNat_ofNat'⟩

namespace ExitTable.View

variable {p : Parameters} {m : LinkMap} {table : View} {row slot : Nat}

/-- The entry for a row and a slot is the place of the port that serves them, each part up to a multiple of the
range of an exit. -/
theorem lookup_parts (h : ofLinkMap p m = .ok table) (hr : row < p.rows) (hs : slot < p.links) :
    ∃ position index e, m.ServedAt p row slot position index ∧ table.lookup row slot = .ok e ∧
      e.router.toNat = position % 65536 ∧ e.port.toNat = p.exitPort index % 65536 := by
  obtain ⟨position, index, hp, hi, hlink, hlookup⟩ := lookup_of_ofLinkMap h hr hs
  exact ⟨position, index, _, LinkMap.servedAt_of_link? h hp hi hlink, hlookup, UInt16.toNat_ofNat',
    UInt16.toNat_ofNat'⟩

end ExitTable.View

/-- In an installed network the entry for a row and a slot is the place of the port that serves them. -/
theorem Installation.lookup_place (n : Installation) {row slot : Nat} (hr : row < n.parameters.rows)
    (hs : slot < n.parameters.links) :
    ∃ position index e, n.settings.linkMap.ServedAt n.parameters row slot position index ∧
      n.table.lookup row slot = .ok e ∧ e.router.toNat = position ∧ e.port.toNat = n.parameters.exitPort index := by
  obtain ⟨position, index, e, hserved, hlookup, hrouter, hport⟩ := ExitTable.View.lookup_parts n.table_eq hr hs
  have hplace := n.place_lt hserved.position_lt hserved.index_lt hr hs
    (by rw [n.servedBy_exitPort hserved.position_lt hserved.index_lt, hserved.link_eq])
  refine ⟨position, index, e, hserved, hlookup, ?_, ?_⟩
  · rw [hrouter, Nat.mod_eq_of_lt hplace.1]
  · rw [hport, Nat.mod_eq_of_lt hplace.2]

namespace Settings

variable {v : Language.Value} {s : Settings} {table : ExitTable.View}

/-- **Parts are carried up to a multiple of their range.** This holds of every entry of the table, of the place of
every host and of every slot that a packet gets. Once the wires passed the audit, entries and groups are whole. Ports
and hosts are taken to be numbered by words. -/
theorem parts_carried (hread : (ofValue v).result = .ok s) (htable : s.table = .ok table)
    (hradix : s.parameters.radix < 2 ^ 64)
    (hhosts : s.parameters.hosts * s.parameters.routers * s.parameters.groups < 2 ^ 64) :
    (∀ row slot, row < s.parameters.rows → slot < s.parameters.links → ∃ position index e,
      s.linkMap.ServedAt s.parameters row slot position index ∧ table.lookup row slot = .ok e ∧
      e.router.toNat = position % 65536 ∧ e.port.toNat = s.parameters.exitPort index % 65536 ∧
      s.parameters.exitPort index < 2 ^ 64) ∧
    (∀ host < s.parameters.hosts * s.parameters.routers * s.parameters.groups, ∃ a, s.parameters.locate host = .ok a ∧
      a.group.toNat = host / (s.parameters.hosts * s.parameters.routers) % 2 ^ 32 ∧
      a.target = a.group ∧ a.alternate = a.group ∧
      a.router.toNat = host / s.parameters.hosts % s.parameters.routers % 2 ^ 32 ∧
      a.host.toNat = host % s.parameters.hosts % 2 ^ 32) ∧
    (∀ (t : Transit) group,
      (t.takeSlot group).packet.slot.toNat = t.router.slotToward t.packet.request.source group % 65536 ∧
      (t.offer group).packet.otherSlot.toNat = t.router.slotToward t.packet.request.source group % 65536) ∧
    ∀ f, (s.fabric table).result = .ok f → s.parameters.groups < 2 ^ 32 ∧
      ∀ row slot, row < s.parameters.rows → slot < s.parameters.links → ∃ position index e,
        s.linkMap.ServedAt s.parameters row slot position index ∧ table.lookup row slot = .ok e ∧
        e.router.toNat = position ∧ e.port.toNat = s.parameters.exitPort index := by
  refine ⟨fun row slot hr hs => ?_, fun host hhost => Parameters.locate_parts hhosts hhost,
    fun t group => ⟨?_, ?_⟩, fun f hf => ?_⟩
  · obtain ⟨position, index, e, hserved, hlookup, hrouter, hport⟩ := ExitTable.View.lookup_parts htable hr hs
    exact ⟨position, index, e, hserved, hlookup, hrouter, hport,
      Nat.lt_trans (Nat.add_lt_add_left hserved.index_lt _) hradix⟩
  · exact t.router.toNat_chooseSlot t.packet.request.source group
  · exact t.router.toNat_chooseSlot t.packet.request.source group
  · obtain ⟨plan, hplan⟩ := (accepted_of_ofValue hread).plan_ok
    let n : Installation := ⟨s, table, f, plan, ⟨v, hread⟩, htable, hf, hplan⟩
    exact ⟨Nat.lt_trans n.groups_lt (by decide), fun row slot hr hs => n.lookup_place hr hs⟩

/-- Two groups of one router, with as many hosts on it as sixteen bits can count and one global port behind
them. -/
def crowded : Settings where
  parameters := ⟨65536, 1, 1, 2, 1⟩
  networks := 1
  algorithms := [.minimal]
  threshold := 2.0
  linkMap := ⟨#[0]⟩
  numbering := .relative
  policy := .sourceHash
  seed := 0

def crowdedValue : Language.Value :=
  .object "Dragonfly" [("hosts_per_router", .number 65536), ("routers_per_group", .number 1),
    ("intergroup_per_router", .number 1), ("num_groups", .number 2), ("algorithm", .literal "minimal")]

def crowdedTable : ExitTable.View := ⟨some ⟨⟨#[some ⟨0, 0⟩], 1⟩⟩, 1, 1⟩

theorem crowded_ofValue : (ofValue crowdedValue).result = .ok crowded := ok_of_toOption (by decide +kernel)

theorem crowded_table : crowded.table = .ok crowdedTable := ok_of_toOption (by decide +kernel)

/-- Behind so many hosts, ports stand in the table by what is left of their numbers. -/
theorem parts_carried_crowded : crowded.parameters.radix < 2 ^ 64 ∧
    crowded.parameters.hosts * crowded.parameters.routers * crowded.parameters.groups < 2 ^ 64 ∧
    ∃ index e, crowded.linkMap.ServedAt crowded.parameters 0 0 0 index ∧
      crowdedTable.lookup 0 0 = .ok e ∧ e.port.toNat = (65536 + index) % 65536 := by
  have hradix : crowded.parameters.radix < 2 ^ 64 := by decide
  have hhosts : crowded.parameters.hosts * crowded.parameters.routers * crowded.parameters.groups < 2 ^ 64 := by decide
  obtain ⟨position, index, e, hserved, hlookup, -, hport, -⟩ :=
    (parts_carried crowded_ofValue crowded_table hradix hhosts).1 0 0 (by decide) (by decide)
  obtain rfl : position = 0 := Nat.lt_one_iff.mp hserved.position_lt
  exact ⟨hradix, hhosts, index, e, hserved, hlookup, hport⟩

/-- **Not every exit of accepted settings is whole.** Here port 65536 stands in the table as port zero. -/
theorem exit_cut : (ofValue crowdedValue).result = .ok crowded ∧ crowded.table = .ok crowdedTable ∧
    crowded.linkMap.ServedAt crowded.parameters 0 0 0 0 ∧ crowded.parameters.exitPort 0 = 65536 ∧
    crowdedTable.lookup 0 0 = .ok ⟨0, 0⟩ :=
  ⟨crowded_ofValue, crowded_table, LinkMap.servedAt_of_link? crowded_table (by decide) (by decide) rfl, rfl, rfl⟩

end Settings

end DragonflyFabric
