import DragonflyFabric.Parameters.Checks
import DragonflyFabric.Proofs.Cells

/-!
# Ports, routers and hosts

Routers are numbered group by group and hosts router by router, so that a number and its parts determine
each other; of hosts this takes that they are no more than there are words.

The ports of a router are those to its hosts, those to its siblings and the global ones;
`classOf?_host`, `classOf?_sibling` and `classOf?_exit_iff` say which are which, and
`siblingBehind_portToSibling` and `portToSibling_siblingBehind` that the port to a sibling is the port behind
which that sibling is.
-/

namespace DragonflyFabric.Parameters

variable {p : Parameters} {group position other port router host : Nat}

/-! ### Routers -/

@[simp] theorem groupOf_routerAt (h : position < p.routers) :
    p.groupOf (p.routerAt group position) = group := by
  rw [groupOf, routerAt, Nat.mul_comm, Nat.mul_add_div (by omega), Nat.div_eq_of_lt h, Nat.add_zero]

@[simp] theorem positionOf_routerAt (h : position < p.routers) :
    p.positionOf (p.routerAt group position) = position := by
  rw [positionOf, routerAt, Nat.mul_comm, Nat.mul_add_mod, Nat.mod_eq_of_lt h]

theorem routerAt_groupOf_positionOf (p : Parameters) (router : Nat) :
    p.routerAt (p.groupOf router) (p.positionOf router) = router :=
  Nat.div_add_mod' router p.routers

theorem positionOf_lt (h : 0 < p.routers) (router : Nat) : p.positionOf router < p.routers := Nat.mod_lt _ h

theorem groupOf_lt (h : router < p.routerCount) : p.groupOf router < p.groups :=
  Nat.div_lt_of_lt_mul h

theorem routerAt_lt (hg : group < p.groups) (h : position < p.routers) :
    p.routerAt group position < p.routerCount := by
  have hm : (group + 1) * p.routers ≤ p.groups * p.routers := Nat.mul_le_mul_right _ hg
  rw [Nat.add_mul, Nat.one_mul] at hm
  rw [routerAt, routerCount, Nat.mul_comm p.routers]
  omega

/-! ### Hosts -/

theorem hostCount_le (p : Parameters) : p.hostCount ≤ p.hosts * p.routers * p.groups := Word.wrap_le _

theorem hostCount_eq (hw : p.hosts * p.routers * p.groups < 2 ^ 64) : p.hostCount = p.hosts * p.routers * p.groups :=
  Word.wrap_of_lt hw

theorem div_hosts_lt (h : host < p.hostCount) : host / p.hosts < p.routerCount := by
  have hlt := Nat.lt_of_lt_of_le h p.hostCount_le
  rw [Nat.mul_assoc] at hlt
  exact Nat.div_lt_of_lt_mul hlt

/-- The hosts of the network are those of its routers. -/
theorem home_lt_iff (hw : p.hosts * p.routers * p.groups < 2 ^ 64) (h : 0 < p.hosts) :
    host / p.hosts < p.routerCount ↔ host < p.hostCount := by
  rw [Nat.div_lt_iff_lt_mul h, hostCount_eq hw, routerCount, Nat.mul_comm, ← Nat.mul_assoc]

/-- The hosts of a router are numbered from its own number on. -/
theorem number_lt (hr : router < p.routerCount) (hh : host < p.hosts) :
    router * p.hosts + host < p.hosts * p.routers * p.groups := by
  rw [Nat.mul_assoc, ← routerCount, Nat.mul_comm p.hosts]
  exact Grid.place_lt hr hh

theorem hostAt_eq (hw : p.hosts * p.routers * p.groups ≤ 2 ^ 64) (hg : group < p.groups)
    (hposition : position < p.routers) (hh : host < p.hosts) :
    p.hostAt group position host = p.routerAt group position * p.hosts + host :=
  Word.wrap_of_lt (Nat.lt_of_lt_of_le (number_lt (routerAt_lt hg hposition) hh) hw)

theorem groupOf_div_hosts (p : Parameters) (host : Nat) :
    p.groupOf (host / p.hosts) = host / (p.hosts * p.routers) :=
  Nat.div_div_eq_div_mul host p.hosts p.routers

/-- The parts of the number of a host make up that number. -/
theorem hostAt_parts (p : Parameters) (h : host < 2 ^ 64) :
    p.hostAt (p.groupOf (host / p.hosts)) (p.positionOf (host / p.hosts)) (host % p.hosts) = host := by
  show Word.wrap (p.routerAt (p.groupOf (host / p.hosts)) (p.positionOf (host / p.hosts)) * p.hosts + _) = _
  rw [routerAt_groupOf_positionOf, Nat.div_add_mod', Word.wrap_of_lt h]

/-- Whatever the counts, a host that is found has an address, and in it one of the groups. -/
theorem exists_locate (h : host < p.hostCount) :
    ∃ group < p.groups, p.locate host = .ok (.ofParts group (host / p.hosts % p.routers) (host % p.hosts)) := by
  refine ⟨_, Nat.div_lt_of_lt_mul (Nat.lt_of_lt_of_le h ?_), by rw [locate, if_neg (by omega)]⟩
  rw [hostCount, ← Word.wrap_wrap_mul]
  exact Word.wrap_le _

/-- The parts of the address of a host are those of its number. -/
theorem locate_of_lt (hw : p.hosts * p.routers * p.groups < 2 ^ 64) (h : host < p.hostCount) :
    p.locate host =
      .ok (.ofParts (p.groupOf (host / p.hosts)) (p.positionOf (host / p.hosts)) (host % p.hosts)) := by
  have hgroups : 0 < p.groups := by
    rw [hostCount_eq hw] at h
    exact Nat.pos_of_lt_mul_left h
  rw [locate, if_neg (by omega), Word.wrap_of_lt (Nat.lt_of_le_of_lt (Nat.le_mul_of_pos_right _ hgroups) hw),
    ← groupOf_div_hosts]
  rfl

/-! ### Ports -/

theorem classOf?_host (h : port < p.hosts) : p.classOf? port = some .host := if_pos h

theorem classOf?_host_iff : p.classOf? port = some .host ↔ port < p.hosts := by
  rw [classOf?, firstSibling]
  split
  · next h => exact ⟨fun _ => h, fun _ => rfl⟩
  · next h =>
    split
    · exact ⟨fun h' => (by cases h'), fun h' => absurd h' h⟩
    · split <;> exact ⟨fun h' => (by cases h'), fun h' => absurd h' h⟩

theorem classOf?_sibling (h : p.hosts ≤ port) (h' : port < p.firstExit) :
    p.classOf? port = some .sibling := by
  rw [classOf?, firstSibling, if_neg (by omega), if_pos h']

theorem classOf?_exit_iff (hh : 0 < p.hosts) (hr : 0 < p.routers) :
    p.classOf? port = some .exit ↔ p.firstExit ≤ port ∧ port < p.portEnd := by
  rw [classOf?, firstSibling]
  split
  · rw [firstExit]
    constructor
    · intro h
      cases h
    · omega
  · split
    · constructor
      · intro h
        cases h
      · omega
    · split
      · next h => exact ⟨fun _ => h, fun _ => rfl⟩
      · next h => exact ⟨fun h' => (by cases h'), fun h' => absurd h' h⟩

/-- The ports of a router are those that have a class. -/
theorem lt_radix_of_classOf? {c : PortClass} (hr : 0 < p.routers) (h : p.classOf? port = some c) :
    port < p.radix := by
  rw [classOf?, firstSibling, portEnd] at h
  rw [radix]
  split at h
  · omega
  · split at h
    · next hlt =>
      rw [firstExit] at hlt
      omega
    · split at h
      · next hexit =>
        rw [firstExit] at hexit
        omega
      · cases h

theorem classOf?_ne_none (h : port < p.radix) : p.classOf? port ≠ none := by
  rw [classOf?, firstSibling, portEnd]
  rw [radix, ← firstExit] at h
  split
  · exact Option.some_ne_none _
  · split
    · exact Option.some_ne_none _
    · rw [if_pos (by omega)]
      exact Option.some_ne_none _

theorem classOf_ok {c : PortClass} (h : p.classOf? port = some c) : p.classOf port = .ok c := by
  rw [classOf, h]

theorem bounds_of_sibling (h : p.classOf? port = some .sibling) : p.hosts ≤ port ∧ port < p.firstExit := by
  rw [classOf?, firstSibling] at h
  split at h
  · cases h
  · split at h
    · omega
    · split at h <;> cases h

/-! ### Siblings -/

theorem siblingBehind_portToSibling (h : position ≠ other) :
    p.siblingBehind position (p.portToSibling position other) = other := by
  simp only [siblingBehind, portToSibling]
  split <;> split <;> omega

theorem siblingBehind_ne (position : Nat) (h : p.classOf? port = some .sibling) :
    p.siblingBehind position port ≠ position := by
  have hb := bounds_of_sibling h
  simp only [siblingBehind]
  split <;> omega

theorem portToSibling_siblingBehind (h : p.classOf? port = some .sibling) :
    p.portToSibling position (p.siblingBehind position port) = port := by
  have hb := bounds_of_sibling h
  simp only [siblingBehind, portToSibling]
  split <;> split <;> omega

theorem siblingBehind_lt (h : p.classOf? port = some .sibling) (hp : position < p.routers) :
    p.siblingBehind position port < p.routers := by
  have hb := bounds_of_sibling h
  rw [firstExit] at hb
  simp only [siblingBehind]
  split <;> omega

theorem classOf?_portToSibling (h : position ≠ other) (hp : position < p.routers)
    (ho : other < p.routers) : p.classOf? (p.portToSibling position other) = some .sibling := by
  have hb : p.hosts ≤ p.portToSibling position other ∧ p.portToSibling position other < p.firstExit := by
    rw [portToSibling, firstExit]
    split <;> omega
  exact classOf?_sibling hb.1 hb.2

end DragonflyFabric.Parameters
