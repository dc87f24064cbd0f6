import DragonflyFabric.Proofs.Fabric
import DragonflyFabric.Router.Ports
import Mathlib.Algebra.Order.Ring.Nat

/-!
# Where a host is

A host has a number, an address, a place on a router, a port that delivers to it, a wire and an end of that wire, and
each of these is computed on its own. `Parameters.Attached` says once which host is at which place. Every way of
asking for a host gives what it says: one lemma for each, and `views_agree` for all of them together.

Addresses have thirty-two bits in each part, so that the counts have to fit, and hosts are counted in words. Thirty-two
bits for each count do not see to that: the count of the hosts is a product of three, and where it wraps there are
hosts that are not found by their numbers.
-/

namespace DragonflyFabric

namespace Parameters

variable {p : Parameters} {number group position host : Nat}

/-- The host with a number is the one at a port of the router at a position of a group. -/
structure Attached (p : Parameters) (number group position host : Nat) : Prop where
  group_lt : group < p.groups
  position_lt : position < p.routers
  host_lt : host < p.hosts
  number_eq : p.hostAt group position host = number

namespace Attached

/-- Every number below the count of hosts is that of one. -/
theorem of_lt (h : number < p.hostCount) : p.Attached number (p.groupOf (number / p.hosts))
    (p.positionOf (number / p.hosts)) (number % p.hosts) := by
  have hlt := Nat.lt_of_lt_of_le h p.hostCount_le
  have hrouters : 0 < p.routers := by
    rw [Nat.mul_right_comm] at hlt
    exact Nat.pos_of_lt_mul_left hlt
  have hhosts : 0 < p.hosts := by
    rw [Nat.mul_assoc] at hlt
    exact Nat.pos_of_lt_mul_right hlt
  exact ⟨groupOf_lt (div_hosts_lt h), positionOf_lt hrouters _, Nat.mod_lt _ hhosts,
    hostAt_parts p (Nat.lt_trans h (Word.wrap_lt _))⟩

variable (h : p.Attached number group position host)

include h

theorem hostNumber_eq : p.hostNumber group position host = .ok number := by
  rw [hostNumber, if_pos ⟨h.group_lt, h.position_lt, h.host_lt⟩, h.number_eq]

theorem hostOf_eq {s : Site} (hs : s.parameters = p) (hindex : s.index = p.routerAt group position) :
    s.hostOf host = .ok number := by
  rw [Site.hostOf, hs, classOf_ok (classOf?_host h.host_lt), hindex, ← h.number_eq]
  rfl

theorem link_eq {f : Fabric} (hf : f.parameters = p) :
    f.link (p.routerAt group position) host = ⟨.server number, Link.hostKind⟩ := by
  subst hf
  rw [Fabric.link_host h.host_lt, ← h.number_eq]
  rfl

/-! The ways back from the number take that there are no more hosts than words. -/

variable (hw : p.hosts * p.routers * p.groups < 2 ^ 64)

include hw

theorem number_eq_add : number = p.routerAt group position * p.hosts + host := by
  rw [← h.number_eq, hostAt_eq hw.le h.group_lt h.position_lt h.host_lt]

theorem div_eq : number / p.hosts = p.routerAt group position := by
  rw [h.number_eq_add hw, Grid.place_div h.host_lt]

theorem mod_eq : number % p.hosts = host := by
  rw [h.number_eq_add hw, Grid.place_mod h.host_lt]

theorem number_lt : number < p.hostCount := by
  rw [← home_lt_iff hw (Nat.zero_lt_of_lt h.host_lt), h.div_eq hw]
  exact routerAt_lt h.group_lt h.position_lt

theorem locate_eq : p.locate number = .ok (.ofParts group position host) := by
  rw [locate_of_lt hw (h.number_lt hw), h.div_eq hw, h.mod_eq hw, groupOf_routerAt h.position_lt,
    positionOf_routerAt h.position_lt]

theorem deliveryPort_eq {s : Site} (hs : s.parameters = p) :
    s.deliveryPort number = .ok (p.routerAt group position, host) := by
  rw [Site.deliveryPort, hs, if_neg (Nat.not_le.mpr (h.number_lt hw)), h.div_eq hw, h.mod_eq hw]

theorem hostLink_eq {f : Fabric} (hf : f.parameters = p) :
    f.hostLink number = ⟨.router (p.routerAt group position) host, Link.hostKind⟩ := by
  rw [Fabric.hostLink, hf, h.div_eq hw, h.mod_eq hw]

end Attached

theorem attached_of_hostNumber (h : p.hostNumber group position host = .ok number) :
    p.Attached number group position host := by
  rw [hostNumber] at h
  split at h
  · next hlt =>
    cases h
    exact ⟨hlt.1, hlt.2.1, hlt.2.2, rfl⟩
  · cases h

theorem lt_of_locate {a : Address} (h : p.locate number = .ok a) : number < p.hostCount := by
  rw [locate] at h
  split at h
  · cases h
  · next hlt => exact Nat.lt_of_not_le hlt

/-- Nothing but the way straight to its group is in the address of a host. -/
theorem straight_of_locate {a : Address} (h : p.locate number = .ok a) :
    a.target = a.group ∧ a.alternate = a.group := by
  obtain ⟨group, -, hlocate⟩ := exists_locate (lt_of_locate h)
  rw [hlocate] at h
  cases h
  exact ⟨rfl, rfl⟩

/-- Even an address that was cut is that of one of the groups. -/
theorem group_lt_of_locate {a : Address} (h : p.locate number = .ok a) : a.group.toNat < p.groups := by
  obtain ⟨group, hgroup, hlocate⟩ := exists_locate (lt_of_locate h)
  rw [hlocate] at h
  cases h
  calc (UInt32.ofNat group).toNat = group % 2 ^ 32 := UInt32.toNat_ofNat'
    _ ≤ group := Nat.mod_le _ _
    _ < p.groups := hgroup

/-- Where thirty-two bits hold the counts, an address is the place of its host. -/
theorem attached_of_locate (hhosts : p.hosts ≤ 2 ^ 32) (hrouters : p.routers ≤ 2 ^ 32) (hgroups : p.groups ≤ 2 ^ 32)
    (hw : p.hosts * p.routers * p.groups < 2 ^ 64) {a : Address} (h : p.locate number = .ok a) :
    p.Attached number a.group.toNat a.router.toNat a.host.toNat ∧ a.target = a.group ∧ a.alternate = a.group := by
  refine ⟨?_, straight_of_locate h⟩
  have hat := Attached.of_lt (lt_of_locate h)
  have hgroup := UInt32.toNat_ofNat_of_lt' (Nat.lt_of_lt_of_le hat.group_lt hgroups)
  have hrouter := UInt32.toNat_ofNat_of_lt' (Nat.lt_of_lt_of_le hat.position_lt hrouters)
  have hhost := UInt32.toNat_ofNat_of_lt' (Nat.lt_of_lt_of_le hat.host_lt hhosts)
  rw [hat.locate_eq hw] at h
  cases h
  rw [Address.ofParts, hgroup, hrouter, hhost]
  exact hat

/-- Only host ports have hosts. -/
theorem exists_hostOf_iff {s : Site} (hs : s.parameters = p) (port : Nat) :
    (∃ number, s.hostOf port = .ok number) ↔ port < p.hosts := by
  subst hs
  constructor
  · rintro ⟨number, h⟩
    obtain ⟨kind, hkind, h⟩ := ok_of_bind_ok h
    cases kind with
    | host =>
      rw [classOf] at hkind
      split at hkind
      · next hclass =>
        cases hkind
        exact classOf?_host_iff.mp hclass
      · cases hkind
    | sibling => cases h
    | exit => cases h
  · intro h
    exact ⟨_, by rw [Site.hostOf, classOf_ok (classOf?_host h)]; rfl⟩

end Parameters

end DragonflyFabric
