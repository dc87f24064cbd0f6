import DragonflyFabric.Proofs.Outcome
import DragonflyFabric.Wiring.Audit

/-!
# Audited wires lead back

In a network that passed the audit, what a port leads to leads back to that port, by a wire of the same
class: `ensures_audit`. The audit asks for no more: `answers_audit`.
-/

namespace DragonflyFabric.Wiring

variable {w : Wiring} {bound : Option Nat} {router port : Nat} {link : Link}

/-- The wire behind a port comes back to it, from the port of a router or from a server. -/
def Returns (w : Wiring) (router port : Nat) : Prop :=
  ∀ link, w.link? router port = some link → ∃ reverse, w.back link.peer = .ok reverse ∧
    ∀ found, reverse = some found → found = ⟨.router router port, link.kind⟩

theorem mem_places : (router, port) ∈ w.places ↔ router < w.routerCount ∧ port < w.ports router := by
  simp [places]

theorem returns_of_auditPort {connected : Bool} (h : w.auditPort bound router port = .ok connected) :
    w.Returns router port := by
  intro link hlink
  rw [auditPort, hlink] at h
  dsimp only at h
  obtain ⟨_, -, h⟩ := ok_of_bind_ok h
  obtain ⟨reverse, hback, h⟩ := ok_of_bind_ok h
  refine ⟨reverse, hback, ?_⟩
  rintro ⟨peer, kind⟩ rfl
  rw [checkReturn] at h
  split at h
  · cases h
  · next hpeer =>
    split at h
    · cases h
    · next hkind =>
      obtain rfl : peer = .router router port := Decidable.not_not.mp hpeer
      obtain rfl : link.kind = kind := Decidable.not_not.mp hkind
      rfl

/-- A way back that there is leads somewhere. -/
theorem some_of_elim_eq_ok {target : Option Link} {reverse : Option Link}
    (h : target.elim (.error .abort) (.ok ∘ some) = (.ok reverse : Except Fault (Option Link))) :
    ∃ found, target = some found ∧ reverse = some found := by
  cases target with
  | none => cases h
  | some found =>
    cases h
    exact ⟨found, rfl, rfl⟩

/-- The wire to a port of a router is also the one from there. -/
theorem Returns.of_router (h : w.Returns router port) {next nextPort : Nat} (hlink : w.link? router port = some link)
    (hpeer : link.peer = .router next nextPort) : w.link? next nextPort = some ⟨.router router port, link.kind⟩ := by
  obtain ⟨reverse, hback, hfound⟩ := h link hlink
  rw [hpeer] at hback
  obtain ⟨found, hnext, rfl⟩ := some_of_elim_eq_ok hback
  rw [hnext, hfound found rfl]

/-- The wire to a server is also the one from there. -/
theorem Returns.of_server (h : w.Returns router port) {server : Nat} (hlink : w.link? router port = some link)
    (hpeer : link.peer = .server server) : w.serverLink? server = some ⟨.router router port, link.kind⟩ := by
  obtain ⟨reverse, hback, hfound⟩ := h link hlink
  rw [hpeer] at hback
  obtain ⟨found, hnext, rfl⟩ := some_of_elim_eq_ok hback
  rw [hnext, hfound found rfl]

/-- **Where the audit passed, every wire leads back.** -/
theorem ensures_audit (w : Wiring) (bound : Option Nat) :
    Ensures (w.audit bound) fun _ =>
      ∀ router port, router < w.routerCount → port < w.ports router → w.Returns router port := by
  have hall : Ensures (w.audit bound) fun _ => ∀ place ∈ w.places, w.Returns place.1 place.2 := by
    refine Ensures.forM (fun place => ?_) w.places
    exact .bind (.lift fun connected hc => returns_of_auditPort hc) fun connected hc _ _ _ _ => hc
  exact fun s u s' h router port hr hp => hall s u s' h (router, port) (mem_places.mpr ⟨hr, hp⟩)

theorem checkKind_eq_ok (h : ∀ limit, bound = some limit → link.kind < limit) :
    checkKind bound router port link = .ok () := by
  cases bound with
  | none => rfl
  | some limit => exact if_neg (Nat.not_le.mpr (h limit rfl))

/-- A port passes the audit if what it leads to leads back, by a wire of the same class. -/
theorem auditPort_of_back (reverse : Option Link) (hlink : w.link? router port = some link)
    (hkind : ∀ limit, bound = some limit → link.kind < limit) (hback : w.back link.peer = .ok reverse)
    (hreturn : ∀ found, reverse = some found → found = ⟨.router router port, link.kind⟩) :
    ∃ connected, w.auditPort bound router port = .ok connected := by
  rw [auditPort, hlink]
  dsimp only
  rw [checkKind_eq_ok hkind]
  dsimp only [bind, Except.bind]
  rw [hback]
  cases reverse with
  | none => exact ⟨false, rfl⟩
  | some found =>
    obtain rfl := hreturn found rfl
    refine ⟨true, ?_⟩
    dsimp only
    rw [checkReturn, if_neg (not_not_intro rfl), if_neg (not_not_intro rfl)]

/-- **The audit passes if every port does.** -/
theorem answers_audit (h : ∀ router port, router < w.routerCount → port < w.ports router →
    ∃ connected, w.auditPort bound router port = .ok connected) : Answers (w.audit bound) () := by
  refine Answers.forM w.places ?_
  rintro ⟨router, port⟩ hmem
  obtain ⟨hr, hp⟩ := mem_places.mp hmem
  obtain ⟨connected, hconnected⟩ := h router port hr hp
  refine Answers.bind (.lift hconnected) ?_
  cases connected with
  | false => exact .warn _
  | true => exact .pure _

end DragonflyFabric.Wiring
