import DragonflyFabric.Proofs.Blame
import DragonflyFabric.Proofs.Wiring.Returns
import Mathlib.Tactic.Push
import Mathlib.Tactic.ByContra

/-!
# The audit passes for matched wires

In a network whose wires lead nowhere outside, the audit passes exactly if all ports are matched: the class of the wire
is below the bound, and what the port leads to leads back to it, by a wire of that class. Otherwise it fails by the
fault of a port that is not: `audit_ok_iff_matched`.

The audit looks at one port at a time. What it comes to for the whole network is that no two ports lead to the same
place (`Matched.injective`), and that going to the other end of a wire between routers and back again is to stay
(`Matched.opposite_opposite`). A port may lead to itself, and is then its own other end.
-/

namespace DragonflyFabric.Wiring

variable {w : Wiring} {bound : Option Nat} {router port router' port' : Nat} {link link' : Link} {peer : Peer}
  {why : WiringFault}

/-- A place of the network. -/
def Inside (w : Wiring) : Peer → Prop
  | .router index port => index < w.routerCount ∧ port < w.ports index
  | .server index => index < w.serverCount
  | .nothing => True

instance : DecidablePred w.Inside
  | .router _ _ => inferInstanceAs (Decidable (_ ∧ _))
  | .server _ => inferInstanceAs (Decidable (_ < _))
  | .nothing => inferInstanceAs (Decidable True)

/-- Every port and every server is described, and leads to no place outside. -/
structure Closed (w : Wiring) : Prop where
  ports : ∀ router port, router < w.routerCount → port < w.ports router →
    ∃ link, w.link? router port = some link ∧ w.Inside link.peer
  servers : ∀ server < w.serverCount, ∃ link, w.serverLink? server = some link ∧ w.Inside link.peer

/-- What a place leads to. -/
def facing (w : Wiring) : Peer → Option Link
  | .router index port => w.link? index port
  | .server index => w.serverLink? index
  | .nothing => none

/-- The class of the wire is below the bound, and the place that the port leads to, if there is one, leads back by a
wire of that class. -/
structure Matches (w : Wiring) (bound : Option Nat) (router port : Nat) (link : Link) : Prop where
  kind_lt : ∀ limit, bound = some limit → link.kind < limit
  facing_eq : link.peer ≠ .nothing → w.facing link.peer = some ⟨.router router port, link.kind⟩

/-- All ports are matched. -/
def Matched (w : Wiring) (bound : Option Nat) : Prop :=
  ∀ router port link, router < w.routerCount → port < w.ports router → w.link? router port = some link →
    w.Matches bound router port link

/-- What is wrong with a port that is not matched. -/
inductive Offends (w : Wiring) (bound : Option Nat) (router port : Nat) (link : Link) : WiringFault → Prop
  | kindOutOfBound {limit : Nat} : bound = some limit → limit ≤ link.kind →
    Offends w bound router port link (.kindOutOfBound link.kind limit port router)
  | noReturn {reverse : Link} : w.facing link.peer = some reverse → reverse.peer ≠ .router router port →
    Offends w bound router port link (.noReturn router port link.peer reverse.peer)
  | kindsDiffer {reverse : Link} : w.facing link.peer = some reverse → reverse.peer = .router router port →
    link.kind ≠ reverse.kind → Offends w bound router port link (.kindsDiffer port router link.kind reverse.kind)

/-! ### One port -/

theorem back_of_facing {reverse : Link} (h : w.facing peer = some reverse) : w.back peer = .ok (some reverse) := by
  cases peer with
  | router index port => rw [back, show w.link? index port = some reverse from h]; rfl
  | server index => rw [back, show w.serverLink? index = some reverse from h]; rfl
  | nothing => cases h

/-- What is at a place of the network can be asked. -/
theorem Closed.exists_facing (h : w.Closed) (hin : w.Inside peer) (hpeer : peer ≠ .nothing) :
    ∃ reverse, w.facing peer = some reverse := by
  cases peer with
  | router index port =>
    obtain ⟨reverse, hreverse, -⟩ := h.ports index port hin.1 hin.2
    exact ⟨reverse, hreverse⟩
  | server index =>
    obtain ⟨reverse, hreverse, -⟩ := h.servers index hin
    exact ⟨reverse, hreverse⟩
  | nothing => exact absurd rfl hpeer

theorem auditPort_of_matches (hlink : w.link? router port = some link) (h : w.Matches bound router port link) :
    ∃ connected, w.auditPort bound router port = .ok connected := by
  by_cases hpeer : link.peer = .nothing
  · exact auditPort_of_back none hlink h.kind_lt (by rw [hpeer]; rfl) (by rintro _ ⟨⟩)
  · refine auditPort_of_back _ hlink h.kind_lt (back_of_facing (h.facing_eq hpeer)) ?_
    rintro _ ⟨⟩
    rfl

/-- **A port that is not matched fails the audit** by what is wrong with it. -/
theorem Closed.auditPort_of_not_matches (h : w.Closed) (hr : router < w.routerCount) (hp : port < w.ports router)
    (hlink : w.link? router port = some link) (hnot : ¬ w.Matches bound router port link) :
    ∃ why, w.Offends bound router port link why ∧ w.auditPort bound router port = .error (.wiring why) := by
  rw [auditPort, hlink]
  dsimp only
  -- the class is looked at before the way back
  by_cases hkind : ∀ limit, bound = some limit → link.kind < limit
  · have hpeer : link.peer ≠ .nothing := fun hnothing => hnot ⟨hkind, fun hne => absurd hnothing hne⟩
    obtain ⟨found, hfound, hin⟩ := h.ports router port hr hp
    obtain rfl := Option.some.inj (hlink.symm.trans hfound)
    obtain ⟨reverse, hreverse⟩ := h.exists_facing hin hpeer
    rw [checkKind_eq_ok hkind]
    dsimp only [bind, Except.bind]
    rw [back_of_facing hreverse]
    dsimp only
    rw [checkReturn]
    by_cases hreturn : reverse.peer = .router router port
    · have hdiffer : link.kind ≠ reverse.kind := by
        intro hsame
        refine hnot ⟨hkind, fun _ => ?_⟩
        rw [hreverse, ← hreturn, hsame]
      refine ⟨_, .kindsDiffer hreverse hreturn hdiffer, ?_⟩
      rw [if_neg (not_not_intro hreturn), if_pos hdiffer]
    · exact ⟨_, .noReturn hreverse hreturn, if_pos hreturn⟩
  · push Not at hkind
    obtain ⟨limit, rfl, hge⟩ := hkind
    have hle : limit ≤ link.kind := by omega
    refine ⟨_, .kindOutOfBound rfl hle, ?_⟩
    rw [checkKind, if_pos hle]
    rfl

/-! ### All ports -/

theorem Closed.ensures_matched (h : w.Closed) (bound : Option Nat) : Ensures (w.audit bound) fun _ => w.Matched bound := by
  intro s u s' hrun router port link hr hp hlink
  by_contra hnot
  obtain ⟨why, -, hwhy⟩ := h.auditPort_of_not_matches hr hp hlink hnot
  have hall : Ensures (w.audit bound) fun _ => ∀ place ∈ w.places,
      ∃ connected, w.auditPort bound place.1 place.2 = .ok connected := by
    refine Ensures.forM (fun place => ?_) w.places
    exact .bind (.lift fun connected hc => ⟨connected, hc⟩) fun _ hc _ _ _ _ => hc
  obtain ⟨connected, hconnected⟩ := hall s u s' hrun (router, port) (mem_places.mpr ⟨hr, hp⟩)
  rw [hwhy] at hconnected
  cases hconnected

/-- The audit fails by what is wrong with some port. -/
theorem Closed.blames_audit (h : w.Closed) (bound : Option Nat) : Blames (w.audit bound) fun fault =>
    ∃ router port link why, router < w.routerCount ∧ port < w.ports router ∧ w.link? router port = some link ∧
      w.Offends bound router port link why ∧ fault = .wiring why := by
  refine Blames.forM w.places fun place hplace => ?_
  obtain ⟨hr, hp⟩ := mem_places.mp hplace
  refine .bind (.lift fun fault hfault => ?_) fun connected => ?_
  · obtain ⟨link, hlink, -⟩ := h.ports place.1 place.2 hr hp
    by_cases hmatches : w.Matches bound place.1 place.2 link
    · obtain ⟨connected, hok⟩ := auditPort_of_matches hlink hmatches
      rw [hok] at hfault
      cases hfault
    · obtain ⟨why, hoffends, hwhy⟩ := h.auditPort_of_not_matches hr hp hlink hmatches
      rw [hwhy] at hfault
      exact ⟨place.1, place.2, link, why, hr, hp, hlink, hoffends, (Except.error.inj hfault).symm⟩
  · cases connected with
    | false => exact .warn _
    | true => exact .pure ()

/-- Matched ports pass the audit, and no others do. -/
theorem Closed.decides_audit (h : w.Closed) (bound : Option Nat) : Decides (w.audit bound) (w.Matched bound) () where
  answers := by
    intro hmatched
    refine answers_audit fun router port hr hp => ?_
    obtain ⟨link, hlink, -⟩ := h.ports router port hr hp
    exact auditPort_of_matches hlink (hmatched router port link hr hp hlink)
  ensures s u s' hrun := ⟨h.ensures_matched bound s u s' hrun, rfl⟩

/-! ### The whole network -/

/-- **No two ports lead to one place.** -/
theorem Matched.injective (h : w.Matched bound) (hr : router < w.routerCount) (hp : port < w.ports router)
    (hr' : router' < w.routerCount) (hp' : port' < w.ports router') (hlink : w.link? router port = some link)
    (hlink' : w.link? router' port' = some link') (hpeer : link.peer ≠ .nothing) (hsame : link.peer = link'.peer) :
    router = router' ∧ port = port' := by
  have hback := (h router port link hr hp hlink).facing_eq hpeer
  have hback' := (h router' port' link' hr' hp' hlink').facing_eq (hsame ▸ hpeer)
  rw [hsame, hback'] at hback
  obtain ⟨hrouter, hport⟩ := Peer.router.inj (Link.mk.inj (Option.some.inj hback)).1
  exact ⟨hrouter.symm, hport.symm⟩

/-- A port of a router that leads to a port of a router. -/
def Joins (w : Wiring) (place : Nat × Nat) : Prop :=
  place ∈ w.places ∧ ∃ (other : Nat × Nat) (kind : Nat), w.link? place.1 place.2 = some ⟨.router other.1 other.2, kind⟩

/-- The other end of the wire at a port, if that is a port too. -/
def opposite (w : Wiring) (place : Nat × Nat) : Nat × Nat :=
  match w.link? place.1 place.2 with
  | some ⟨.router other otherPort, _⟩ => (other, otherPort)
  | _ => place

theorem opposite_of_link? {place other : Nat × Nat} {kind : Nat}
    (h : w.link? place.1 place.2 = some ⟨.router other.1 other.2, kind⟩) : w.opposite place = other := by
  rw [opposite, h]

/-- The other end of a wire between routers has the same wire. -/
theorem Matched.link?_opposite (h : w.Matched bound) {place : Nat × Nat} (hjoins : w.Joins place) :
    ∃ kind, w.link? place.1 place.2 = some ⟨.router (w.opposite place).1 (w.opposite place).2, kind⟩ ∧
      w.link? (w.opposite place).1 (w.opposite place).2 = some ⟨.router place.1 place.2, kind⟩ := by
  obtain ⟨hplace, other, kind, hlink⟩ := hjoins
  obtain ⟨hr, hp⟩ := mem_places.mp hplace
  rw [opposite_of_link? hlink]
  exact ⟨kind, hlink, (h place.1 place.2 _ hr hp hlink).facing_eq (by rintro ⟨⟩)⟩

theorem Matched.opposite_opposite (h : w.Matched bound) {place : Nat × Nat} (hjoins : w.Joins place) :
    w.opposite (w.opposite place) = place := by
  obtain ⟨kind, -, hback⟩ := h.link?_opposite hjoins
  exact opposite_of_link? hback

theorem Matched.joins_opposite (h : w.Matched bound) (hclosed : w.Closed) {place : Nat × Nat} (hjoins : w.Joins place) :
    w.Joins (w.opposite place) := by
  obtain ⟨kind, hlink, hback⟩ := h.link?_opposite hjoins
  obtain ⟨hr, hp⟩ := mem_places.mp hjoins.1
  obtain ⟨found, hfound, hin⟩ := hclosed.ports place.1 place.2 hr hp
  rw [hlink] at hfound
  cases hfound
  exact ⟨mem_places.mpr hin, place, kind, hback⟩

/-- **The audit passes exactly for matched wires,** and fails by what is wrong with some port otherwise. Where it
passes, no two ports lead to one place, and the ports between routers are joined in pairs. -/
theorem audit_ok_iff_matched (h : w.Closed) (bound : Option Nat) :
    ((w.audit bound).result = .ok () ↔ w.Matched bound) ∧
    (¬ w.Matched bound → ∃ router port link why, router < w.routerCount ∧ port < w.ports router ∧
      w.link? router port = some link ∧ w.Offends bound router port link why ∧
      (w.audit bound).result = .error (.wiring why)) ∧
    ((w.audit bound).result = .ok () →
      (∀ router port router' port' link link', router < w.routerCount → port < w.ports router →
        router' < w.routerCount → port' < w.ports router' → w.link? router port = some link →
        w.link? router' port' = some link' → link.peer ≠ .nothing → link.peer = link'.peer →
          router = router' ∧ port = port') ∧
      ∀ place, w.Joins place → w.Joins (w.opposite place) ∧ w.opposite (w.opposite place) = place ∧
        ∃ kind, w.link? place.1 place.2 = some ⟨.router (w.opposite place).1 (w.opposite place).2, kind⟩ ∧
          w.link? (w.opposite place).1 (w.opposite place).2 = some ⟨.router place.1 place.2, kind⟩) := by
  have hiff : (w.audit bound).result = .ok () ↔ w.Matched bound := by
    rw [(h.decides_audit bound).result_eq_ok_iff]
    exact and_iff_left rfl
  refine ⟨hiff, fun hnot => ?_, fun hok => ?_⟩
  · cases hresult : (w.audit bound).result with
    | ok u => exact absurd (hiff.mp hresult) hnot
    | error fault =>
      obtain ⟨router, port, link, why, hr, hp, hlink, hoffends, rfl⟩ := (h.blames_audit bound).of_result hresult
      exact ⟨router, port, link, why, hr, hp, hlink, hoffends, rfl⟩
  · have hmatched := hiff.mp hok
    constructor
    · intro router port router' port' link link' hr hp hr' hp' hlink hlink' hpeer hsame
      exact hmatched.injective hr hp hr' hp' hlink hlink' hpeer hsame
    · intro place hjoins
      exact ⟨hmatched.joins_opposite h hjoins, hmatched.opposite_opposite hjoins, hmatched.link?_opposite hjoins⟩

/-- A network given by lists is closed if all that its ports and servers lead to is there. -/
theorem closed_ofLists {routers : Array (Array Link)} {servers : Array Link}
    (hports : ∀ links ∈ routers, ∀ link ∈ links, (ofLists routers servers).Inside link.peer)
    (hservers : ∀ link ∈ servers, (ofLists routers servers).Inside link.peer) : (ofLists routers servers).Closed where
  ports router port hr hp := by
    have hlinks : routers[router]? = some routers[router] := Array.getElem?_eq_getElem hr
    have hp : port < routers[router].size := by simpa [Wiring.ports, ofLists, hlinks] using hp
    refine ⟨routers[router][port], ?_, hports _ (Array.getElem_mem hr) _ (Array.getElem_mem hp)⟩
    simp only [ofLists, hlinks, Option.bind_some, Array.getElem?_eq_getElem hp]
  servers server hs :=
    ⟨servers[server], Array.getElem?_eq_getElem hs, hservers _ (Array.getElem_mem hs)⟩

/-- Three routers in a row, with a server on the first one and a port of the last one left over. -/
def row : Wiring :=
  ofLists #[#[⟨.router 1 0, 0⟩, ⟨.server 0, 2⟩], #[⟨.router 0 0, 0⟩, ⟨.router 2 0, 1⟩], #[⟨.router 1 1, 1⟩, ⟨.nothing, 0⟩]]
    #[⟨.router 0 1, 2⟩]

/-- The audit passes for a bound of three and not for a lower one. -/
theorem audit_ok_iff_matched_row : row.Closed ∧ row.Matched (some 3) ∧ row.Joins (1, 1) ∧
    row.opposite (row.opposite (1, 1)) = (1, 1) ∧
    ∃ router port link why, row.Offends (some 2) router port link why ∧
      (row.audit (some 2)).result = .error (.wiring why) := by
  have h : row.Closed := closed_ofLists (by decide) (by decide)
  obtain ⟨hpass, -, hpairs⟩ := audit_ok_iff_matched h (some 3)
  have hok : (row.audit (some 3)).result = .ok () := ok_of_toOption (by decide +kernel)
  have hjoins : row.Joins (1, 1) := ⟨mem_places.mpr (by decide), (2, 0), 1, rfl⟩
  obtain ⟨hpass', hfail, -⟩ := audit_ok_iff_matched h (some 2)
  have hnot : ¬ row.Matched (some 2) := by
    intro hmatched
    exact absurd ((hmatched 0 1 ⟨.server 0, 2⟩ (by decide) (by decide) rfl).kind_lt 2 rfl) (by decide)
  obtain ⟨router, port, link, why, -, -, -, hoffends, hwhy⟩ := hfail hnot
  exact ⟨h, hpass.mp hok, hjoins, ((hpairs hok).2 (1, 1) hjoins).2.1, router, port, link, why, hoffends, hwhy⟩

end DragonflyFabric.Wiring
