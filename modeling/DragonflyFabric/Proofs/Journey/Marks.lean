import DragonflyFabric.Proofs.Journey.Basic
import Mathlib.Data.List.Destutter

/-!
# What is seen of a journey

Of each leg a `Mark` is seen. The marks of every journey are put together of the same pieces:
`Mark.crossing` leads out of a group, by its gate, into another one, and `Mark.arrival` leads to the host once
the group of the destination is reached. Each piece may take a hop to another router of the group first.

* `Climbs`: each wire between groups takes the packet to the next channel, and no other one does.
* `Alternates`: of two wires to other routers that follow each other, one is between groups.
-/

namespace DragonflyFabric

/-- What is seen of a leg: the group it leaves from, the class of the wire to the next router, the channel
and the label it leaves with, and the groups the packet was heading for when it came and when it left. -/
structure Mark where
  group : Nat
  wire : Option Nat
  channel : Nat
  label : Nat
  came : Nat
  left : Nat
  deriving DecidableEq

/-- A turn away from a group. -/
def Mark.turnsFrom (group : Nat) (m : Mark) : Bool := m.came = group && m.left ≠ group

namespace Fabric

/-- What is seen of a leg. -/
def mark (f : Fabric) (l : Leg) : Mark where
  group := f.parameters.groupOf l.router
  wire := f.wire? l
  channel := l.egress.channel
  label := l.egress.label
  came := l.before.dest.target.toNat
  left := l.after.dest.target.toNat

/-- The packet comes to a host, and of its legs these marks are seen. -/
def Traces (f : Fabric) (met : Nat → Nat → Router) (server hop index : Nat) (k : Packet)
    (marks : List Mark) : Prop :=
  ∃ legs, f.Delivers met server hop index k legs ∧ legs.map f.mark = marks

/-- The mark of a leg that stands in its place when the journey is not cut short either. -/
theorem getElem?_mark {f : Fabric} {legs : List Leg} {limit i : Nat} {leg : Leg}
    (h : (legs.take limit)[i]? = some leg) : (legs.map f.mark)[i]? = some (f.mark leg) := by
  rw [List.getElem?_take] at h
  split at h
  · rw [List.getElem?_map, h]
    rfl
  · cases h

theorem wires_eq (f : Fabric) (legs : List Leg) : f.wires legs = (legs.map f.mark).filterMap Mark.wire := by
  rw [List.filterMap_map]
  rfl

theorem visited_eq (f : Fabric) (legs : List Leg) :
    f.visited legs = ((legs.map f.mark).map Mark.group).destutter (· ≠ ·) := by
  rw [List.map_map]
  rfl

theorem wiresOf_eq (f : Fabric) (group : Nat) (legs : List Leg) :
    f.wiresOf group legs = ((legs.map f.mark).filter (·.group = group)).filterMap Mark.wire := by
  rw [wiresOf, wires_eq, List.filter_map]
  rfl

theorem countP_turnsFrom_eq (f : Fabric) (group : Nat) (legs : List Leg) :
    legs.countP (Leg.turnsFrom group) = (legs.map f.mark).countP (Mark.turnsFrom group) := by
  rw [List.countP_map]
  rfl

end Fabric

/-! ### The pieces of a journey -/

namespace Mark

/-- Out of a group: straight through the gate, or to the gate first. -/
def crossing (group channel label came left : Nat) (aside : Bool) : List Mark :=
  if aside then
    [⟨group, some Link.localKind, channel, label, came, left⟩,
      ⟨group, some Link.globalKind, channel + 1, label, left, left⟩]
  else [⟨group, some Link.globalKind, channel + 1, label, came, left⟩]

/-- In the group of the destination: to the host, or to its router first. -/
def arrival (group channel : Nat) (aside : Bool) : List Mark :=
  if aside then
    [⟨group, some Link.localKind, channel, 0, group, group⟩, ⟨group, none, channel, 0, group, group⟩]
  else [⟨group, none, channel, 0, group, group⟩]

/-- Straight from one group to another. -/
def direct (source group channel : Nat) (aside aside' : Bool) : List Mark :=
  crossing source channel 0 group group aside ++ arrival group (channel + 1) aside'

/-- Toward the gate of the straight way, which may still be given up there. -/
def approach (source group channel : Nat) (hesitates : Bool) : List Mark :=
  if hesitates then [⟨source, some Link.localKind, channel, 0, group, group⟩] else []

/-- From one group to another through a third. -/
def detour (source through group channel came : Nat) (aside aside' aside'' : Bool) : List Mark :=
  crossing source channel 1 came through aside ++
    (crossing through (channel + 1) 1 through group aside' ++ arrival group (channel + 2) aside'')

/-! ### Wires and groups -/

variable {source through group channel label came left : Nat} {aside : Bool} {marks : List Mark}

/-- The wire of a hop within a group, if there is one. -/
def within (aside : Bool) : List Nat := if aside then [Link.localKind] else []

@[simp] theorem count_within (aside : Bool) : (within aside).count Link.globalKind = 0 := by
  cases aside <;> rfl

theorem length_within_le (aside : Bool) : (within aside).length ≤ 1 := by
  cases aside <;> decide

theorem wires_arrival (group channel : Nat) (aside : Bool) :
    (arrival group channel aside).filterMap wire = within aside := by
  cases aside <;> rfl

theorem wires_crossing (group channel label came left : Nat) (aside : Bool) :
    (crossing group channel label came left aside).filterMap wire = within aside ++ [Link.globalKind] := by
  cases aside <;> rfl

theorem wires_approach (source group channel : Nat) (hesitates : Bool) :
    (approach source group channel hesitates).filterMap wire = within hesitates := by
  cases hesitates <;> rfl

theorem wires_direct (source group channel : Nat) (aside aside' : Bool) :
    (direct source group channel aside aside').filterMap wire =
      within aside ++ [Link.globalKind] ++ within aside' := by
  rw [direct, List.filterMap_append, wires_crossing, wires_arrival]

theorem wires_detour (source through group channel came : Nat) (aside aside' aside'' : Bool) :
    (detour source through group channel came aside aside' aside'').filterMap wire =
      within aside ++ [Link.globalKind] ++ (within aside' ++ [Link.globalKind] ++ within aside'') := by
  rw [detour, List.filterMap_append, List.filterMap_append, wires_crossing, wires_crossing, wires_arrival]

theorem length_wires_direct_le (source group channel : Nat) (aside aside' : Bool) :
    ((direct source group channel aside aside').filterMap wire).length ≤ 3 := by
  have h := length_within_le aside
  have h' := length_within_le aside'
  rw [wires_direct]
  simp only [List.length_append, List.length_singleton]
  omega

theorem length_wires_detour_le (source through group channel came : Nat) (aside aside' aside'' : Bool) :
    ((detour source through group channel came aside aside' aside'').filterMap wire).length ≤ 5 := by
  have h := length_within_le aside
  have h' := length_within_le aside'
  have h'' := length_within_le aside''
  rw [wires_detour]
  simp only [List.length_append, List.length_singleton]
  omega

theorem count_direct (source group channel : Nat) (aside aside' : Bool) :
    ((direct source group channel aside aside').filterMap wire).count Link.globalKind = 1 := by
  rw [wires_direct]
  simp only [List.count_append, count_within, List.count_singleton_self]

theorem count_detour (source through group channel came : Nat) (aside aside' aside'' : Bool) :
    ((detour source through group channel came aside aside' aside'').filterMap wire).count Link.globalKind = 2 := by
  rw [wires_detour]
  simp only [List.count_append, count_within, List.count_singleton_self]

/-! ### Groups -/

theorem visited_detour (h : source ≠ through) (h' : through ≠ group) (channel came : Nat)
    (hesitates aside aside' aside'' : Bool) :
    ((approach source group channel hesitates ++
      detour source through group channel came aside aside' aside'').map Mark.group).destutter (· ≠ ·) =
      [source, through, group] := by
  cases hesitates <;> cases aside <;> cases aside' <;> cases aside'' <;>
    simp [approach, detour, crossing, arrival, List.destutter, List.destutter', h, h']

theorem length_arrival_le (group channel : Nat) (aside : Bool) : (arrival group channel aside).length ≤ 2 := by
  cases aside <;> simp [arrival]

theorem length_approach_le (source group channel : Nat) (hesitates : Bool) :
    (approach source group channel hesitates).length ≤ 1 := by
  cases hesitates <;> simp [approach]

theorem length_direct_le (source group channel : Nat) (aside aside' : Bool) :
    (direct source group channel aside aside').length ≤ 4 := by
  cases aside <;> cases aside' <;> simp [direct, crossing, arrival]

theorem length_detour_le (source through group channel came : Nat) (aside aside' aside'' : Bool) :
    (detour source through group channel came aside aside' aside'').length ≤ 6 := by
  cases aside <;> cases aside' <;> cases aside'' <;> simp [detour, crossing, arrival]

/-- In the group of its destination a packet heads for it, without a label. -/
theorem of_mem_arrival {m : Mark} (h : m ∈ arrival group channel aside) :
    m.group = group ∧ m.label = 0 ∧ m.came = group ∧ m.left = group := by
  cases aside with
  | false =>
    obtain rfl := List.mem_singleton.mp h
    exact ⟨rfl, rfl, rfl, rfl⟩
  | true =>
    rcases List.mem_pair.mp h with rfl | rfl
    · exact ⟨rfl, rfl, rfl, rfl⟩
    · exact ⟨rfl, rfl, rfl, rfl⟩

/-- Out of a group the packet heads for the next one once it was decided on. -/
theorem of_mem_crossing {m : Mark} (h : m ∈ crossing group channel label came left aside) :
    m.group = group ∧ m.label = label ∧ m.left = left ∧ (m.came = came ∨ m.came = left) := by
  cases aside with
  | false =>
    obtain rfl := List.mem_singleton.mp h
    exact ⟨rfl, rfl, rfl, .inl rfl⟩
  | true =>
    rcases List.mem_pair.mp h with rfl | rfl
    · exact ⟨rfl, rfl, rfl, .inl rfl⟩
    · exact ⟨rfl, rfl, rfl, .inr rfl⟩

/-- On a straight way a packet heads for its group all along, without a label. -/
theorem of_mem_direct {aside' : Bool} {m : Mark} (h : m ∈ direct source group channel aside aside') :
    m.label = 0 ∧ m.left = group := by
  rcases List.mem_append.mp h with hm | hm
  · obtain ⟨-, hlabel, hleft, -⟩ := of_mem_crossing hm
    exact ⟨hlabel, hleft⟩
  · obtain ⟨-, hlabel, -, hleft⟩ := of_mem_arrival hm
    exact ⟨hlabel, hleft⟩

/-- On a way through another group it heads for that group in the first one, and for its own in the other
two. It has a label until it comes there. -/
theorem of_mem_detour {aside' aside'' : Bool} {m : Mark}
    (h : m ∈ detour source through group channel came aside aside' aside'') :
    (m.group = source ∧ m.label = 1 ∧ m.left = through ∧ (m.came = came ∨ m.came = through)) ∨
      (m.group = through ∧ m.label = 1 ∧ m.left = group) ∨
      (m.group = group ∧ m.label = 0 ∧ m.left = group) := by
  rcases List.mem_append.mp h with hm | hm
  · exact .inl (of_mem_crossing hm)
  rcases List.mem_append.mp hm with hm | hm
  · obtain ⟨hgroup, hlabel, hleft, -⟩ := of_mem_crossing hm
    exact .inr (.inl ⟨hgroup, hlabel, hleft⟩)
  · obtain ⟨hgroup, hlabel, -, hleft⟩ := of_mem_arrival hm
    exact .inr (.inr ⟨hgroup, hlabel, hleft⟩)

theorem of_mem_approach {m : Mark} (h : m ∈ approach source group channel aside) :
    m.group = source ∧ m.came = group ∧ m.left = group := by
  cases aside with
  | false => cases h
  | true =>
    obtain rfl := List.mem_singleton.mp h
    exact ⟨rfl, rfl, rfl⟩

/-! ### Turns and hops in the source group -/

theorem left_ne_of_turnsFrom {m : Mark} (h : m.turnsFrom group = true) : m.left ≠ group := by
  intro heq
  simp [turnsFrom, heq] at h

theorem countP_turnsFrom_eq_zero (h : ∀ m ∈ marks, m.left = group) : marks.countP (turnsFrom group) = 0 :=
  List.countP_eq_zero.mpr fun m hm hturns => left_ne_of_turnsFrom hturns (h m hm)

/-- Only the first hop out of a group can be a turn. -/
theorem countP_turnsFrom_crossing_le (h : left ≠ group) (source channel label came : Nat) (aside : Bool) :
    (crossing source channel label came left aside).countP (turnsFrom group) ≤ 1 := by
  cases aside with
  | false => exact List.countP_le_length
  | true =>
    have hsecond : (⟨source, some Link.globalKind, channel + 1, label, left, left⟩ : Mark).turnsFrom group = false := by
      simp [turnsFrom, h]
    rw [crossing, if_pos rfl, List.countP_cons, List.countP_cons_of_neg (by simp [hsecond]), List.countP_nil]
    split <;> omega

theorem countP_turnsFrom_detour_le (h : through ≠ group) (source channel came : Nat) (aside aside' aside'' : Bool) :
    (detour source through group channel came aside aside' aside'').countP (turnsFrom group) ≤ 1 := by
  have hrest : (crossing through (channel + 1) 1 through group aside' ++
      arrival group (channel + 2) aside'').countP (turnsFrom group) = 0 := by
    refine countP_turnsFrom_eq_zero fun m hm => ?_
    rcases List.mem_append.mp hm with hm | hm
    · exact (of_mem_crossing hm).2.2.1
    · exact (of_mem_arrival hm).2.2.2
  rw [detour, List.countP_append, hrest, Nat.add_zero]
  exact countP_turnsFrom_crossing_le h source channel 1 came aside

theorem local_arrival_le (group channel : Nat) (aside : Bool) :
    (((arrival group channel aside).filter (·.group = group)).filterMap wire).count Link.localKind ≤ 1 := by
  cases aside <;> simp [arrival]

theorem local_direct_le (h : source ≠ group) (channel : Nat) (aside aside' : Bool) :
    (((direct source group channel aside aside').filter (·.group = source)).filterMap wire).count Link.localKind
      ≤ 1 := by
  cases aside <;> cases aside' <;> simp [direct, crossing, arrival, h.symm] <;> decide

theorem local_detour_le (h : source ≠ group) (h' : through ≠ source) (channel came : Nat)
    (hesitates aside aside' aside'' : Bool) :
    (((approach source group channel hesitates ++
      detour source through group channel came aside aside' aside'').filter (·.group = source)).filterMap
      wire).count Link.localKind ≤ 2 := by
  cases hesitates <;> cases aside <;> cases aside' <;> cases aside'' <;>
    simp [approach, detour, crossing, arrival, h.symm, h'] <;> decide

/-! ### Channels -/

/-- The channel of each mark is the one before, or the next one where a wire between groups is crossed. -/
def Climbs : Nat → List Mark → Prop
  | _, [] => True
  | channel, m :: marks =>
    m.channel = (if m.wire = some Link.globalKind then channel + 1 else channel) ∧ Climbs m.channel marks

theorem climbs_arrival (group channel : Nat) (aside : Bool) : Climbs channel (arrival group channel aside) := by
  cases aside with
  | false => exact ⟨rfl, trivial⟩
  | true => exact ⟨rfl, rfl, trivial⟩

theorem climbs_crossing (h : Climbs (channel + 1) marks) (group label came left : Nat) (aside : Bool) :
    Climbs channel (crossing group channel label came left aside ++ marks) := by
  cases aside with
  | false => exact ⟨rfl, h⟩
  | true => exact ⟨rfl, rfl, h⟩

theorem climbs_approach (h : Climbs channel marks) (source group : Nat) (hesitates : Bool) :
    Climbs channel (approach source group channel hesitates ++ marks) := by
  cases hesitates with
  | false => exact h
  | true => exact ⟨rfl, h⟩

theorem count_global_cons (m : Mark) (marks : List Mark) :
    ((m :: marks).filterMap wire).count Link.globalKind =
      (if m.wire = some Link.globalKind then 1 else 0) + (marks.filterMap wire).count Link.globalKind := by
  cases hw : m.wire with
  | none => rw [List.filterMap_cons_none hw, if_neg (by simp), Nat.zero_add]
  | some kind =>
    rw [List.filterMap_cons_some hw, List.count_cons, Nat.add_comm]
    simp

/-- **The channel is the first one and the number of wires between groups crossed so far.** -/
theorem Climbs.channel_eq {i : Nat} {m : Mark} (h : Climbs channel marks) (hm : marks[i]? = some m) :
    m.channel = channel + ((marks.take (i + 1)).filterMap wire).count Link.globalKind := by
  induction marks generalizing channel i with
  | nil => cases hm
  | cons first marks ih =>
    obtain ⟨hfirst, hrest⟩ := h
    rw [List.take_succ_cons, count_global_cons]
    cases i with
    | zero =>
      cases hm
      rw [hfirst, List.take_zero]
      split <;> rfl
    | succ i =>
      rw [ih hrest hm, hfirst]
      split <;> omega

/-- One step of the climb. -/
theorem Climbs.step {i : Nat} {a b : Mark} (h : Climbs channel marks) (ha : marks[i]? = some a)
    (hb : marks[i + 1]? = some b) :
    b.channel = if b.wire = some Link.globalKind then a.channel + 1 else a.channel := by
  induction marks generalizing channel i with
  | nil => cases ha
  | cons first marks ih =>
    obtain ⟨hfirst, hrest⟩ := h
    cases i with
    | zero =>
      cases ha
      cases marks with
      | nil => cases hb
      | cons second marks =>
        cases hb
        exact hrest.1
    | succ i => exact ih hrest ha hb

/-! ### Hops within a group -/

/-- Of two wires that are crossed one after the other, one is between groups. -/
def Alternates (marks : List Mark) : Prop :=
  marks.IsChain fun a b =>
    b.wire = none ∨ a.wire = some Link.globalKind ∨ b.wire = some Link.globalKind

theorem alternates_arrival (group channel : Nat) (aside : Bool) : Alternates (arrival group channel aside) := by
  cases aside with
  | false => exact List.isChain_singleton _
  | true => exact List.isChain_pair.mpr (.inl rfl)

theorem alternates_crossing (h : Alternates marks) (group channel label came left : Nat) (aside : Bool) :
    Alternates (crossing group channel label came left aside ++ marks) := by
  have hglobal (m : Mark) (hm : m.wire = some Link.globalKind) : Alternates (m :: marks) :=
    List.isChain_cons.mpr ⟨fun _ _ => .inr (.inl hm), h⟩
  cases aside with
  | false => exact hglobal _ rfl
  | true => exact List.isChain_cons_cons.mpr ⟨.inr (.inr rfl), hglobal _ rfl⟩

theorem alternates_direct (source group channel : Nat) (aside aside' : Bool) :
    Alternates (direct source group channel aside aside') :=
  alternates_crossing (alternates_arrival _ _ _) _ _ _ _ _ _

theorem alternates_detour (source through group channel came : Nat) (aside aside' aside'' : Bool) :
    Alternates (detour source through group channel came aside aside' aside'') :=
  alternates_crossing (alternates_crossing (alternates_arrival _ _ _) _ _ _ _ _ _) _ _ _ _ _ _

theorem Alternates.step {i : Nat} {a b : Mark} (h : Alternates marks) (ha : marks[i]? = some a)
    (hb : marks[i + 1]? = some b) :
    b.wire = none ∨ a.wire = some Link.globalKind ∨ b.wire = some Link.globalKind := by
  obtain ⟨_, rfl⟩ := List.getElem?_eq_some_iff.mp ha
  obtain ⟨hi, rfl⟩ := List.getElem?_eq_some_iff.mp hb
  exact List.IsChain.getElem h i hi

/-- A hop that is put in front can be followed by another one within the group, and no other hop can. -/
theorem Alternates.step_approach {i : Nat} {hesitates : Bool} {a b : Mark} (h : Alternates marks)
    (ha : (approach source group channel hesitates ++ marks)[i]? = some a)
    (hb : (approach source group channel hesitates ++ marks)[i + 1]? = some b) :
    (b.wire = none ∨ a.wire = some Link.globalKind ∨ b.wire = some Link.globalKind) ∨
      a = ⟨source, some Link.localKind, channel, 0, group, group⟩ ∧ marks[0]? = some b := by
  cases hesitates with
  | false => exact .inl (h.step ha hb)
  | true =>
    cases i with
    | zero =>
      cases ha
      exact .inr ⟨rfl, hb⟩
    | succ i => exact .inl (h.step ha hb)

/-- The first hop of a detour leaves the group or stays in the channel. -/
theorem of_first_detour {aside' aside'' : Bool} {m : Mark}
    (h : (detour source through group channel came aside aside' aside'')[0]? = some m) :
    m.group = source ∧ (m.wire = some Link.globalKind ∨ m.channel = channel) := by
  cases aside with
  | false =>
    cases h
    exact ⟨rfl, .inl rfl⟩
  | true =>
    cases h
    exact ⟨rfl, .inr rfl⟩

end Mark

end DragonflyFabric
