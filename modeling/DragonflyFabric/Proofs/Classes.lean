import DragonflyFabric.ChannelPlan
import DragonflyFabric.Proofs.Outcome
import Mathlib.Algebra.BigOperators.Intervals
import Mathlib.Algebra.Order.BigOperators.Group.Finset
import Mathlib.Order.Interval.Finset.Nat

/-!
# Traffic classes lie one after another

A class starts where the channels of the classes before it end, and `ChannelPlan.before` counts these: its partial
sums of the widths are what the starts of a plan come to, `ChannelPlan.consecutive_of_make`. That partial sums
never fall is enough for the rest. The ranges of two classes do not meet, so that a channel determines its class;
those of the first so many classes have all channels below the next start, `ChannelPlan.Consecutive.biUnion_rangeOf`;
and the number of channels a router is asked for is the last of the partial sums, `ChannelPlan.total_eq_before`.

`ChannelPlan.channels_tiled` puts this together for the plans that are made.
-/

namespace DragonflyFabric

theorem TrafficClass.contains_iff {c : TrafficClass} {channel : Nat} :
    c.contains channel = true ↔ c.start ≤ channel ∧ channel < c.stop := by
  simp [contains]

namespace ChannelPlan

open Finset

variable {plan : ChannelPlan} {count start index channel channels : Nat} {algorithms each : List Algorithm}
  {c : TrafficClass}

/-! ### Classes laid out -/

theorem channels_of_layOut (h : (layOut start algorithms)[index]? = some c) :
    c.channels = c.algorithm.channels := by
  induction algorithms generalizing start index with
  | nil => simp [layOut] at h
  | cons a rest ih =>
    cases index with
    | zero =>
      rw [layOut, List.getElem?_cons_zero] at h
      cases h
      rfl
    | succ index =>
      rw [layOut, List.getElem?_cons_succ] at h
      exact ih h

@[simp] theorem length_layOut (start : Nat) (algorithms : List Algorithm) :
    (layOut start algorithms).length = algorithms.length := by
  induction algorithms generalizing start with
  | nil => rfl
  | cons a rest ih => rw [layOut, List.length_cons, ih, List.length_cons]

@[simp] theorem map_algorithm_layOut (start : Nat) (algorithms : List Algorithm) :
    (layOut start algorithms).map (·.algorithm) = algorithms := by
  induction algorithms generalizing start with
  | nil => rfl
  | cons a rest ih => rw [layOut, List.map_cons, ih]

theorem start_of_layOut (h : (layOut start algorithms)[index]? = some c) :
    c.start = start + ∑ earlier ∈ range index, (((layOut start algorithms).map (·.channels))[earlier]?).getD 0 := by
  induction algorithms generalizing start index with
  | nil => simp [layOut] at h
  | cons a rest ih =>
    cases index with
    | zero =>
      rw [layOut, List.getElem?_cons_zero] at h
      cases h
      rfl
    | succ index =>
      rw [layOut, List.getElem?_cons_succ] at h
      rw [ih h, layOut, List.map_cons, sum_range_succ', List.getElem?_cons_zero, Option.getD_some]
      simp only [List.getElem?_cons_succ]
      omega

/-! ### The plan that is made -/

/-- What the plan of so many classes for some algorithms is, and when there is one. -/
theorem make_eq_ok_iff : make count algorithms = .ok plan ↔
    0 < count ∧ algorithms.length ≤ count ∧ Storage.holds count 24 = true ∧
      ∃ each, assign count algorithms = .ok each ∧ plan = ⟨(layOut 0 each).toArray⟩ := by
  constructor
  · intro h
    rw [make] at h
    dsimp only at h
    split at h
    · cases h
    next hcount =>
      split at h
      · cases h
      next hlength =>
        split at h
        · cases h
        next hroom =>
          obtain ⟨each, heach, h⟩ := ok_of_bind_ok h
          cases h
          exact ⟨Nat.pos_of_ne_zero hcount, Nat.le_of_not_lt hlength, by simpa using hroom, each, heach, rfl⟩
  · rintro ⟨hcount, hlength, hroom, each, heach, rfl⟩
    rw [make]
    dsimp only
    rw [if_neg (Nat.ne_of_gt hcount), if_neg (Nat.not_lt.mpr hlength), hroom]
    exact congrArg (· >>= _) heach

theorem length_of_assign (h : assign count algorithms = .ok each)
    (hle : algorithms.length ≤ count) : each.length = count := by
  rcases algorithms with - | ⟨a, - | ⟨b, rest⟩⟩
  · rw [assign] at h
    · split at h
      · cases h
      · next hcount =>
        cases h
        exact (Nat.eq_zero_of_not_pos hcount).symm
    · exact fun a h => by cases h
  · cases h
    exact List.length_replicate
  · simp only [assign] at h
    split at h
    · cases h
    · cases h
      omega

/-- The only algorithm is that of every class. -/
theorem getElem?_of_assign (h : assign count algorithms = .ok each) (hlt : index < count) :
    each[index]? = algorithms[if algorithms.length = 1 then 0 else index]? := by
  rcases algorithms with - | ⟨a, - | ⟨b, rest⟩⟩
  · rw [assign, List.length_nil, if_pos (Nat.zero_lt_of_lt hlt)] at h
    · cases h
    · exact fun a h => by cases h
  · cases h
    rw [if_pos List.length_singleton, List.getElem?_replicate_of_lt hlt, List.getElem?_cons_zero]
  · simp only [assign] at h
    split at h
    · cases h
    · cases h
      rw [if_neg (by simp)]

/-- There is a class for each index below the count that was asked for. -/
theorem size_of_make (h : make count algorithms = .ok plan) : plan.size = count := by
  obtain ⟨-, hlength, -, each, heach, rfl⟩ := make_eq_ok_iff.mp h
  rw [size, List.size_toArray, length_layOut, length_of_assign heach hlength]

theorem exists_assign_iff (h : algorithms ≠ []) : (∃ each, assign count algorithms = .ok each) ↔
    algorithms.length = 1 ∨ count ≤ algorithms.length := by
  rcases algorithms with - | ⟨a, - | ⟨b, rest⟩⟩
  · exact absurd rfl h
  · exact ⟨fun _ => .inl rfl, fun _ => ⟨_, rfl⟩⟩
  · simp only [assign, List.length_cons]
    split
    · exact ⟨fun ⟨_, h⟩ => (by cases h), fun _ => by omega⟩
    · exact ⟨fun _ => .inr (by omega), fun _ => ⟨_, rfl⟩⟩

/-- There is a plan for one algorithm or for one algorithm each, as long as there is room for it. -/
theorem exists_make_iff (h : algorithms ≠ []) : (∃ plan, make count algorithms = .ok plan) ↔
    0 < count ∧ (algorithms.length = 1 ∨ algorithms.length = count) ∧ Storage.holds count 24 = true := by
  have hassign : (∃ each, assign count algorithms = .ok each) ↔ _ := exists_assign_iff h
  constructor
  · rintro ⟨plan, hplan⟩
    obtain ⟨hpos, hle, hroom, each, heach, -⟩ := make_eq_ok_iff.mp hplan
    have hlength := hassign.mp ⟨each, heach⟩
    exact ⟨hpos, by omega, hroom⟩
  · rintro ⟨hpos, hlength, hroom⟩
    obtain ⟨each, heach⟩ := hassign.mpr (by omega)
    exact ⟨_, make_eq_ok_iff.mpr ⟨hpos, by omega, hroom, each, heach, rfl⟩⟩

/-! ### Classes of a plan -/

theorem get_of_lt (h : index < plan.size) : ∃ c, plan.get index = .ok c :=
  ⟨_, by rw [get, Array.getElem?_eq_getElem h]⟩

theorem get_of_le (h : plan.size ≤ index) : plan.get index = .error (.noAlgorithm index) := by
  rw [get, Array.getElem?_eq_none h]

theorem lt_size_of_get (h : plan.get index = .ok c) : index < plan.size := by
  refine Nat.lt_of_not_le fun hle => ?_
  rw [get_of_le hle] at h
  cases h

theorem getElem?_of_get (h : plan.get index = .ok c) : plan.classes[index]? = some c := by
  rw [get] at h
  split at h
  · next hc =>
    cases h
    exact hc
  · cases h

/-- The class that is found for a channel is one of the plan, and has the channel. -/
theorem of_classOf (h : plan.classOf channel = .ok (index, c)) :
    plan.get index = .ok c ∧ c.contains channel = true := by
  rw [classOf] at h
  split at h
  · next c' index' hfind =>
    cases h
    have hmem := List.mem_zipIdx_iff_getElem?.mp (List.mem_of_find?_eq_some hfind)
    rw [Array.getElem?_toList] at hmem
    have hin := List.find?_some hfind
    exact ⟨by rw [get, hmem], hin⟩
  · cases h

theorem exists_classOf (hc : plan.get index = .ok c) (hin : c.contains channel = true) :
    ∃ found, plan.classOf channel = .ok found := by
  rw [classOf]
  split
  · exact ⟨_, rfl⟩
  · next hnone =>
    have hmem : (c, index) ∈ plan.classes.toList.zipIdx := by
      rw [List.mem_zipIdx_iff_getElem?, Array.getElem?_toList, getElem?_of_get hc]
    exact absurd hin (List.find?_eq_none.mp hnone _ hmem)

/-! ### Widths and partial sums -/

section Widths

variable (plan : ChannelPlan)

/-- The number of channels of a class, none if there is no such class. -/
def width (index : Nat) : Nat := (plan.channelsOf index).toOption.getD 0

/-- The number of channels of the classes before one. -/
def before (index : Nat) : Nat := ∑ earlier ∈ range index, plan.width earlier

/-- The channels of a class. -/
def rangeOf (index : Nat) : Finset Nat :=
  match plan.get index with
  | .ok c => Ico c.start c.stop
  | .error _ => ∅

theorem monotone_before : Monotone plan.before :=
  fun _ _ h => sum_le_sum_of_subset (range_subset_range.mpr h)

theorem before_succ (index : Nat) : plan.before (index + 1) = plan.before index + plan.width index :=
  sum_range_succ plan.width index

end Widths

theorem width_eq_getD : plan.width index = ((plan.classes.toList.map (·.channels))[index]?).getD 0 := by
  rw [width, channelsOf, get, List.getElem?_map, Array.getElem?_toList]
  cases plan.classes[index]? <;> rfl

theorem channelsOf_of_get (h : plan.get index = .ok c) : plan.channelsOf index = .ok c.channels := by
  rw [channelsOf, h]
  rfl

theorem width_of_get (h : plan.get index = .ok c) : plan.width index = c.channels := by
  rw [width, channelsOf_of_get h]
  rfl

theorem width_of_le (h : plan.size ≤ index) : plan.width index = 0 := by
  rw [width, channelsOf, get_of_le h]
  rfl

theorem mem_rangeOf_iff : channel ∈ plan.rangeOf index ↔ ∃ c, plan.get index = .ok c ∧ c.contains channel = true := by
  rw [rangeOf]
  cases plan.get index with
  | error => simp
  | ok c => simp [TrafficClass.contains_iff]

theorem foldr_channels (classes : List TrafficClass) : classes.foldr (fun c n => c.channels + n) 0 =
    ∑ index ∈ range classes.length, ((classes.map (·.channels))[index]?).getD 0 := by
  induction classes with
  | nil => rfl
  | cons c rest ih =>
    rw [List.foldr_cons, ih, List.length_cons, sum_range_succ', Nat.add_comm]
    rfl

/-- The channels of all classes, added up from the last class on, are the last partial sum. -/
theorem total_eq_before : plan.total = plan.before plan.size := by
  rw [total, foldr_channels, Array.length_toList]
  exact sum_congr rfl fun _ _ => width_eq_getD.symm

theorem map_width_range : (List.range plan.size).map plan.width = plan.classes.toList.map (·.channels) := by
  refine List.ext_getElem (by simp [size]) fun index hl hr => ?_
  rw [List.getElem_map, List.getElem_range, width_eq_getD, List.getElem?_eq_getElem hr, Option.getD_some]

/-! ### Consecutive classes -/

/-- A plan whose classes start where those before them end. -/
def Consecutive (plan : ChannelPlan) : Prop := ∀ index c, plan.get index = .ok c → c.start = plan.before index

theorem consecutive_of_make (h : make count algorithms = .ok plan) : plan.Consecutive := by
  intro index c hc
  obtain ⟨-, -, -, each, -, rfl⟩ := make_eq_ok_iff.mp h
  have hget := getElem?_of_get hc
  rw [List.getElem?_toArray] at hget
  rw [start_of_layOut hget, Nat.zero_add, before]
  simp only [width_eq_getD]

namespace Consecutive

variable (h : plan.Consecutive)

include h

theorem stop_eq (hc : plan.get index = .ok c) : c.stop = plan.before (index + 1) := by
  rw [TrafficClass.stop, h index c hc, before_succ, width_of_get hc]

/-- The channels of a class lie between two partial sums, whether there is such a class or not. -/
theorem rangeOf_eq (index : Nat) : plan.rangeOf index = Ico (plan.before index) (plan.before (index + 1)) := by
  rw [rangeOf]
  rcases Nat.lt_or_ge index plan.size with hlt | hle
  · obtain ⟨c, hc⟩ := get_of_lt hlt
    rw [hc, ← h index c hc, ← h.stop_eq hc]
  · rw [get_of_le hle, before_succ, width_of_le hle, Nat.add_zero, Ico_self]

theorem disjoint_of_lt {first second : Nat} (hlt : first < second) :
    Disjoint (plan.rangeOf first) (plan.rangeOf second) := by
  rw [h.rangeOf_eq, h.rangeOf_eq]
  exact (Ico_disjoint_Ico_consecutive _ _ _).mono_right (Ico_subset_Ico_left (plan.monotone_before hlt))

theorem disjoint_of_ne {first second : Nat} (hne : first ≠ second) :
    Disjoint (plan.rangeOf first) (plan.rangeOf second) :=
  (Nat.lt_or_gt_of_ne hne).elim h.disjoint_of_lt fun hlt => (h.disjoint_of_lt hlt).symm

/-- The first so many classes have the channels below the next one's start. -/
theorem biUnion_rangeOf (count : Nat) : (range count).biUnion plan.rangeOf = range (plan.before count) := by
  induction count with
  | zero => rfl
  | succ count ih =>
    rw [range_add_one, biUnion_insert, ih, h.rangeOf_eq, range_eq_Ico, range_eq_Ico, union_comm,
      Ico_union_Ico_eq_Ico (Nat.zero_le _) (plan.monotone_before (Nat.le_succ count))]

theorem biUnion_rangeOf_size : (range plan.size).biUnion plan.rangeOf = range plan.total := by
  rw [h.biUnion_rangeOf, total_eq_before]

theorem exists_mem_rangeOf_iff : (∃ index, channel ∈ plan.rangeOf index) ↔ channel < plan.total := by
  rw [← mem_range, ← h.biUnion_rangeOf_size, mem_biUnion]
  constructor
  · rintro ⟨index, hmem⟩
    obtain ⟨c, hc, -⟩ := mem_rangeOf_iff.mp hmem
    exact ⟨index, mem_range.mpr (lt_size_of_get hc), hmem⟩
  · exact fun ⟨index, _, hmem⟩ => ⟨index, hmem⟩

theorem eq_of_mem_rangeOf {first second : Nat} (hf : channel ∈ plan.rangeOf first)
    (hs : channel ∈ plan.rangeOf second) : first = second :=
  by_contra fun hne => disjoint_left.mp (h.disjoint_of_ne hne) hf hs

/-- A channel is found in the class that has it. -/
theorem classOf_eq (hc : plan.get index = .ok c) (hin : c.contains channel = true) :
    plan.classOf channel = .ok (index, c) := by
  obtain ⟨⟨found, d⟩, hfound⟩ := exists_classOf hc hin
  obtain ⟨hd, hin'⟩ := of_classOf hfound
  obtain rfl := h.eq_of_mem_rangeOf (mem_rangeOf_iff.mpr ⟨c, hc, hin⟩) (mem_rangeOf_iff.mpr ⟨d, hd, hin'⟩)
  cases hc.symm.trans hd
  exact hfound

theorem stop_le_total (hc : plan.get index = .ok c) : c.stop ≤ plan.total := by
  rw [h.stop_eq hc, total_eq_before]
  exact plan.monotone_before (lt_size_of_get hc)

/-- A router has channels enough if no class goes on behind its last channel. -/
theorem checkFits_iff : plan.checkFits channels = .ok () ↔ ∀ index c, plan.get index = .ok c → c.stop ≤ channels := by
  rw [checkFits]
  split
  · next hlt =>
    obtain ⟨index, hmem⟩ := h.exists_mem_rangeOf_iff.mpr hlt
    obtain ⟨c, hc, hin⟩ := mem_rangeOf_iff.mp hmem
    have hstop := (TrafficClass.contains_iff.mp hin).2
    exact ⟨fun h => (by cases h), fun hfits => absurd (hfits index c hc) (Nat.not_le.mpr hstop)⟩
  · next hle =>
    exact ⟨fun _ _ _ hc => (h.stop_le_total hc).trans (Nat.le_of_not_lt hle), fun _ => rfl⟩

end Consecutive

/-- A plan whose classes lie one after another, each with the channels that its algorithm needs. -/
structure LaidOut (plan : ChannelPlan) : Prop where
  channels_eq : ∀ {index c}, plan.get index = .ok c → c.channels = c.algorithm.channels
  classOf_eq : ∀ {index c channel}, plan.get index = .ok c → c.contains channel = true →
    plan.classOf channel = .ok (index, c)

theorem channels_eq_of_make (h : make count algorithms = .ok plan) (hc : plan.get index = .ok c) :
    c.channels = c.algorithm.channels := by
  obtain ⟨-, -, -, each, -, rfl⟩ := make_eq_ok_iff.mp h
  have hget := getElem?_of_get hc
  rw [List.getElem?_toArray] at hget
  exact channels_of_layOut hget

theorem algorithm_of_make (h : make count algorithms = .ok plan) (hc : plan.get index = .ok c) :
    algorithms[if algorithms.length = 1 then 0 else index]? = some c.algorithm := by
  have hlt := lt_size_of_get hc
  rw [size_of_make h] at hlt
  obtain ⟨-, -, -, each, heach, rfl⟩ := make_eq_ok_iff.mp h
  have hget := getElem?_of_get hc
  rw [List.getElem?_toArray] at hget
  rw [← getElem?_of_assign heach hlt, ← map_algorithm_layOut 0 each, List.getElem?_map, hget, Option.map_some]

theorem laidOut_of_make (h : make count algorithms = .ok plan) : plan.LaidOut :=
  ⟨channels_eq_of_make h, (consecutive_of_make h).classOf_eq⟩

theorem stop_le_total (h : make count algorithms = .ok plan) (hc : plan.get index = .ok c) : c.stop ≤ plan.total :=
  (consecutive_of_make h).stop_le_total hc

/-! ### Tiles -/

/-- The classes of a plan follow one another from channel zero on, no channel is in two of them, and together they
have the channels of the plan. -/
structure Tiles (plan : ChannelPlan) : Prop where
  first : ∀ c, plan.get 0 = .ok c → c.start = 0
  next : ∀ index c d, plan.get index = .ok c → plan.get (index + 1) = .ok d → d.start = c.stop
  apart : ∀ {one other}, one ≠ other → Disjoint (plan.rangeOf one) (plan.rangeOf other)
  together : (range plan.size).biUnion plan.rangeOf = range plan.total

theorem Consecutive.tiles (h : plan.Consecutive) : plan.Tiles where
  first := h 0
  next index _ d hc hd := (h (index + 1) d hd).trans (h.stop_eq hc).symm
  apart := h.disjoint_of_ne
  together := h.biUnion_rangeOf_size

/-- Every channel of the plan is found, and no other, and it is found in the only class that has it. -/
theorem Consecutive.classOf_ok_iff (h : plan.Consecutive) :
    plan.classOf channel = .ok (index, c) ↔
      plan.get index = .ok c ∧ ∀ other, channel ∈ plan.rangeOf other ↔ other = index := by
  constructor
  · intro hfound
    obtain ⟨hc, hin⟩ := of_classOf hfound
    have hmem := mem_rangeOf_iff.mpr ⟨c, hc, hin⟩
    exact ⟨hc, fun other => ⟨fun ho => h.eq_of_mem_rangeOf ho hmem, fun ho => ho ▸ hmem⟩⟩
  · rintro ⟨hc, honly⟩
    obtain ⟨d, hd, hin⟩ := mem_rangeOf_iff.mp ((honly index).mpr rfl)
    cases hc.symm.trans hd
    exact h.classOf_eq hc hin

theorem Consecutive.exists_classOf_iff (h : plan.Consecutive) :
    (∃ found, plan.classOf channel = .ok found) ↔ channel < plan.total := by
  rw [← h.exists_mem_rangeOf_iff]
  constructor
  · rintro ⟨⟨index, c⟩, hfound⟩
    exact ⟨index, ((h.classOf_ok_iff.mp hfound).2 index).mpr rfl⟩
  · rintro ⟨index, hmem⟩
    obtain ⟨c, hc, hin⟩ := mem_rangeOf_iff.mp hmem
    exact exists_classOf hc hin

/-- **The classes of a plan tile its channels.** There are as many as were asked for, each with its own algorithm
or with the only one; they start where those before them end, and what finds the class of a channel, asks whether
a router has channels enough or writes the widths down goes by these ranges. -/
theorem channels_tiled (h : make count algorithms = .ok plan) :
    plan.size = count ∧ plan.Tiles ∧
    (∀ index < count, ∃ c, plan.get index = .ok c ∧
      algorithms[if algorithms.length = 1 then 0 else index]? = some c.algorithm ∧
      plan.channelsOf index = .ok c.algorithm.channels ∧
      c.start = ∑ earlier ∈ range index, plan.width earlier ∧ c.stop = c.start + c.algorithm.channels) ∧
    (∀ channel, ((∃ found, plan.classOf channel = .ok found) ↔ channel < plan.total) ∧
      ∀ index c, plan.classOf channel = .ok (index, c) ↔
        plan.get index = .ok c ∧ ∀ other, channel ∈ plan.rangeOf other ↔ other = index) ∧
    (∀ channels, plan.checkFits channels = .ok () ↔ ∀ index c, plan.get index = .ok c → c.stop ≤ channels) ∧
    (∀ buffer, buffer.length = count → plan.fill buffer = (.ok (), (List.range count).map plan.width)) ∧
    ∀ buffer, buffer.length ≠ count → (plan.fill buffer).2 = buffer ∧ ∃ fault, (plan.fill buffer).1 = .error fault := by
  have hin := consecutive_of_make h
  have hsize := size_of_make h
  refine ⟨hsize, hin.tiles, ?classes, fun _ => ⟨hin.exists_classOf_iff, fun _ _ => hin.classOf_ok_iff⟩,
    fun _ => hin.checkFits_iff, ?filled, ?kept⟩
  case classes =>
    intro index hlt
    obtain ⟨c, hc⟩ := get_of_lt (hsize ▸ hlt)
    have hchannels := channels_eq_of_make h hc
    refine ⟨c, hc, algorithm_of_make h hc, ?_, hin index c hc, ?_⟩
    · rw [channelsOf_of_get hc, hchannels]
    · rw [TrafficClass.stop, hchannels]
  case filled =>
    intro buffer hlength
    rw [fill, if_pos (hlength.trans hsize.symm), ← hsize, map_width_range]
  case kept =>
    intro buffer hlength
    rw [fill, if_neg (hsize ▸ hlength)]
    exact ⟨rfl, _, rfl⟩

/-- Three classes of two, three and three channels. -/
def threeClasses : ChannelPlan := ⟨#[⟨0, 2, .minimal⟩, ⟨2, 3, .valiant⟩, ⟨5, 3, .adaptive⟩]⟩

theorem channels_tiled_threeClasses : make 3 [.minimal, .valiant, .adaptive] = .ok threeClasses ∧
    threeClasses.Tiles ∧ threeClasses.total = 8 ∧
    (∃ found, threeClasses.classOf 7 = .ok found) ∧ (¬∃ found, threeClasses.classOf 8 = .ok found) ∧
    threeClasses.checkFits 8 = .ok () ∧ threeClasses.fill [0, 0, 0] = (.ok (), [2, 3, 3]) ∧
    (threeClasses.fill [0, 0]).2 = [0, 0] := by
  have hmade : make 3 [.minimal, .valiant, .adaptive] = .ok threeClasses := rfl
  obtain ⟨-, htiles, -, hfound, hfits, hfilled, hkept⟩ := channels_tiled hmade
  refine ⟨hmade, htiles, rfl, (hfound 7).1.mpr (by decide), (hfound 8).1.not.mpr (by decide), rfl, hfilled _ rfl,
    (hkept [0, 0] (by decide)).1⟩

end ChannelPlan

end DragonflyFabric
