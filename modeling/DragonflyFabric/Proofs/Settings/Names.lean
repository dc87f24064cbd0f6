import DragonflyFabric.Proofs.Settings.Order
import DragonflyFabric.Proofs.Settings.Refusals

/-!
# Names of fields

A field of an unknown name is refused wherever names are looked at: in the whole object, in a fixed slot policy and in
the algorithms, which have no fields at all. So the fields of an accepted object are `Known`, and where they are not
there is a fault that says so: `unknown_fields_refused`.

In one place names are not looked at. A policy without options is told by its name alone, and whatever fields it has
change nothing: `outcome_of_optionless`. So a slot that is given to a policy which takes its slots in turn is accepted
and lost, `misplaced_slot_accepted`.
-/

namespace DragonflyFabric

open DragonflyFabric.Language (Value)

variable {v v' : Value} {fields inner before after : List (String × Value)}

theorem Algorithm.of_ofValue_ok {a : Algorithm} (h : Algorithm.ofValue v = .ok a) :
    (∃ name, v = .literal name) ∨ ∃ name, v = .object name [] := by
  unfold Algorithm.ofValue at h
  split at h
  · next name => exact .inl ⟨name, rfl⟩
  · next name => exact .inr ⟨name, rfl⟩
  · cases h

namespace SlotPolicy

/-- The names of the policies that have no options. -/
def optionless : List String := ["RoundRobin", "SourceHash", "Random"]

/-- Every field of a fixed policy is its slot or a legend. -/
theorem of_readSlot_ok {slot : Nat} (h : readSlot (.object "Fixed" inner) = .ok slot) :
    ∀ field ∈ inner, field.1 = "legend_name" ∨ field.1 = "slot" := by
  refine foldlM_requires (P := fun _ => True) inner (fun _ _ _ _ _ => trivial) (fun slot field slot' _ hstep => ?_)
    trivial h
  obtain ⟨key, value⟩ := field
  dsimp only at hstep ⊢
  split at hstep
  · next hslot => exact .inr hslot
  split at hstep
  · next hlegend => exact .inl hlegend
  · cases hstep

theorem of_ofValue_ok {policy : SlotPolicy} (h : SlotPolicy.ofValue v = .ok policy) : ∃ name inner,
    v = .object name inner ∧ (name ∈ optionless ∨
      name = "Fixed" ∧ ∀ field ∈ inner, field.1 = "legend_name" ∨ field.1 = "slot") := by
  unfold SlotPolicy.ofValue at h
  split at h
  · next name inner =>
    refine ⟨name, inner, rfl, ?_⟩
    split at h
    · next hfixed =>
      subst hfixed
      cases hslot : readSlot (.object "Fixed" inner) with
      | error e =>
        rw [hslot] at h
        cases h
      | ok slot => exact .inr ⟨rfl, of_readSlot_ok hslot⟩
    · left
      simp only [optionless, List.mem_cons, List.not_mem_nil, or_false]
      by_contra hnone
      rw [not_or, not_or] at hnone
      rw [if_neg hnone.1, if_neg hnone.2.1, if_neg hnone.2.2] at h
      cases h
  · cases h

/-- Without options a policy is its name. -/
theorem ofValue_of_optionless {name : String} (h : name ∈ optionless) (inner : List (String × Value)) :
    SlotPolicy.ofValue (.object name inner) = SlotPolicy.ofValue (.object name []) := by
  simp only [optionless, List.mem_cons, List.not_mem_nil, or_false] at h
  rcases h with rfl | rfl | rfl <;> rfl

end SlotPolicy

namespace Settings

open SlotPolicy (optionless)

/-- The names of the fields of the whole object. -/
def fieldNames : List String :=
  countNames ++ ["algorithm", "adaptive_threshold", "global_link_map", "global_route_mode", "link_slot_policy"]

/-- The values that stand for an algorithm each: the elements of a list, or the value itself. -/
def algorithmValues : Value → List Value
  | .array items => items
  | v => [v]

/-- Fields whose names belong where they stand. Those of a policy without options are left out. -/
structure Known (fields : List (String × Value)) : Prop where
  whole : ∀ field ∈ fields, field.1 = "legend_name" ∨ field.1 ∈ fieldNames
  policy : ∀ v, ("link_slot_policy", v) ∈ fields → ∃ name inner, v = .object name inner ∧ (name ∈ optionless ∨
    name = "Fixed" ∧ ∀ field ∈ inner, field.1 = "legend_name" ∨ field.1 = "slot")
  algorithm : ∀ v, ("algorithm", v) ∈ fields → ∀ a ∈ algorithmValues v,
    (∃ name, a = .literal name) ∨ ∃ name, a = .object name []

/-! ### Fields that can be read are known -/

theorem Reads.mem_fieldNames {key : String} (h : Reads key v) : key = "legend_name" ∨ key ∈ fieldNames := by
  cases h with
  | count hkey _ => exact .inr (List.mem_append_left _ hkey)
  | legend => exact .inl rfl
  | algorithms | threshold | linkMap | numbering | policy => exact .inr (by decide)

theorem reads_policy_iff : Reads "link_slot_policy" v ↔ ∃ policy, SlotPolicy.ofValue v = .ok policy := by
  simp [reads_iff, countNames]

theorem reads_algorithm_iff : Reads "algorithm" v ↔ ∃ algorithms, readAlgorithms v = .ok algorithms := by
  simp [reads_iff, countNames]

/-- Each value that stands for an algorithm is read as one. -/
theorem exists_of_mem_algorithmValues {algorithms : List Algorithm} (h : readAlgorithms v = .ok algorithms) :
    ∀ value ∈ algorithmValues v, ∃ a, Algorithm.ofValue value = .ok a := by
  intro value hvalue
  unfold readAlgorithms at h
  split at h
  · next items =>
    obtain ⟨i, hi⟩ := List.mem_iff_getElem?.mp hvalue
    obtain ⟨a, -, ha⟩ := getElem?_of_mapM_ok h hi
    exact ⟨a, ha⟩
  · next hitems =>
    obtain ⟨a, ha, -⟩ := ok_of_bind_ok h
    have hone : algorithmValues v = [v] := by
      unfold algorithmValues
      split
      · next items => exact absurd rfl (hitems items)
      · rfl
    rw [hone, List.mem_singleton] at hvalue
    exact ⟨a, by rw [hvalue, ha]⟩

theorem known_of_reads (h : ∀ key value, (key, value) ∈ fields → Reads key value) : Known fields where
  whole := fun field hfield => (h field.1 field.2 hfield).mem_fieldNames
  policy := by
    intro v hv
    obtain ⟨policy, hpolicy⟩ := reads_policy_iff.mp (h _ v hv)
    exact SlotPolicy.of_ofValue_ok hpolicy
  algorithm := by
    intro v hv value hvalue
    obtain ⟨algorithms, halgorithms⟩ := reads_algorithm_iff.mp (h _ v hv)
    obtain ⟨a, ha⟩ := exists_of_mem_algorithmValues halgorithms value hvalue
    exact Algorithm.of_ofValue_ok ha

theorem known_of_accepted {s : Settings} (h : (ofValue v).result = .ok s) :
    ∃ fields, v = .object "Dragonfly" fields ∧ Known fields := by
  obtain ⟨fields, hfields, h⟩ := result_bind_lift_eq_ok_iff.mp h
  obtain ⟨f, hf, -⟩ := result_bind_lift_eq_ok_iff.mp h
  exact ⟨fields, readFields_eq_ok_iff.mp hfields, known_of_reads (readAll_eq_ok_iff.mp hf).1⟩

/-- Names are looked at before anything else, so that there is a fault and never no answer. -/
theorem refused_of_not_known (h : ¬ Known fields) :
    ∃ e, Refusal e ∧ (ofValue (.object "Dragonfly" fields)).result = .error e := by
  cases hread : readAll (.object "Dragonfly" fields) fields with
  | ok f => exact absurd (known_of_reads (readAll_eq_ok_iff.mp hread).1) h
  | error e =>
    refine ⟨e, readAll_refusal _ _ e hread, ?_⟩
    rw [ofValue_object, hread]
    rfl

/-! ### Policies without options -/

theorem lastOf_congr {α : Type} {read : Value → Except Fault α} {key key' : String}
    (hread : key = key' → read v = read v') :
    lastOf read key (before ++ (key', v) :: after) = lastOf read key (before ++ (key', v') :: after) := by
  induction after using List.reverseRecOn with
  | nil =>
    rw [lastOf_concat, lastOf_concat]
    split
    · next hkey => rw [hread hkey]
    · rfl
  | append_singleton after field ih =>
    rw [← List.cons_append, ← List.append_assoc, lastOf_concat, ih, ← List.cons_append, ← List.append_assoc,
      lastOf_concat]

/-- Of a policy only what is read of it counts. -/
theorem given_congr (h : SlotPolicy.ofValue v = SlotPolicy.ofValue v') :
    given (before ++ ("link_slot_policy", v) :: after) = given (before ++ ("link_slot_policy", v') :: after) := by
  have hlast {α : Type} {read : Value → Except Fault α} {key : String}
      (hread : key = "link_slot_policy" → read v = read v') :
      lastOf read key (before ++ ("link_slot_policy", v) :: after) =
        lastOf read key (before ++ ("link_slot_policy", v') :: after) := lastOf_congr hread
  simp (disch := simp [h]) only [given, hlast]

/-- **What fields a policy without options has does not matter.** -/
theorem outcome_of_optionless {name : String} (hname : name ∈ optionless) (before after inner : List (String × Value))
    (s : Settings) (notices : Array Notice) :
    (ofValue (.object "Dragonfly" (before ++ ("link_slot_policy", .object name inner) :: after))).outcome =
        (.ok s, notices) ↔
      (ofValue (.object "Dragonfly" (before ++ ("link_slot_policy", .object name []) :: after))).outcome =
        (.ok s, notices) := by
  have hpolicy := SlotPolicy.ofValue_of_optionless hname inner
  have hreads : (∀ key value, (key, value) ∈ before ++ ("link_slot_policy", .object name inner) :: after →
      Reads key value) ↔ ∀ key value, (key, value) ∈ before ++ ("link_slot_policy", .object name []) :: after →
        Reads key value := by
    have hsame : Reads "link_slot_policy" (.object name inner) ↔ Reads "link_slot_policy" (.object name []) := by
      rw [reads_policy_iff, reads_policy_iff, hpolicy]
    simp only [List.mem_append, List.mem_cons, Prod.mk.injEq, or_imp, forall_and, and_imp, forall_eq_apply_imp_iff,
      forall_eq, hsame]
  rw [outcome_ofValue_eq_ok_iff, outcome_ofValue_eq_ok_iff]
  refine exists_congr fun f => and_congr ?_ (run_ofFields_eq_ok_iff _ _ f)
  rw [readAll_eq_ok_iff, readAll_eq_ok_iff, hreads, given_congr hpolicy]

/-- **Unknown fields are refused,** at every level but inside of a policy without options. The fields of an accepted
object are known; where they are not, there is a fault and neither settings nor no answer; and an object is accepted
alike, with the same settings and warnings, whatever fields stand in a policy without options. -/
theorem unknown_fields_refused (v : Value) :
    (∀ s, (ofValue v).result = .ok s → ∃ fields, v = .object "Dragonfly" fields ∧ Known fields) ∧
    (∀ fields, v = .object "Dragonfly" fields → ¬ Known fields → ∃ e, Refusal e ∧ (ofValue v).result = .error e) ∧
    ∀ name ∈ optionless, ∀ before after inner,
      v = .object "Dragonfly" (before ++ ("link_slot_policy", .object name inner) :: after) → ∀ s notices,
        ((ofValue v).outcome = (.ok s, notices) ↔
          (ofValue (.object "Dragonfly" (before ++ ("link_slot_policy", .object name []) :: after))).outcome =
            (.ok s, notices)) := by
  refine ⟨fun s hs => known_of_accepted hs, ?_, ?_⟩
  · rintro fields rfl hunknown
    exact refused_of_not_known hunknown
  · rintro name hname before after inner rfl s notices
    exact outcome_of_optionless hname before after inner s notices

/-- A fixed policy whose slot is misspelt. -/
def misspeltFields : List (String × Value) :=
  plainFields ++ [("link_slot_policy", .object "Fixed" [("slots", .number 0)])]

/-- A slot for a policy that has none. -/
def misplacedFields : List (String × Value) :=
  plainFields ++ [("link_slot_policy", .object "RoundRobin" [("slot", .number 0)])]

/-- **A misplaced field can be accepted.** -/
theorem misplaced_slot_accepted : ("link_slot_policy", .object "RoundRobin" [("slot", .number 0)]) ∈ misplacedFields ∧
    ∃ s, (ofValue (.object "Dragonfly" misplacedFields)).result = .ok s ∧ s.policy = .roundRobin := by
  refine ⟨by simp [misplacedFields], ?_⟩
  have hread : (ofValue (.object "Dragonfly" misplacedFields)).result.toOption.map (·.policy) = some .roundRobin := by
    decide +kernel
  obtain ⟨s, hs, hpolicy⟩ := Option.map_eq_some_iff.mp hread
  exact ⟨s, ok_of_toOption hs, hpolicy⟩

theorem unknown_fields_refused_misspelt :
    (∃ s, (ofValue (.object "Dragonfly" plainFields)).result = .ok s ∧ Known plainFields) ∧
    ¬ Known misspeltFields ∧ (∃ e, Refusal e ∧ (ofValue (.object "Dragonfly" misspeltFields)).result = .error e) ∧
    "RoundRobin" ∈ optionless ∧ ∀ s notices, (ofValue (.object "Dragonfly" misplacedFields)).outcome = (.ok s, notices) ↔
      (ofValue (.object "Dragonfly" (plainFields ++ [("link_slot_policy", .object "RoundRobin" [])]))).outcome =
        (.ok s, notices) := by
  have hmisspelt : ¬ Known misspeltFields := by
    intro h
    obtain ⟨name, inner, heq, hname⟩ := h.policy (.object "Fixed" [("slots", .number 0)]) (by simp [misspeltFields])
    cases heq
    rcases hname with hname | ⟨-, hinner⟩
    · exact absurd hname (by decide)
    · exact absurd (hinner ("slots", .number 0) List.mem_cons_self) (by decide)
  obtain ⟨s, hs⟩ := exists_ofValue_plain
  obtain ⟨fields, heq, hknown⟩ := (unknown_fields_refused (.object "Dragonfly" plainFields)).1 s hs
  cases heq
  refine ⟨⟨s, hs, hknown⟩, hmisspelt, ?_, by decide, ?_⟩
  · exact (unknown_fields_refused (.object "Dragonfly" misspeltFields)).2.1 misspeltFields rfl hmisspelt
  · exact (unknown_fields_refused (.object "Dragonfly" misplacedFields)).2.2 "RoundRobin" (by decide) plainFields []
      [("slot", .number 0)] rfl

end Settings

end DragonflyFabric
