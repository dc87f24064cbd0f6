import DragonflyFabric.Proofs.Settings.Validity

/-!
# The order of the fields

Fields are read one after another, and the first that cannot be read stops the reading. Still it does not matter in
which order they stand, as long as no name stands twice, nor where legends stand between them:
`Rearranged.outcome_eq_ok_iff`. What each name says is found by the name alone, and what the fields say together is
looked at only after all of them were read.

Only the answers are the same. A fault shows the whole object, in the order in which it stands.
-/

namespace DragonflyFabric.Settings

open DragonflyFabric.Language (Value)

variable {α : Type} {read : Value → Except Fault α} {whole whole' : Value} {key : String}
  {fields fields' before after : List (String × Value)} {f : Fields} {s s' : Settings} {notices notices' : Array Notice}

/-- The same fields in another order, each name once, and then legends anywhere among them. -/
inductive Rearranged : List (String × Value) → List (String × Value) → Prop
  | perm {fields fields' : List (String × Value)} : fields.Perm fields' → (fields.map Prod.fst).Nodup →
    Rearranged fields fields'
  | legend_left {before after fields' : List (String × Value)} (v : Value) : Rearranged (before ++ after) fields' →
    Rearranged (before ++ ("legend_name", v) :: after) fields'
  | legend_right {fields before after : List (String × Value)} (v : Value) : Rearranged fields (before ++ after) →
    Rearranged fields (before ++ ("legend_name", v) :: after)

/-! ### Lookups -/

theorem lookup_filter_ne {name : String} (hkey : key ≠ name) (fields : List (String × Value)) :
    (fields.filter fun field => field.1 ≠ name).lookup key = fields.lookup key := by
  induction fields with
  | nil => rfl
  | cons field rest ih =>
    obtain ⟨key', v⟩ := field
    by_cases hname : key' = name
    · subst hname
      rw [List.filter_cons_of_neg (by simp), ih, List.lookup_cons, beq_eq_false_iff_ne.mpr hkey]
    · rw [List.filter_cons_of_pos (by simpa using hname), List.lookup_cons, List.lookup_cons, ih]

/-- Where no name stands twice, what is found under a name does not depend on the order. -/
theorem lookup_eq_of_perm (h : fields.Perm fields') (hnodup : (fields.map Prod.fst).Nodup) (key : String) :
    fields.lookup key = fields'.lookup key := by
  induction h with
  | nil => rfl
  | cons field _ ih =>
    rw [List.map_cons, List.nodup_cons] at hnodup
    rw [List.lookup_cons, List.lookup_cons, ih hnodup.2]
  | swap first second rest =>
    obtain ⟨first, v⟩ := first
    obtain ⟨second, w⟩ := second
    rw [List.map_cons, List.map_cons, List.nodup_cons, List.mem_cons, not_or] at hnodup
    simp only [List.lookup_cons]
    cases hfirst : key == first with
    | false => rfl
    | true =>
      have hne : key ≠ second := by
        rw [beq_iff_eq.mp hfirst]
        exact Ne.symm hnodup.1.1
      rw [beq_eq_false_iff_ne.mpr hne]
  | trans hleft _ ihleft ihright =>
    rw [ihleft hnodup, ihright ((hleft.map Prod.fst).nodup hnodup)]

/-! ### What the fields say -/

/-- The fields that say something: all but the legends. -/
def substance (fields : List (String × Value)) : List (String × Value) :=
  fields.filter fun field => field.1 ≠ "legend_name"

theorem substance_legend (before after : List (String × Value)) (v : Value) :
    substance (before ++ ("legend_name", v) :: after) = substance (before ++ after) := by
  simp [substance]

theorem lastOf_substance (hkey : key ≠ "legend_name") : lastOf read key (substance fields) = lastOf read key fields := by
  rw [lastOf, substance, ← List.filter_reverse, lookup_filter_ne hkey, lastOf]

theorem reads_substance_iff : (∀ key value, (key, value) ∈ substance fields → Reads key value) ↔
    ∀ key value, (key, value) ∈ fields → Reads key value := by
  constructor
  · intro h key value hmem
    by_cases hkey : key = "legend_name"
    · rw [hkey]
      exact .legend value
    · exact h key value (List.mem_filter.mpr ⟨hmem, by simpa using hkey⟩)
  · exact fun h key value hmem => h key value (List.mem_of_mem_filter hmem)

namespace Rearranged

variable (h : Rearranged fields fields')

include h

/-- Besides the legends the fields are the same, in some order and without a name that stands twice. -/
theorem perm_substance : (substance fields).Perm (substance fields') ∧ ((substance fields).map Prod.fst).Nodup := by
  induction h with
  | perm hperm hnodup => exact ⟨hperm.filter _, hnodup.sublist (List.filter_sublist.map Prod.fst)⟩
  | legend_left v _ ih => rwa [substance_legend]
  | legend_right v _ ih => rwa [substance_legend]

theorem lastOf_eq (read : Value → Except Fault α) (hkey : key ≠ "legend_name") :
    lastOf read key fields = lastOf read key fields' := by
  obtain ⟨hperm, hnodup⟩ := h.perm_substance
  have hperm : (substance fields).reverse.Perm (substance fields').reverse :=
    (List.reverse_perm _).trans (hperm.trans (List.reverse_perm _).symm)
  have hnodup : ((substance fields).reverse.map Prod.fst).Nodup := by
    rwa [List.map_reverse, List.nodup_reverse]
  rw [← lastOf_substance hkey, lastOf, lookup_eq_of_perm hperm hnodup key, ← lastOf, lastOf_substance hkey]

theorem given_eq : given fields = given fields' := by
  simp (disch := decide) only [given, h.lastOf_eq]

theorem reads_iff : (∀ key value, (key, value) ∈ fields → Reads key value) ↔
    ∀ key value, (key, value) ∈ fields' → Reads key value := by
  have hsame : (∀ key value, (key, value) ∈ substance fields → Reads key value) ↔
      ∀ key value, (key, value) ∈ substance fields' → Reads key value := by
    simp only [h.perm_substance.1.mem_iff]
  exact reads_substance_iff.symm.trans (hsame.trans reads_substance_iff)

/-- All of the fields can be read in either order, and say the same. -/
theorem readAll_eq_ok_iff : readAll whole fields = .ok f ↔ readAll whole' fields' = .ok f := by
  rw [Settings.readAll_eq_ok_iff, Settings.readAll_eq_ok_iff, h.reads_iff, h.given_eq]

end Rearranged

/-! ### What they say together -/

/-- The object is looked at only to show it where a count is missing. -/
theorem run_ofFields_eq_ok_iff (whole whole' : Value) (f : Fields) : (ofFields whole f).run notices = (.ok s, notices') ↔
    (ofFields whole' f).run notices = (.ok s, notices') := by
  have hcounts : ∀ p, f.parameters whole = .ok p ↔ f.parameters whole' = .ok p :=
    fun p => parameters_eq_ok_iff.trans parameters_eq_ok_iff.symm
  exact run_bind_lift_eq_ok_iff.trans
    ((exists_congr fun p => and_congr_left' (hcounts p)).trans run_bind_lift_eq_ok_iff.symm)

theorem ofValue_object (fields : List (String × Value)) : ofValue (.object "Dragonfly" fields) =
    liftM (readAll (.object "Dragonfly" fields) fields) >>= ofFields (.object "Dragonfly" fields) := by
  have hfields : Value.readFields "Dragonfly" (.object "Dragonfly" fields) = .ok fields :=
    readFields_eq_ok_iff.mpr rfl
  rw [ofValue, hfields]
  rfl

theorem outcome_ofValue_eq_ok_iff : (ofValue (.object "Dragonfly" fields)).outcome = (.ok s, notices) ↔
    ∃ f, readAll (.object "Dragonfly" fields) fields = .ok f ∧
      (ofFields (.object "Dragonfly" fields) f).run #[] = (.ok s, notices) := by
  rw [Report.outcome, ofValue_object]
  exact run_bind_lift_eq_ok_iff

/-- **Rearranged fields are accepted alike,** with the same warnings. -/
theorem Rearranged.outcome_eq_ok_iff (h : Rearranged fields fields') :
    (ofValue (.object "Dragonfly" fields)).outcome = (.ok s, notices) ↔
      (ofValue (.object "Dragonfly" fields')).outcome = (.ok s, notices) := by
  rw [outcome_ofValue_eq_ok_iff, outcome_ofValue_eq_ok_iff]
  exact exists_congr fun f => and_congr h.readAll_eq_ok_iff (run_ofFields_eq_ok_iff _ _ f)

theorem Rearranged.result_eq_ok_iff (h : Rearranged fields fields') :
    (ofValue (.object "Dragonfly" fields)).result = .ok s ↔ (ofValue (.object "Dragonfly" fields')).result = .ok s := by
  constructor
  · exact fun hs => congrArg Prod.fst (h.outcome_eq_ok_iff.mp (Prod.ext hs rfl))
  · exact fun hs => congrArg Prod.fst (h.outcome_eq_ok_iff.mpr (Prod.ext hs rfl))

/-- **The order of the fields does not matter.** Of two objects with the same fields, each name once, and with legends
anywhere, both are accepted or neither. They then give the same settings with the same warnings, and with them the
same traffic classes, the same exit table or the same fault instead of one, and the same network over any table. -/
theorem same_of_rearranged (h : Rearranged fields fields') :
    ((∃ s, (ofValue (.object "Dragonfly" fields)).result = .ok s) ↔
      ∃ s, (ofValue (.object "Dragonfly" fields')).result = .ok s) ∧
    ∀ s s' notices notices', (ofValue (.object "Dragonfly" fields)).outcome = (.ok s, notices) →
      (ofValue (.object "Dragonfly" fields')).outcome = (.ok s', notices') →
      s = s' ∧ notices = notices' ∧ s.plan = s'.plan ∧ s.table = s'.table ∧
        ∀ table, (s.fabric table).outcome = (s'.fabric table).outcome := by
  constructor
  · exact exists_congr fun s => h.result_eq_ok_iff
  · intro s s' notices notices' hs hs'
    rw [h.outcome_eq_ok_iff, hs'] at hs
    cases hs
    exact ⟨rfl, rfl, rfl, rfl, fun _ => rfl⟩

/-- Two groups of one router each. -/
def plainFields : List (String × Value) :=
  [("hosts_per_router", .number 1), ("routers_per_group", .number 1), ("intergroup_per_router", .number 1),
    ("num_groups", .number 2), ("algorithm", .literal "minimal")]

theorem exists_ofValue_plain : ∃ s, (ofValue (.object "Dragonfly" plainFields)).result = .ok s := by
  have hsome : (ofValue (.object "Dragonfly" plainFields)).result.toOption.isSome := by decide +kernel
  obtain ⟨s, hs⟩ := Option.isSome_iff_exists.mp hsome
  exact ⟨s, ok_of_toOption hs⟩

/-- They are the same from behind, with a legend between. -/
theorem same_of_rearranged_plain : ∃ (fields : List (String × Value)) (s : Settings), Rearranged plainFields fields ∧
    ("legend_name", .literal "pair") ∈ fields ∧ (ofValue (.object "Dragonfly" fields)).result = .ok s ∧
      ∀ s', (ofValue (.object "Dragonfly" plainFields)).result = .ok s' → s' = s := by
  have h : Rearranged plainFields ([("algorithm", .literal "minimal"), ("num_groups", .number 2)] ++
      ("legend_name", .literal "pair") :: [("intergroup_per_router", .number 1), ("routers_per_group", .number 1),
        ("hosts_per_router", .number 1)]) :=
    .legend_right _ (.perm (List.reverse_perm plainFields).symm (by decide))
  obtain ⟨haccepted, hsame⟩ := same_of_rearranged h
  obtain ⟨s, hs⟩ := haccepted.mp exists_ofValue_plain
  exact ⟨_, s, h, by simp, hs, fun s' hs' => (hsame s' s _ _ (Prod.ext hs' rfl) (Prod.ext hs rfl)).1⟩

end DragonflyFabric.Settings
