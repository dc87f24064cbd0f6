import DragonflyFabric.Proofs.Outcome
import DragonflyFabric.Settings.Reading
import Mathlib.Data.List.Induction
import Mathlib.Tactic.MkIffOfInductiveProp

/-!
# What the fields of an object say

Fields are read one after another, and each overwrites what an earlier one of its name said. Read in this way
they say what the last field of each name says, and what is taken by default where a name does not occur:
`Settings.readAll_eq_ok_iff`. A single field that cannot be read, or whose name is unknown, spoils all of them,
even if a later one of its name would have replaced it.
-/

namespace DragonflyFabric.Settings

open DragonflyFabric.Language (Value)

variable {α : Type} {read : Value → Except Fault α} {whole v : Value} {key : String} {fields : List (String × Value)}
  {f : Fields}

/-- The names of the fields that give a count. -/
def countNames : List String :=
  ["hosts_per_router", "routers_per_group", "intergroup_per_router", "intergroup_links", "num_groups", "num_vns",
    "seed", "radix"]

/-- A field that may stand in the object: one of a known name whose value can be read, or a legend. -/
@[mk_iff]
inductive Reads : String → Value → Prop
  | count {key : String} {v : Value} {n : Nat} : key ∈ countNames → v.readCount = .ok n → Reads key v
  | algorithms {v : Value} {algorithms : List Algorithm} :
    readAlgorithms v = .ok algorithms → Reads "algorithm" v
  | threshold {v : Value} {x : Float} : v.readNumber = .ok x → Reads "adaptive_threshold" v
  | linkMap {v : Value} {entries : List Int} : readLinks v = .ok entries → Reads "global_link_map" v
  | numbering {v : Value} {numbering : Numbering} :
    readNumbering v = .ok numbering → Reads "global_route_mode" v
  | policy {v : Value} {policy : SlotPolicy} : SlotPolicy.ofValue v = .ok policy → Reads "link_slot_policy" v
  | legend (v : Value) : Reads "legend_name" v

/-- What the last field of a name says. -/
def lastOf (read : Value → Except Fault α) (key : String) (fields : List (String × Value)) : Option α :=
  (fields.reverse.lookup key).bind fun v => (read v).toOption

theorem lastOf_concat (read : Value → Except Fault α) (key key' : String) (fields : List (String × Value)) (v : Value) :
    lastOf read key (fields ++ [(key', v)]) = if key = key' then (read v).toOption else lastOf read key fields := by
  rw [lastOf, List.reverse_concat, List.lookup_cons]
  split
  · next h => rw [if_pos (beq_iff_eq.mp h), Option.bind_some]
  · next h => rw [if_neg (beq_eq_false_iff_ne.mp h), lastOf]

/-- What a list of fields says: the last of each name counts, and there are defaults for those that are not
there. -/
def given (fields : List (String × Value)) : Fields where
  hosts := lastOf Value.readCount "hosts_per_router" fields
  routers := lastOf Value.readCount "routers_per_group" fields
  exits := lastOf Value.readCount "intergroup_per_router" fields
  groups := lastOf Value.readCount "num_groups" fields
  links := (lastOf Value.readCount "intergroup_links" fields).getD 1
  algorithms := (lastOf readAlgorithms "algorithm" fields).getD []
  networks := lastOf Value.readCount "num_vns" fields
  threshold := (lastOf Value.readNumber "adaptive_threshold" fields).getD 2.0
  linkMap := lastOf readLinks "global_link_map" fields
  numbering := (lastOf readNumbering "global_route_mode" fields).getD .relative
  policy := (lastOf SlotPolicy.ofValue "link_slot_policy" fields).getD .sourceHash
  seed := (lastOf Value.readCount "seed" fields).getD 0
  radix := lastOf Value.readCount "radix" fields

/-- The computation succeeds on a field that may stand in the object, and takes it into account as the last of
its name. -/
def Extends (fields : List (String × Value)) (key : String) (v : Value) (x : Except Fault Fields) : Prop :=
  ∀ f, x = .ok f ↔ Reads key v ∧ f = given (fields ++ [(key, v)])

theorem Extends.set {set : α → Fields} (hreads : Reads key v ↔ ∃ a, read v = .ok a)
    (hset : ∀ a, read v = .ok a → set a = given (fields ++ [(key, v)])) :
    Extends fields key v (do return set (← read v)) := by
  intro f
  rw [hreads]
  constructor
  · intro h
    obtain ⟨a, ha, h⟩ := ok_of_bind_ok h
    cases h
    exact ⟨⟨a, ha⟩, hset a ha⟩
  · rintro ⟨⟨a, ha⟩, rfl⟩
    rw [ha, ← hset a ha]
    rfl

theorem Extends.ite {c : Prop} [Decidable c] {x y : Except Fault Fields} (hx : c → Extends fields key v x)
    (hy : ¬c → Extends fields key v y) : Extends fields key v (if c then x else y) := by
  split
  · next hc => exact hx hc
  · next hc => exact hy hc

/-- One more field is read after the others: one lookup for each known name, the legend, and no other name. -/
theorem extends_read (whole : Value) (fields : List (String × Value)) (key : String) (v : Value) :
    Extends fields key v ((given fields).read whole key v) := by
  rw [Fields.read]
  iterate 13
    refine .ite (fun h => ?_) fun _ => ?_
    · subst h
      refine .set (by simp [reads_iff, countNames]) fun a ha => ?_
      simp [given, lastOf_concat, ha, Except.toOption]
  refine .ite (fun h f => ?_) fun _ f => ?_
  · subst h
    have hsame : given (fields ++ [("legend_name", v)]) = given fields := by simp [given, lastOf_concat]
    rw [hsame, Except.ok.injEq, eq_comm]
    exact (and_iff_right (.legend v)).symm
  · have hunknown : ¬ Reads key v := by simp_all [reads_iff, countNames]
    exact ⟨fun h => (by cases h), fun h => absurd h.1 hunknown⟩

theorem readFields_eq_ok_iff {name : String} : v.readFields name = .ok fields ↔ v = .object name fields := by
  unfold Value.readFields
  split
  · next name' fields' =>
    split
    · next h => simp [h]
    · next h => simp [h]
  · next hother => exact ⟨fun h => (by cases h), fun h => absurd h (hother name fields)⟩

/-- The fields of an object, read one after another. -/
def readAll (whole : Value) (fields : List (String × Value)) : Except Fault Fields :=
  fields.foldlM (fun (f : Fields) (key, value) => f.read whole key value) {}

/-- **Fields say what the last of each name says, if every one of them can be read.** -/
theorem readAll_eq_ok_iff : readAll whole fields = .ok f ↔
    (∀ key value, (key, value) ∈ fields → Reads key value) ∧ f = given fields := by
  induction fields using List.reverseRecOn generalizing f with
  | nil => simp [readAll, pure, Except.pure, given, lastOf, eq_comm]
  | append_singleton fields field ih =>
    obtain ⟨key, v⟩ := field
    have hall : (∀ key' value, (key', value) ∈ fields ++ [(key, v)] → Reads key' value) ↔
        (∀ key' value, (key', value) ∈ fields → Reads key' value) ∧ Reads key v := by
      simp [or_imp, forall_and]
    rw [hall, readAll, List.foldlM_append]
    constructor
    · intro h
      obtain ⟨g, hg, h⟩ := ok_of_bind_ok h
      obtain ⟨hfields, rfl⟩ := ih.mp hg
      rw [List.foldlM_cons] at h
      obtain ⟨g, hlast, h⟩ := ok_of_bind_ok h
      obtain ⟨hreads, rfl⟩ := (extends_read whole fields key v g).mp hlast
      cases h
      exact ⟨⟨hfields, hreads⟩, rfl⟩
    · rintro ⟨⟨hfields, hreads⟩, rfl⟩
      have hbefore : readAll whole fields = .ok (given fields) := ih.mpr ⟨hfields, rfl⟩
      have hlast := (extends_read whole fields key v _).mpr ⟨hreads, rfl⟩
      rw [readAll] at hbefore
      rw [hbefore]
      exact congrArg (· >>= pure) hlast

end DragonflyFabric.Settings
