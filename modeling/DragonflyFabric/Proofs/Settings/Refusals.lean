import DragonflyFabric.Proofs.Blame
import DragonflyFabric.Proofs.Settings.Validity

/-!
# What settings are refused with

Every check of the settings has a fault to report, and there are four kinds of them, `Refusal`. Apart from that,
reading settings comes to nothing only where the classes or the links in order do not fit in a row of memory:
`Settings.blames_ofValue`. No other step of the reading can be left without an answer, in particular no division by
the number of routers, since counts without routers are refused before.
-/

namespace DragonflyFabric

open DragonflyFabric.Language (Value)

/-- A fault that settings are refused with. -/
inductive Refusal : Fault → Prop
  | parameters (why : ParameterFault) : Refusal (.parameters why)
  | value (why : ValueFault) (v : Value) : Refusal (.value why v)
  | noAlgorithm (network : Nat) : Refusal (.noAlgorithm network)
  | unknownAlgorithm (name : String) : Refusal (.unknownAlgorithm name)

/-! ### Values that cannot be read -/

namespace Language.Value

variable (v : Value)

theorem readNumber_refusal : FailsBy v.readNumber Refusal := by
  unfold readNumber
  split
  · exact .ok _
  · exact .error (.value _ _)

theorem readCount_refusal : FailsBy v.readCount Refusal := by
  refine v.readNumber_refusal.bind fun x _ => ?_
  split
  · split
    · exact .error (.value _ _)
    · exact .ok _
  · exact .error (.value _ _)

theorem readInteger_refusal : FailsBy v.readInteger Refusal := by
  refine v.readNumber_refusal.bind fun x _ => ?_
  split
  · exact .ok _
  · exact .error (.value _ _)

theorem readLiteral_refusal : FailsBy v.readLiteral Refusal := by
  unfold readLiteral
  split
  · exact .ok _
  · exact .error (.value _ _)

theorem readArray_refusal : FailsBy v.readArray Refusal := by
  unfold readArray
  split
  · exact .ok _
  · exact .error (.value _ _)

theorem readFields_refusal (name : String) : FailsBy (v.readFields name) Refusal := by
  unfold readFields
  split
  · split
    · exact .ok _
    · exact .error (.value _ _)
  · exact .error (.value _ _)

end Language.Value

theorem Algorithm.ofValue_refusal (v : Value) : FailsBy (Algorithm.ofValue v) Refusal := by
  unfold Algorithm.ofValue
  split
  · exact .getD (.unknownAlgorithm _)
  · exact .getD (.unknownAlgorithm _)
  · exact .error (.value _ _)

theorem Numbering.ofName_refusal (name : String) : FailsBy (Numbering.ofName name) Refusal := by
  unfold Numbering.ofName
  split
  · exact .ok _
  · exact .error (.value _ _)

namespace SlotPolicy

theorem readSlot_refusal (v : Value) : FailsBy (readSlot v) Refusal := by
  refine (v.readFields_refusal "Fixed").bind fun fields _ => .foldlM (fun slot field => ?_) fields 0
  obtain ⟨key, value⟩ := field
  dsimp only
  split
  · exact value.readCount_refusal
  · split
    · exact .ok slot
    · exact .error (.value _ _)

theorem ofValue_refusal (v : Value) : FailsBy (SlotPolicy.ofValue v) Refusal := by
  unfold SlotPolicy.ofValue
  split
  · split
    · exact (readSlot_refusal _).map _
    · iterate 3
        split
        · exact .ok _
      exact .error (.value _ _)
  · exact .error (.value _ _)

end SlotPolicy

namespace Settings

variable {whole v : Value} {f : Fields} {p : Parameters}

theorem readAlgorithms_refusal (v : Value) : FailsBy (readAlgorithms v) Refusal := by
  unfold readAlgorithms
  split
  · exact .mapM Algorithm.ofValue_refusal _
  · exact (Algorithm.ofValue_refusal _).bind fun a _ => .ok [a]

theorem readLinks_refusal (v : Value) : FailsBy (readLinks v) Refusal :=
  v.readArray_refusal.bind fun items _ => .mapM Value.readInteger_refusal items

theorem readNumbering_refusal (v : Value) : FailsBy (readNumbering v) Refusal :=
  v.readLiteral_refusal.bind fun name _ => Numbering.ofName_refusal name

theorem Fields.read_refusal (whole : Value) (f : Fields) (key : String) (v : Value) :
    FailsBy (f.read whole key v) Refusal := by
  have hcount := v.readCount_refusal
  rw [Fields.read]
  iterate 5 refine .ite (.set hcount _) ?_
  refine .ite (.set (readAlgorithms_refusal v) _) ?_
  refine .ite (.set hcount _) ?_
  refine .ite (.set v.readNumber_refusal _) ?_
  refine .ite (.set (readLinks_refusal v) _) ?_
  refine .ite (.set (readNumbering_refusal v) _) ?_
  refine .ite (.set (SlotPolicy.ofValue_refusal v) _) ?_
  iterate 2 refine .ite (.set hcount _) ?_
  exact .ite (.ok f) (.error (.value _ _))

theorem readAll_refusal (whole : Value) (fields : List (String × Value)) :
    FailsBy (readAll whole fields) Refusal := by
  rw [readAll]
  exact .foldlM (fun f field => f.read_refusal whole field.1 field.2) fields _

/-! ### Checks of what the fields say together -/

theorem parameters_refusal (whole : Value) (f : Fields) : FailsBy (f.parameters whole) Refusal := by
  rw [Fields.parameters]
  refine .bind (.getD (.value _ _)) fun hosts _ => .bind (.getD (.value _ _)) fun routers _ =>
    .bind (.getD (.value _ _)) fun exits _ => .bind (.getD (.value _ _)) fun groups _ => ?_
  rw [Parameters.check]
  exact .ite (.error (.parameters _)) (.ite (.error (.parameters _)) (.ok _))

theorem checkRadix_refusal (f : Fields) (p : Parameters) : FailsBy (f.checkRadix p) Refusal := by
  unfold Fields.checkRadix
  split
  · exact .ite (.ok _) (.error (.parameters _))
  · exact .ok _

theorem checkAlgorithms_refusal (f : Fields) : FailsBy f.checkAlgorithms Refusal :=
  .ite (.error (.noAlgorithm 0)) (.ok _)

theorem checkThreshold_refusal (threshold : Float) : Blames (checkThreshold threshold) Refusal := by
  by_cases hpos : 0.0 < threshold
  · exact .of_answers ((decides_checkThreshold threshold).answers hpos)
  · rw [checkThreshold, if_pos (by simpa using hpos)]
    exact .throw_bind (.value _ _)

theorem checkPolicy_refusal (links : Nat) (policy : SlotPolicy) : Blames (checkPolicy links policy) Refusal := by
  by_cases hslot : ∀ slot, policy = .fixed slot → slot < links
  · exact .of_answers ((decides_checkPolicy links policy).answers hslot)
  · cases policy with
    | fixed slot =>
      rw [checkPolicy, if_pos (by simpa using hslot)]
      exact .throw_bind (.parameters _)
    | roundRobin | sourceHash | random => exact absurd (fun slot h => by cases h) hslot

theorem ofEntries_refusal (p : Parameters) (entries : Array Int) : Blames (LinkMap.ofEntries p entries) Refusal := by
  rw [LinkMap.ofEntries]
  dsimp only
  split
  · exact .throw_bind (.parameters _)
  · split
    · exact .throw (.parameters _)
    · split
      · exact .bind (.warn _) fun _ => .pure _
      · exact .pure _

/-! ### Rows that do not fit -/

/-- A refusal, or no answer since a row that is made has no room. -/
def Fields.Spoiled (f : Fields) (p : Parameters) (e : Fault) : Prop := Refusal e ∨ e = .abort ∧ ¬ f.Fits p

theorem blames_map (hc : p.Checked) : Blames (f.map p) (f.Spoiled p) := by
  rw [Fields.map]
  cases hmap : f.linkMap with
  | some entries => exact (ofEntries_refusal p entries.toArray).imp fun _ => .inl
  | none =>
    by_cases hroom : Storage.holds (p.routers * p.exits) 8 = true
    · exact .of_answers (LinkMap.answers_spread_of_holds hc hroom)
    · dsimp only
      rw [LinkMap.spread, if_pos (by simpa using hroom)]
      exact .throw_bind (.inr ⟨rfl, fun hfits => hroom (hfits.links hmap)⟩)

theorem assign_refusal (count : Nat) (algorithms : List Algorithm) :
    FailsBy (ChannelPlan.assign count algorithms) Refusal := by
  unfold ChannelPlan.assign
  split
  · exact .ok _
  · exact .ite (.error (.noAlgorithm _)) (.ok _)

theorem make_spoiled : FailsBy (ChannelPlan.make f.classCount f.algorithms) (f.Spoiled p) := by
  rw [ChannelPlan.make]
  dsimp only
  split
  · exact .error (.inl (.parameters _))
  split
  · exact .error (.inl (.parameters _))
  split
  · next hroom => exact .error (.inr ⟨rfl, fun hfits => by simp [hfits.classes] at hroom⟩)
  · exact ((assign_refusal f.classCount f.algorithms).bind fun each _ => .ok _).imp fun _ => .inl

/-- Once the counts are known, what is missing is a refusal or room. -/
theorem blames_ofFields (whole : Value) (f : Fields) : Blames (ofFields whole f) fun e =>
    Refusal e ∨ e = .abort ∧ ∃ p, f.parameters whole = .ok p ∧ ¬ f.Fits p := by
  rw [ofFields]
  refine .bind_lift ((parameters_refusal whole f).imp fun _ => .inl) fun p hp => ?_
  obtain ⟨-, hc⟩ := checked_of_parameters hp
  have hinl : ∀ e, Refusal e → f.Spoiled p e := fun _ => .inl
  refine Blames.imp (P := f.Spoiled p) ?_ fun e he => ?_
  · refine .bind (.lift ((checkRadix_refusal f p).imp hinl)) fun _ => ?_
    refine .bind (.lift ((checkAlgorithms_refusal f).imp hinl)) fun _ => ?_
    refine .bind ((checkThreshold_refusal f.threshold).imp hinl) fun _ => ?_
    refine .bind ((checkPolicy_refusal f.links f.policy).imp hinl) fun _ => ?_
    refine .bind (blames_map hc) fun map => ?_
    exact .bind (.discard (.lift make_spoiled)) fun _ => .pure _
  rcases he with hrefusal | ⟨habort, hfits⟩
  · exact .inl hrefusal
  · exact .inr ⟨habort, p, hp, hfits⟩

/-- The fields of the value can be read, and they ask for more classes or links than a row can have. -/
def Unroomed (v : Value) : Prop := ∃ fields p, v = .object "Dragonfly" fields ∧ readAll v fields = .ok (given fields) ∧
  (given fields).parameters v = .ok p ∧ ¬ (given fields).Fits p

/-- **A value that gives no settings is refused,** unless it asks for a row that does not fit. -/
theorem blames_ofValue (v : Value) : Blames (ofValue v) fun e => Refusal e ∨ e = .abort ∧ Unroomed v := by
  rw [ofValue]
  refine .bind_lift ((v.readFields_refusal "Dragonfly").imp fun _ => .inl) fun fields hfields => ?_
  refine .bind_lift ((readAll_refusal v fields).imp fun _ => .inl) fun f hf => ?_
  obtain ⟨-, rfl⟩ := readAll_eq_ok_iff.mp hf
  refine (blames_ofFields v _).imp fun e he => ?_
  rcases he with hrefusal | ⟨habort, p, hp, hfits⟩
  · exact .inl hrefusal
  · exact .inr ⟨habort, fields, p, readFields_eq_ok_iff.mp hfields, hf, hp, hfits⟩

end Settings

end DragonflyFabric
