import DragonflyFabric.Proofs.Language.Answers
import DragonflyFabric.Proofs.Settings.Refusals
import DragonflyFabric.Settings.File

/-!
# What comes of a file

A file gives settings, or a fault that says what is wrong with it, unless a position of its text begins no lexeme or
its value asks for a row of memory that does not fit: `Settings.ofFile_loads`. In these two cases there is no answer at
all.

A text without a lexeme somewhere need not look wrong. A literal takes as many bytes as it has characters, so that a
single letter beyond ASCII in it leaves its closing quote behind: `Settings.ofFile_accented`.
-/

namespace DragonflyFabric.Settings

open DragonflyFabric.Language (Value Stuck Foreign Stands)

/-- What comes of a file, by what is found under its name. -/
inductive Loads (path : String) : FileContents → Except Fault Settings → Prop
  | unreadable (why : FileFault) : Loads path (.unreadable why) (.error (.unreadable path why))
  | notText {bytes : ByteArray} : String.fromUTF8? bytes = none →
    Loads path (.bytes bytes) (.error (.unreadable path .notText))
  | stuck {bytes : ByteArray} {text : String} : String.fromUTF8? bytes = some text → Stuck text →
    Loads path (.bytes bytes) (.error .abort)
  | foreign {bytes : ByteArray} {text : String} : String.fromUTF8? bytes = some text → Foreign text →
    Loads path (.bytes bytes) (.error (.notParsed path .notInGrammar))
  | refused {bytes : ByteArray} {text : String} {v : Value} {fault : Fault} : String.fromUTF8? bytes = some text →
    Stands text v → (ofValue v).result = .error fault → Refusal fault → Loads path (.bytes bytes) (.error fault)
  | unroomed {bytes : ByteArray} {text : String} {v : Value} : String.fromUTF8? bytes = some text → Stands text v →
    (ofValue v).result = .error .abort → Unroomed v → Loads path (.bytes bytes) (.error .abort)
  | accepted {bytes : ByteArray} {text : String} {v : Value} {s : Settings} : String.fromUTF8? bytes = some text →
    Stands text v → (ofValue v).result = .ok s → Loads path (.bytes bytes) (.ok s)

/-- What comes of a text. -/
def ofText (path text : String) : Except Fault Settings :=
  match Language.parseValue text with
  | .ok v => (ofValue v).result
  | .error .noTokens => .error .abort
  | .error why => .error (.notParsed path why)

theorem text_of_fromUTF8? {path text : String} {bytes : ByteArray} (h : String.fromUTF8? bytes = some text) :
    (FileContents.bytes bytes).text path = .ok text := by rw [FileContents.text, h]

theorem result_ofFile {path text : String} {contents : FileContents} (h : contents.text path = .ok text) :
    (ofFile path contents).result = ofText path text := by
  rw [ofFile, ofText, h]
  show Report.result (match Language.parseValue text with
    | .ok v => ofValue v
    | .error .noTokens => throw .abort
    | .error why => throw (.notParsed path why)) = _
  cases Language.parseValue text with
  | ok v => rfl
  | error why => cases why <;> rfl

theorem loads_ofText {path text : String} {bytes : ByteArray} (h : String.fromUTF8? bytes = some text) :
    Loads path (.bytes bytes) (ofText path text) := by
  rw [ofText]
  rcases Language.parseValue_cases text with ⟨hstuck, hparse⟩ | ⟨hforeign, hparse⟩ | ⟨v, hstands, hparse⟩
  · rw [hparse]
    exact .stuck h hstuck
  · rw [hparse]
    exact .foreign h hforeign
  · rw [hparse]
    dsimp only
    cases hresult : (ofValue v).result with
    | ok s => exact .accepted h hstands hresult
    | error fault =>
      rcases (blames_ofValue v).of_result hresult with hrefusal | ⟨rfl, hunroomed⟩
      · exact .refused h hstands hresult hrefusal
      · exact .unroomed h hstands hresult hunroomed

theorem ofText_of_stuck {text : String} (path : String) (h : Stuck text) : ofText path text = .error .abort := by
  rw [ofText, Language.parseValue, Language.parse, Language.Lexer.tokens?_eq_none_iff.mpr h]

/-- **A file gives settings or a fault,** but for texts that lack a lexeme and values that lack room. While its text is
parsed, every finished item has a value. -/
theorem ofFile_loads (path : String) (contents : FileContents) : Loads path contents (ofFile path contents).result ∧
    ∀ text, contents.text path = .ok text → (Stuck text → (ofFile path contents).result = .error .abort) ∧
      ∀ tokens, Language.Lexer.Lexes text.toList tokens →
        ∀ set ∈ Language.Chart.sets #[] 0 #[.fresh (.whole .value) 0] tokens, ∀ item ∈ set.toList, item.isFinished →
          ∃ node, item.node? = some node := by
  constructor
  · cases contents with
    | unreadable why => exact .unreadable why
    | bytes bytes =>
      cases hutf : String.fromUTF8? bytes with
      | none =>
        have hresult : (ofFile path (.bytes bytes)).result = .error (.unreadable path .notText) := by
          rw [ofFile, FileContents.text, hutf]
          rfl
        rw [hresult]
        exact .notText hutf
      | some text =>
        rw [result_ofFile (text_of_fromUTF8? hutf)]
        exact loads_ofText hutf
  · intro text htext
    refine ⟨fun hstuck => ?_, fun tokens hlexes => ?_⟩
    · rw [result_ofFile htext, ofText_of_stuck path hstuck]
    · have hproper := Language.Lexer.proper_of_tokens? (Language.Lexer.tokens?_eq_some_iff.mpr hlexes)
      exact Language.Chart.exists_node_of_mem_sets hproper .value

/-- A semicolon begins no lexeme, and an identifier is an object without fields, which is refused. -/
theorem ofFile_loads_mark : Stuck ";" ∧ (ofFile "cfg" (.bytes ";".toUTF8)).result = .error .abort ∧
    Loads "cfg" (.bytes "a".toUTF8) (ofFile "cfg" (.bytes "a".toUTF8)).result ∧
    ∀ set ∈ Language.Chart.sets #[] 0 #[.fresh (.whole .value) 0] [.ident "a"], ∀ item ∈ set.toList, item.isFinished →
      ∃ node, item.node? = some node := by
  have hstuck : Stuck ";" := Language.Lexer.tokens?_eq_none_iff.mp rfl
  have hlexes : Language.Lexer.Lexes "a".toList [.ident "a"] := Language.Lexer.tokens?_eq_some_iff.mp rfl
  have hmark := (ofFile_loads "cfg" (.bytes ";".toUTF8)).2 ";" (text_of_fromUTF8? (by decide +kernel))
  have hident := ofFile_loads "cfg" (.bytes "a".toUTF8)
  exact ⟨hstuck, hmark.1 hstuck, hident.1, (hident.2 "a" (text_of_fromUTF8? (by decide +kernel))).2 _ hlexes⟩

/-- Two groups of one router each, with a legend of a single letter. -/
def accented : String :=
  "Dragonfly\x7bhosts_per_router:1, routers_per_group:1, intergroup_per_router:1, num_groups:2, " ++
    "algorithm:\"minimal\", legend_name:\"\u00e9\"\x7d"

/-- **A letter in a literal can take the answer away.** -/
theorem ofFile_accented : (ofFile "cfg" (.bytes accented.toUTF8)).result = .error .abort := by
  have hnone : (Language.Lexer.tokens? accented.toList).isNone = true := by decide +kernel
  have hstuck : Stuck accented := Language.Lexer.tokens?_eq_none_iff.mp (Option.isNone_iff_eq_none.mp hnone)
  have hutf : String.fromUTF8? accented.toUTF8 = some accented := by decide +kernel
  rw [result_ofFile (text_of_fromUTF8? hutf), ofText_of_stuck _ hstuck]

end DragonflyFabric.Settings
