import DragonflyFabric.Settings.Reading

/-!
Settings read from a file that holds a single `Dragonfly` object.
-/

namespace DragonflyFabric.Settings

/-- What is found under the name of a file: what it holds, or why that cannot be told. -/
inductive FileContents
  | unreadable (why : FileFault)
  | bytes (contents : ByteArray)

/-- Why there is nothing to read under a name in an empty directory. A name is made of steps between
slashes, and one whose steps all stay in place or go up is that of a directory. A name has fewer than
4096 bytes, and a step at most 255; only the first step that goes down is looked at, as it leads nowhere. -/
def faultInEmptyDirectory (name : String) : FileFault :=
  if name.contains '\x00' then .nameEnds
  else if name.isEmpty then .missing
  else if 4096 ≤ name.utf8ByteSize then .nameTooLong
  else
    match (name.splitOn "/").find? fun step => step ≠ "" && step ≠ "." && step ≠ ".." with
    | none => .directory
    | some step => if 255 < step.utf8ByteSize then .nameTooLong else .missing

/-- What an empty directory that holds one file at most shows under a name. -/
def FileContents.inEmptyDirectory (name : String) : Option ByteArray → FileContents
  | some contents => .bytes contents
  | none => .unreadable (faultInEmptyDirectory name)

/-- The text of a file. -/
def FileContents.text (path : String) : FileContents → Except Fault String
  | unreadable why => .error (.unreadable path why)
  | bytes contents =>
    match String.fromUTF8? contents with
    | some text => .ok text
    | none => .error (.unreadable path .notText)

/-- The settings in a file. A text without tokens leaves no answer at all. -/
def ofFile (path : String) (contents : FileContents) : Report Settings := do
  let text ← liftM (contents.text path)
  match Language.parseValue text with
  | .ok v => ofValue v
  | .error .noTokens => throw .abort
  | .error why => throw (.notParsed path why)

end DragonflyFabric.Settings
