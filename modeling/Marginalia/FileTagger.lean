import Marginalia.FileScript
import Marginalia.Listing
import Marginalia.Removal
import Marginalia.Settings

/-! # Tagging files

    * **`Change`**: what can be done to the tags of a document.
    * **`Outcome`**: what a change reports. A change that found nothing to remove does
      not have to be written.
    * **`FileTagger`**: a file and the grammar of its tags. Each step reads the whole
      file, and a change writes the whole file. -/

namespace Marginalia

/-! ## Section 1: Changes -/

/-- A change of the tags of a document. -/
inductive Change where
  | add (identifier : List Char) (start stop : Nat)
  | remove (identifier : List Char)
  /-- Removes the tags whose identifier matches a pattern. -/
  | removeMatching (pattern : List Char)
  | clear
deriving DecidableEq, Repr

/-- What a change reports. -/
inductive Outcome where
  | placed (p : Placement)
  | removed (r : Removal)
deriving DecidableEq, Repr

/-- The document is worth writing. -/
def Outcome.isWritten : Outcome → Bool
  | .placed _  => true
  | .removed r => !r.isEmpty

/-- Makes a change to a document. -/
def Change.apply (g : Grammar) (d : Document) : Change → Except Failure (Document × Outcome)
  | .add identifier start stop =>
    match d.addTags g identifier start stop with
    | .ok (d, p) => .ok (d, .placed p)
    | .error f   => .error (.placement f)
  | .remove identifier =>
    let (d, r) := d.removeTags g identifier
    .ok (d, .removed r)
  | .removeMatching pattern =>
    match d.removeMatching? g pattern with
    | some (d, r) => .ok (d, .removed r)
    | none        => .error .pattern
  | .clear =>
    let (d, r) := d.clear g
    .ok (d, .removed r)

/-! ## Section 2: Files -/

/-- A file whose tags are written by a grammar. -/
structure FileTagger where
  path    : FilePath
  grammar : Grammar

namespace FileTagger

/-- The tagger of a file, with the grammar of the language that is asked for or else
    that of the file's extension. -/
def ofSettings (s : Settings) (p : FilePath) (language : Option Text) :
    Except Failure FileTagger :=
  let g := match language with
    | some name => s.grammarFor name
    | none      => s.grammarForPath p
  g.map fun g => ⟨p, g⟩

/-- The document in the file. -/
def read (t : FileTagger) : FileScript (Except Failure Document) :=
  .readText t.path fun
  | .error f => return .error (.file (.system t.path.chars f))
  | .ok text => return .ok (Document.parse text.toList)

/-- Writes a document to the file. -/
def write (t : FileTagger) (d : Document) : FileScript (Except Failure Unit) :=
  .writeText t.path (String.ofList d.render) fun
  | .error w => return .error (.file (.ofWrite w))
  | .ok () => return .ok ()

/-- The document that a change leads to, and what it reports. The file stays as it
    is. -/
def preview (t : FileTagger) (c : Change) : FileScript (Except Failure (Document × Outcome)) := do
  match ← t.read with
  | .error f => return .error f
  | .ok d => return c.apply t.grammar d

/-- Makes a change to the file. -/
def perform (t : FileTagger) (c : Change) : FileScript (Except Failure Outcome) := do
  match ← t.preview c with
  | .error f => return .error f
  | .ok (d, o) =>
    if o.isWritten then return (← t.write d).map fun _ => o
    else return .ok o

/-- The tagged ranges of the file. -/
def list (t : FileTagger) (order : TableOrder := .byText) :
    FileScript (Except Failure Listing) := do
  return (← t.read).map fun d => d.listing t.grammar order

end FileTagger

end Marginalia
