import Marginalia.Document
import Marginalia.Tag.Sighting

/-! # Native comment regions

    Where a tag may be put depends on the native comments of the file. They are
    found by looking for the two delimiters in lines without their tags, so that
    the delimiters of a tag never count:

    * **`Region`**: the lines from the opener of a comment to its closer.
    * **`Region.enclosing`**: the comment around a line. The last opener at or
      above the line decides, and the first closer after that opener ends the
      comment. A comment that is never closed is none. -/

namespace Marginalia

open Text

/-- The lines of one native comment, counted from zero, both ends included. -/
structure Region where
  opensAt  : Nat
  closesAt : Nat
deriving DecidableEq, Repr

namespace Region

/-- The comment goes over more than one line. -/
def isMultiLine (r : Region) : Bool :=
  r.opensAt < r.closesAt

/-- The last line, no further down than `line`, that holds an opener, and what
    follows the last opener on it. -/
def lastOpener? (g : Grammar) (texts : List (List Char)) (line : Nat) :
    Option (Nat × List Char) :=
  ((texts.take (line + 1)).zipIdx.reverse).findSome? fun (text, i) =>
    (afterLast? g.opener text).map fun rest => (i, rest)

/-- The first line from number `start` on that holds a closer. -/
def nextCloser? (g : Grammar) (texts : List (List Char)) (start : Nat) : Option Nat :=
  ((texts.drop start).findIdx? (occursIn g.closer)).map (start + ·)

/-- The comment around a line, in a file whose lines without tags are `texts`. -/
def enclosing (g : Grammar) (texts : List (List Char)) (line : Nat) : Option Region := do
  let (opensAt, rest) ← lastOpener? g texts line
  let closesAt ← if occursIn g.closer rest then some opensAt else nextCloser? g texts (opensAt + 1)
  if line ≤ closesAt then some ⟨opensAt, closesAt⟩ else none

end Region

/-- The lines of a document without their tags. -/
def Document.untagged (g : Grammar) (d : Document) : List (List Char) :=
  d.texts.map g.untagged

/-- The comment around a line of a document. -/
def Document.enclosing (g : Grammar) (d : Document) (line : Nat) : Option Region :=
  Region.enclosing g (d.untagged g) line

end Marginalia
