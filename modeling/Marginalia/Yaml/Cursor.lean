import Marginalia.Data
import Marginalia.Yaml.Char

/-! # Places in a file

    Indentation gives YAML its structure, so a reader has to know its column.

    * **`Cursor`**: what is still to be read, and the place where it begins.
    * **`Cursor.skip`** and **`Cursor.lineBreak?`**: the two ways to go on, over
      characters of one line and over the end of a line. -/

namespace Marginalia.Yaml

/-- A place in a file, and the text from there on. -/
structure Cursor where
  rest   : List Char
  index  : Nat
  line   : Nat
  column : Nat
deriving Repr

namespace Cursor

/-- The beginning of a file. -/
def start (s : List Char) : Cursor := ⟨s, 0, 0, 0⟩

/-- Goes over `n` characters of a line. -/
def skip (n : Nat) (c : Cursor) : Cursor :=
  { c with rest := c.rest.drop n, index := c.index + n, column := c.column + n }

/-- Goes over the characters of a line that belong to a class. -/
def skipWhile (p : Char → Bool) (c : Cursor) : Cursor :=
  c.skip (c.rest.takeWhile p).length

/-- Goes over a line break. It counts as a line feed unless it is one of the two
    separators that Unicode has for this. -/
def lineBreak? (c : Cursor) : Option (Char × Cursor) :=
  match c.rest with
  | '\r' :: '\n' :: r => some ('\n', ⟨r, c.index + 2, c.line + 1, 0⟩)
  | b :: r =>
    if isBreak b then
      some (if b = '\r' ∨ b.toNat = 0x85 then '\n' else b, ⟨r, c.index + 1, c.line + 1, 0⟩)
    else none
  | [] => none

/-- What is still to be read begins with `s`. -/
def startsWith (s : String) (c : Cursor) : Bool :=
  s.toList.isPrefixOf c.rest

/-- A line between two documents begins here. -/
def atDocumentMark (c : Cursor) : Bool :=
  c.column == 0 && (c.startsWith "---" || c.startsWith "...") && isBlankOrEnd (c.rest.drop 3)

/-- Goes over blanks and a comment, if there is one. -/
def skipComment (c : Cursor) : Cursor :=
  let c := c.skipWhile isBlank
  if c.startsWith "#" then c.skipWhile fun x => !isBreak x else c

/-- Goes over what may stand at the end of a line, and over its break. -/
def endOfLine? (c : Cursor) : Option Cursor :=
  let c := c.skipComment
  if c.rest.isEmpty then some c else c.lineBreak?.map Prod.snd

end Cursor

end Marginalia.Yaml
