import Marginalia.Tag
import Marginalia.Total

/-! # Sighting tags in a line

    A line is cut into pieces from left to right: where a tag can be read, the tag
    is one piece, and every other character is a piece of its own.

    * **`Sighting`**: what was read, together with the text it was read from.
    * **`heads`, `tails`**: all spellings of what surrounds an identifier, in the
      order in which they are tried.
    * **`sighting?`**: the tag at the beginning of a text, for a given way to read
      the identifier.
    * **`pieces`**: the cut. The sightings of a line, and the line without its
      tags, are both views of it, so they cannot disagree. -/

namespace Marginalia

open Text

/-! ## Section 1: Sightings and pieces -/

/-- A tag that was read in a line. -/
structure Sighting where
  identifier : List Char
  /-- A boundary mark stands before the identifier. -/
  startMark  : Bool
  /-- A boundary mark stands after the identifier. -/
  endMark    : Bool
  cleanup    : Bool
  /-- The text of the whole tag. -/
  raw        : List Char
deriving DecidableEq, Repr

/-- The role that the boundary marks stand for. -/
def Sighting.role (s : Sighting) : Role :=
  Role.ofMarks s.startMark s.endMark

/-- The tag that was sighted. -/
def Sighting.tag (s : Sighting) : Tag :=
  ⟨s.identifier, s.role, s.cleanup⟩

/-- A piece of a line. -/
inductive Piece where
  | plain (c : Char)
  | tag (s : Sighting)
deriving DecidableEq, Repr

namespace Piece

/-- The part of the line that a piece covers. -/
def raw : Piece → List Char
  | .plain c => [c]
  | .tag s   => s.raw

/-- The sighting, if the piece is one. -/
def sighting? : Piece → Option Sighting
  | .plain _ => none
  | .tag s   => some s

/-- The character, if the piece is no tag. -/
def plain? : Piece → Option Char
  | .plain c => some c
  | .tag _   => none

/-- The sightings of a cut line, in order. -/
def sightings (ps : List Piece) : List Sighting :=
  ps.filterMap sighting?

/-- What a cut line is without its tags. -/
def untagged (ps : List Piece) : List Char :=
  ps.filterMap plain?

/-- The sightings with the bytes of UTF-8 before and up to the end of each. -/
def spans : Nat → List Piece → List (Sighting × Nat × Nat)
  | _, [] => []
  | n, p :: ps =>
    let m := n + byteLength p.raw
    match p with
    | .plain _ => spans m ps
    | .tag s   => (s, n, m) :: spans m ps

end Piece

/-! ## Section 2: Reading one tag -/

namespace Grammar

/-- The spellings of what precedes an identifier, each with whether it holds a
    boundary mark. The joiner may be missing. -/
def heads (g : Grammar) : List (Bool × List Char) :=
  [(true,  g.opener ++ [joiner, g.boundary, g.separator]),
   (false, g.opener ++ [joiner, g.separator]),
   (true,  g.opener ++ [g.boundary, g.separator]),
   (false, g.opener ++ [g.separator])]

/-- The spellings of what follows an identifier, each with whether it holds a
    boundary mark and a cleanup mark. -/
def tails (g : Grammar) : List (Bool × Bool × List Char) :=
  [(true,  true,  g.separator :: g.boundary :: g.cleanup :: g.closer),
   (true,  false, g.separator :: g.boundary :: g.closer),
   (false, true,  g.separator :: g.cleanup :: g.closer),
   (false, false, g.separator :: g.closer)]

/-- The tag at the beginning of `s`, where `identifier?` reads an identifier and
    returns it with what follows. -/
def sighting? (g : Grammar) (identifier? : List Char → Option (List Char × List Char))
    (s : List Char) : Option Sighting :=
  g.heads.findSome? fun (startMark, head) => do
    let inner ← after? head s
    let (identifier, outer) ← identifier? inner
    g.tails.findSome? fun (endMark, cleanup, tail) => do
      let _ ← after? tail outer
      return { identifier, startMark, endMark, cleanup, raw := head ++ identifier ++ tail }

/-- A character that any identifier may hold: not the separator, and no line
    break. -/
def isIdentifierChar (g : Grammar) (c : Char) : Bool :=
  c != g.separator && !isLineBreak c

/-- The longest text at the beginning of `s` that may be an identifier, if it is
    not empty. -/
def anyIdentifier? (g : Grammar) (s : List Char) : Option (List Char × List Char) :=
  match s.takeWhile g.isIdentifierChar with
  | [] => none
  | identifier => some (identifier, s.dropWhile g.isIdentifierChar)

/-- Exactly this identifier at the beginning of `s`. -/
def exactIdentifier? (identifier s : List Char) : Option (List Char × List Char) :=
  (after? identifier s).map fun rest => (identifier, rest)

end Grammar

/-! ## Section 3: Cutting a line -/

/-- Cuts a text into pieces after skipping the first `skip` characters, which
    belong to a piece that was found already. -/
def Piece.cut (find : List Char → Option Sighting) : Nat → List Char → List Piece
  | _, [] => []
  | skip + 1, _ :: s => cut find skip s
  | 0, c :: s =>
    match find (c :: s) with
    | some t => .tag t :: cut find (t.raw.length - 1) s
    | none   => .plain c :: cut find 0 s

namespace Grammar

/-- A line cut at the tags with any identifier. -/
def pieces (g : Grammar) (line : List Char) : List Piece :=
  Piece.cut (g.sighting? g.anyIdentifier?) 0 line

/-- A line cut at the tags with exactly this identifier. -/
def piecesOf (g : Grammar) (identifier line : List Char) : List Piece :=
  Piece.cut (g.sighting? (exactIdentifier? identifier)) 0 line

/-- The tags of a line. -/
def sightings (g : Grammar) (line : List Char) : List Sighting :=
  Piece.sightings (g.pieces line)

/-- A line without its tags. -/
def untagged (g : Grammar) (line : List Char) : List Char :=
  Piece.untagged (g.pieces line)

end Grammar

end Marginalia
