import Marginalia.Regex.Reader
import Marginalia.Tag.Sighting

/-! # Selecting tags

    Removing tags starts with saying which:

    * **`Grammar.tagPattern`**: the regular expression for the tags whose identifier
      matches another one. It is put together as text, so an identifier's pattern is
      read in its surroundings.
    * **`TagPattern`**: such an expression, and how it cuts a line.
    * **`Selector`**: any tag, the tags of one identifier, or those of a pattern. -/

namespace Marginalia

/-! ## Section 1: Patterns -/

/-- A character that means something in a pattern. -/
def isPatternMeta (c : Char) : Bool :=
  "\\.+*?()|[]\x7b\x7d^$#&-~".toList.contains c

/-- The pattern that matches exactly a text. -/
def escapePattern (s : List Char) : List Char :=
  s.flatMap fun c => if isPatternMeta c then ['\\', c] else [c]

namespace Grammar

/-- The pattern of an optional mark in a group of its own. -/
def markPattern (name : String) (c : Char) : List Char :=
  "(?P<".toList ++ name.toList ++ ['>'] ++ escapePattern [c] ++ ")?".toList

/-- The pattern of the tags whose identifiers match `inner`. -/
def tagPattern (g : Grammar) (inner : List Char) : List Char :=
  escapePattern g.opener ++ escapePattern [joiner] ++ ['?'] ++ markPattern "start" g.boundary ++
    escapePattern [g.separator] ++ "(?P<id>".toList ++ inner ++ [')'] ++
    escapePattern [g.separator] ++ markPattern "end" g.boundary ++
    markPattern "cleanup" g.cleanup ++ escapePattern g.closer

/-- The pattern of all identifiers that can be read in a tag. -/
def anyIdentifierPattern (g : Grammar) : List Char :=
  "[^".toList ++ escapePattern [g.separator] ++ "\\r\\n]+?".toList

end Grammar

/-- A pattern of tags. -/
structure TagPattern where
  expr  : Regex
  names : List (List Char × Nat)

namespace TagPattern

/-- The pattern of the tags whose identifier matches `pattern`, if that makes a
    pattern. -/
def compile? (g : Grammar) (pattern : List Char) : Option TagPattern :=
  (Regex.read? (g.tagPattern ("(?:".toList ++ pattern ++ [')']))).map fun (expr, names) =>
    ⟨expr, names⟩

/-- What the group of this name matched. -/
def group? (p : TagPattern) (q : Place) (name : String) : Option (List Char) :=
  (p.names.lookup name.toList).bind q.group?

/-- The tag at the beginning of `s`, which follows the character `prev`. -/
def sighting? (p : TagPattern) (prev : Option Char) (s : List Char) : Option Sighting :=
  (p.expr.matchAt? ⟨0, prev, s, []⟩).map fun q =>
    { identifier := (p.group? q "id").getD []
      startMark  := (p.group? q "start").isSome
      endMark    := (p.group? q "end").isSome
      cleanup    := (p.group? q "cleanup").isSome
      raw        := s.take q.offset }

/-- Cuts a text into pieces after skipping characters of a piece that was found
    already. A pattern may match the empty text, though not where another match has
    just `ended`. -/
def cut (p : TagPattern) : Nat → Bool → Option Char → List Char → List Piece
  | 0, ended, prev, [] =>
    match p.sighting? prev [] with
    | some t => if ended then [] else [.tag t]
    | none   => []
  | _ + 1, _, _, [] => []
  | skip + 1, _, _, c :: s => p.cut skip true (some c) s
  | 0, ended, prev, c :: s =>
    match p.sighting? prev (c :: s) with
    | some t =>
      if t.raw.isEmpty then
        if ended then .plain c :: p.cut 0 false (some c) s
        else .tag t :: .plain c :: p.cut 0 false (some c) s
      else .tag t :: p.cut (t.raw.length - 1) true (some c) s
    | none => .plain c :: p.cut 0 false (some c) s

end TagPattern

/-! ## Section 2: Selectors -/

/-- Which tags are meant. -/
inductive Selector where
  | any
  | exactly (identifier : List Char)
  | pattern (p : TagPattern)

/-- A line cut at the tags that are meant. -/
def Selector.pieces (g : Grammar) : Selector → List Char → List Piece
  | .any, line                => g.pieces line
  | .exactly identifier, line => g.piecesOf identifier line
  | .pattern p, line          => p.cut 0 false none line

end Marginalia
