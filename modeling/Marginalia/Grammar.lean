import Marginalia.Text.Blank
import Marginalia.Text.Search

/-! # Tag grammars

    A review tag is a native comment of the tagged file, so how it is written
    depends on the file's language:

    * **`Spelling`**: three marks and two comment delimiters, as somebody chose
      them.
    * **`Spelling.fault?`**: the first reason to refuse a spelling.
    * **`Grammar`**: a spelling without a fault. Everything else in this library
      works with grammars only.
    * **`Grammar.identifierFault?`**: the first reason to refuse an identifier,
      which has to stay readable between the marks and inside the comment. -/

namespace Marginalia

open Text

/-! ## Section 1: Spellings -/

/-- The three marks inside a tag. -/
inductive Mark where
  /-- Stands at the side on which the tagged range begins or ends. -/
  | boundary
  /-- Stands before and after the identifier. -/
  | separator
  /-- Asks to delete the tag's line once nothing else is left on it. -/
  | cleanup
deriving DecidableEq, Repr

/-- The name of a mark in messages. -/
def Mark.name : Mark → String
  | .boundary  => "start/end marker"
  | .separator => "key separator"
  | .cleanup   => "cleanup marker"

/-- The characters and delimiters that tags are written with. -/
structure Spelling where
  boundary  : Char
  separator : Char
  cleanup   : Char
  opener    : List Char
  closer    : List Char
deriving DecidableEq, Repr

/-- Joins the comment opener and the tag, so that tags differ from ordinary
    comments at first sight. -/
def joiner : Char := '-'

namespace Spelling

/-- The character chosen for a mark. -/
def mark (s : Spelling) : Mark → Char
  | .boundary  => s.boundary
  | .separator => s.separator
  | .cleanup   => s.cleanup

/-- Why a spelling is refused. -/
inductive Fault where
  | invisible (m : Mark)
  | isJoiner (m : Mark)
  | clash (m n : Mark) (c : Char)
  | emptyDelimiter
  | brokenDelimiter
deriving DecidableEq, Repr

/-- What is wrong with one mark, given the marks that it is still to be compared
    with. -/
def markFault? (s : Spelling) (m : Mark) (others : List Mark) : Option Fault :=
  let c := s.mark m
  if isBlank c || isControl c then some (.invisible m)
  else if c = joiner then some (.isJoiner m)
  else (others.find? fun n => s.mark n = c).map fun n => .clash m n c

/-- What is wrong with the comment delimiters. -/
def delimiterFault? (s : Spelling) : Option Fault :=
  if allBlank s.opener || allBlank s.closer then some .emptyDelimiter
  else if s.opener.any isLineBreak || s.closer.any isLineBreak then some .brokenDelimiter
  else none

/-- The first fault of a spelling: the marks in order, then the delimiters. -/
def fault? (s : Spelling) : Option Fault :=
  (s.markFault? .boundary [.separator, .cleanup]).or
    ((s.markFault? .separator [.cleanup]).or
      ((s.markFault? .cleanup []).or s.delimiterFault?))

/-- The wording of a fault. -/
def Fault.message : Fault → String
  | .invisible m => m.name ++ " must be a visible character"
  | .isJoiner m =>
    m.name ++ " must not be '-', which joins the comment opener and the tag"
  | .clash m n c =>
    m.name ++ " and " ++ n.name ++ " must differ (both are '" ++ String.singleton c ++ "')"
  | .emptyDelimiter => "comment delimiters must not be empty"
  | .brokenDelimiter => "comment delimiters must fit on one line"

end Spelling

/-! ## Section 2: Grammars -/

/-- A spelling in which every tag can be told apart from its surroundings: its
    marks are visible, differ from each other and from the joiner, and its
    delimiters are not blank and fit on one line. -/
structure Grammar extends Spelling where
  accepted : toSpelling.fault? = none
deriving DecidableEq

namespace Grammar

/-- The grammar of a spelling, or the reason why there is none. -/
def ofSpelling (s : Spelling) : Except Spelling.Fault Grammar :=
  match h : s.fault? with
  | none => .ok ⟨s, h⟩
  | some f => .error f

/-- The grammar of languages whose comments stand between `/*` and `*/`. -/
def standard : Grammar where
  boundary  := '?'
  separator := '|'
  cleanup   := '~'
  opener    := ['/', '*']
  closer    := ['*', '/']
  accepted  := by decide

instance : Inhabited Grammar := ⟨standard⟩

theorem ofSpelling_eq_ok_iff {s : Spelling} {g : Grammar} :
    ofSpelling s = .ok g ↔ g.toSpelling = s := by
  unfold ofSpelling
  split
  · constructor
    · rintro ⟨⟩
      rfl
    · intro h
      cases g
      simp_all
  · next f hf =>
    constructor
    · rintro ⟨⟩
    · intro h
      have := g.accepted
      simp_all

/-- Whether a character is one of the three marks. -/
def isMark (g : Grammar) (c : Char) : Bool :=
  c == g.boundary || c == g.separator || c == g.cleanup

/-! ## Section 3: Identifiers -/

/-- Why an identifier is refused. -/
inductive IdentifierFault where
  | empty
  | mark (c : Char)
  | lineBreak
  | delimiter (d : List Char)
  | doubleHyphen
deriving DecidableEq, Repr

/-- The closing delimiter of markup comments, in which two hyphens may not
    follow each other. -/
def markupCloser : List Char := ['-', '-', '>']

/-- The first reason to refuse an identifier: it is empty, or holds a mark, a
    line break, one of the delimiters, or two hyphens in a markup comment. -/
def identifierFault? (g : Grammar) (identifier : List Char) : Option IdentifierFault :=
  if identifier.isEmpty then some .empty
  else if let some c := identifier.find? g.isMark then some (.mark c)
  else if identifier.any isLineBreak then some .lineBreak
  else if occursIn g.opener identifier then some (.delimiter g.opener)
  else if occursIn g.closer identifier then some (.delimiter g.closer)
  else if g.closer = markupCloser ∧ occursIn ['-', '-'] identifier = true then
    some .doubleHyphen
  else none

/-- The wording of a fault. -/
def IdentifierFault.message : IdentifierFault → String
  | .empty        => "identifier is empty"
  | .mark c       => "contains reserved marker character '" ++ String.singleton c ++ "'"
  | .lineBreak    => "contains a line break"
  | .delimiter d  => "contains the comment delimiter '" ++ String.ofList d ++ "'"
  | .doubleHyphen => "contains '--', which breaks markup comments"

end Grammar

end Marginalia
