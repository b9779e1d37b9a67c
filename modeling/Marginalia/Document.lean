import Marginalia.Text.Blank

/-! # Documents

    A source file as a sequence of lines, each of which remembers how it ends:

    * **`Line`**: a text and its terminator.
    * **`Document.parse`**, **`Document.render`**: from text to lines and back. A
      line that nobody changes comes back byte for byte, whatever mixture of
      terminators the file has.
    * **Edits**: a blank line is inserted, a text is appended to a line, lines are
      changed or dropped. -/

namespace Marginalia

open Text

/-! ## Section 1: Lines -/

/-- How a line ends. -/
inductive LineEnding where
  | lf
  | crlf
deriving DecidableEq, Repr

/-- The characters of a terminator. -/
def LineEnding.text : LineEnding → List Char
  | .lf   => ['\n']
  | .crlf => ['\r', '\n']

/-- One line and its terminator. -/
structure Line where
  text   : List Char
  ending : LineEnding
deriving DecidableEq, Repr

namespace Line

/-- The line whose text up to its line feed is `body`: a carriage return at the
    end of `body` belongs to the terminator. -/
def ofBody (body : List Char) : Line :=
  if body.getLast? = some '\r' then ⟨body.dropLast, .crlf⟩ else ⟨body, .lf⟩

/-- The line with its terminator. -/
def render (l : Line) : List Char :=
  l.text ++ l.ending.text

/-- Nothing can be seen on the line. -/
def isBlank (l : Line) : Bool :=
  allBlank l.text

end Line

/-! ## Section 2: Documents -/

/-- A sequence of lines. -/
structure Document where
  lines      : List Line
  /-- The terminator that most lines of the parsed text have. -/
  prevailing : LineEnding
  /-- The last line is followed by its terminator. -/
  terminated : Bool
deriving DecidableEq, Repr

namespace Document

/-- Splits a text at its line feeds: the complete lines, and what follows the
    last of them. The characters of the current line are collected in reverse. -/
def splitBodies (current : List Char) : List Char → List (List Char) × List Char
  | [] => ([], current.reverse)
  | c :: s =>
    if c = '\n' then
      let (bodies, rest) := splitBodies [] s
      (current.reverse :: bodies, rest)
    else splitBodies (c :: current) s

/-- The terminator of at least half of the lines; a text without any has line
    feeds. -/
def prevailingEnding (lines : List Line) : LineEnding :=
  let crlf := (lines.filter fun l => l.ending = .crlf).length
  if lines.isEmpty then .lf
  else if lines.length ≤ 2 * crlf then .crlf else .lf

/-- The lines of a text. A last line without a terminator is taken to end like the
    line above it. -/
def parse (text : List Char) : Document :=
  let (bodies, rest) := splitBodies [] text
  let complete := bodies.map Line.ofBody
  let prevailing := prevailingEnding complete
  let guess := (complete.getLast?.map Line.ending).getD prevailing
  { lines      := if rest.isEmpty then complete else complete ++ [⟨rest, guess⟩]
    prevailing := prevailing
    terminated := rest.isEmpty && !bodies.isEmpty }

/-- A document of the given lines, each ended by a line feed. -/
def ofLines (texts : List (List Char)) : Document where
  lines      := texts.map fun t => ⟨t, .lf⟩
  prevailing := .lf
  terminated := true

/-- The text of some lines, the last with its terminator only if asked for. -/
def renderLines (terminated : Bool) : List Line → List Char
  | [] => []
  | [l] => if terminated then l.render else l.text
  | l :: m :: ls => l.render ++ renderLines terminated (m :: ls)

/-- The text of a document. -/
def render (d : Document) : List Char :=
  renderLines d.terminated d.lines

/-- The number of lines. -/
def length (d : Document) : Nat :=
  d.lines.length

/-- The texts of the lines. -/
def texts (d : Document) : List (List Char) :=
  d.lines.map Line.text

/-- Line `i`, counted from zero, is absent or blank. -/
def isBlank (d : Document) (i : Nat) : Bool :=
  (d.lines[i]?).all Line.isBlank

/-! ## Section 3: Edits -/

/-- The terminator of line `i`. -/
def endingOf (d : Document) (i : Nat) : Option LineEnding :=
  (d.lines[i]?).map Line.ending

/-- The terminator of a line inserted before line `i`: that of the line above, or
    else of the line below, or else the prevailing one. -/
def endingAt (d : Document) (i : Nat) : LineEnding :=
  ((if i = 0 then none else d.endingOf (i - 1)).or (d.endingOf i)).getD d.prevailing

/-- Inserts an empty line before line `i`. -/
def insertBlank (d : Document) (i : Nat) : Document :=
  { d with lines := d.lines.insertIdx i ⟨[], d.endingAt i⟩ }

/-- Appends a text to line `i`. -/
def appendTo (d : Document) (i : Nat) (text : List Char) : Document :=
  { d with lines := d.lines.modify i fun l => { l with text := l.text ++ text } }

end Document

end Marginalia
