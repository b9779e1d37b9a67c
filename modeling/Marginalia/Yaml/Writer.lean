import Marginalia.Json.Writer
import Marginalia.Total
import Marginalia.Yaml.Char
import Marginalia.Yaml.Resolution

/-! # Writing YAML

    * **`Survey`**: what stands in the way of each spelling of a text.
    * **`scalar`**: a text without quotes if it would be read as the same text, as a
      block if it has several lines, and between quotes otherwise.
    * **`write`**: lists and tables as indented blocks. A list in a table is not
      indented; a list or table in a list begins on the line of its dash. -/

namespace Marginalia.Yaml

/-! ## Section 1: Looking at a text -/

/-- What stands in the way of the spellings of a text. -/
structure Survey where
  /-- A character that means something else without quotes. -/
  indicator     : Bool
  /-- A character that has to be escaped. -/
  unprintable   : Bool
  hasBreak      : Bool
  /-- A space or line break at either end. -/
  looseEnd      : Bool
  trailingSpace : Bool
  breakSpace    : Bool
  spaceBreak    : Bool

/-- A character that may not begin a text without quotes. -/
def isLeadingIndicator (c : Char) : Bool :=
  "#,[]\x7b\x7d&*!|>'\"%@`".toList.contains c

/-- The first character of a text, with what follows it, means something else. -/
def leadsAstray : List Char → Bool
  | []     => false
  | c :: s => isLeadingIndicator c || ((c == '?' || c == ':' || c == '-') && isBlankOrEnd s)

/-- A later character, with its neighbours, means something else. -/
def misleads : List Char → Bool
  | []      => false
  | [_]     => false
  | a :: c :: s =>
    (c == ':' && isBlankOrEnd s) || (c == '#' && (isBlank a || isBreak a)) || misleads (c :: s)

/-- A text begins like the line between two documents. -/
def beginsLikeMark (s : List Char) : Bool :=
  "---".toList.isPrefixOf s || "...".toList.isPrefixOf s

/-- Two neighbours of the given kinds, one after the other. -/
def haveNeighbours (p q : Char → Bool) : List Char → Bool
  | []          => false
  | [_]         => false
  | a :: c :: s => (p a && q c) || haveNeighbours p q (c :: s)

/-- Looks at a text. -/
def survey (s : Text) : Survey :=
  let isSpace := fun c => c == ' '
  let isLoose := fun c => isSpace c || isBreak c
  { indicator     := beginsLikeMark s || leadsAstray s || misleads s
    unprintable   := s.any fun c => !isPrintable c
    hasBreak      := s.any isBreak
    looseEnd      := s.head?.any isLoose || s.getLast?.any isLoose
    trailingSpace := s.getLast?.any isSpace
    breakSpace    := haveNeighbours isBreak isSpace s
    spaceBreak    := haveNeighbours isSpace isBreak s }

/-- A text may stand without quotes. -/
def Survey.allowsPlain (v : Survey) : Bool :=
  !v.indicator && !v.unprintable && !v.hasBreak && !v.looseEnd

/-- A text may stand between apostrophes. -/
def Survey.allowsSingle (v : Survey) : Bool :=
  !v.unprintable && !v.breakSpace && !v.spaceBreak

/-- A text may stand as a block. -/
def Survey.allowsBlock (v : Survey) : Bool :=
  !v.unprintable && !v.spaceBreak && !v.trailingSpace

/-! ## Section 2: Texts -/

/-- Spaces up to a column. -/
def pad (column : Nat) : List Char :=
  List.replicate column ' '

/-- The lines of a text that begin after a break are moved to a column. -/
def indentLines (column : Nat) : Bool → List Char → List Char
  | _, [] => []
  | fresh, c :: s =>
    if isBreak c then c :: indentLines column true s
    else (if fresh then pad column else []) ++ c :: indentLines column false s

/-- The capital hexadecimal digits of a number, with zeros up to a width. -/
def hexDigits (width n : Nat) : List Char :=
  let ds := (Nat.toDigits 16 n).map Char.toUpper
  List.replicate (width - ds.length) '0' ++ ds

/-- The escape of a character. -/
def escape (c : Char) : List Char :=
  let n := c.toNat
  '\\' ::
    if n = 0 then ['0']
    else if n = 7 then ['a']
    else if n = 8 then ['b']
    else if n = 9 then ['t']
    else if n = 10 then ['n']
    else if n = 11 then ['v']
    else if n = 12 then ['f']
    else if n = 13 then ['r']
    else if n = 27 then ['e']
    else if n = 0x85 then ['N']
    else if n = 0x2028 then ['L']
    else if n = 0x2029 then ['P']
    else if c = '"' || c = '\\' then [c]
    else if n ≤ 0xFF then 'x' :: hexDigits 2 n
    else if n ≤ 0xFFFF then 'u' :: hexDigits 4 n
    else 'U' :: hexDigits 8 n

/-- A text between double quotes. -/
def doubleQuoted (s : Text) : List Char :=
  let inner := s.flatMap fun c =>
    if !isPrintable c || isBreak c || c == '"' || c == '\\' then escape c else [c]
  '"' :: inner ++ ['"']

/-- A text between apostrophes. Its later lines begin at a column. -/
def singleQuoted (column : Nat) (s : Text) : List Char :=
  let doubled := s.flatMap fun c => if c = '\'' then ['\'', '\''] else [c]
  let last := if s.getLast?.any isBreak then pad column else []
  '\'' :: indentLines column false doubled ++ last ++ ['\'']

/-- How many line breaks stand at the end of a block, as its first line says. -/
def chomping (s : Text) : List Char :=
  match s.reverse with
  | []      => ['-']
  | [c]     => if isBreak c then ['+'] else ['-']
  | c :: d :: _ => if !isBreak c then ['-'] else if isBreak d then ['+'] else []

/-- A text as a block whose lines begin at a column. -/
def block (column : Nat) (s : Text) : List Char :=
  let hint := if s.head?.any fun c => c == ' ' || isBreak c then ['2'] else []
  '|' :: hint ++ chomping s ++ '\n' :: indentLines column true s

/-- A text, whose later lines begin at a column. -/
def scalar (column : Nat) (s : Text) : List Char :=
  let v := survey s
  let quoted := if v.allowsSingle then singleQuoted column s else doubleQuoted s
  if s.contains '\n' then if v.allowsBlock then block column s else doubleQuoted s
  else if isAmbiguous s || !v.allowsPlain then quoted
  else s

/-! ## Section 3: Lists and tables -/

/-- Ends a line that is not over yet. -/
def endLine (s : List Char) : List Char :=
  if s.getLast?.any isBreak then s else s ++ ['\n']

/-- How many bytes a key may take to stand on the line of its value. -/
def keyLimit : Nat := 128

/-- A key can stand on the line of its value. -/
def isShortKey (k : Text) : Bool :=
  !k.any isBreak && byteLength k ≤ keyLimit

/-- A value that has no parts, whose later lines begin at a column. -/
def simple (column : Nat) : Data → List Char
  | .null      => "null".toList
  | .bool b    => (if b then "true" else "false").toList
  | .int n     => (toString n).toList
  | .literal s => s
  | .text s    => scalar column s
  | .list _    => ['[', ']']
  | .table _   => ['\x7b', '\x7d']

/-- A list or table that has parts. -/
def hasParts : Data → Bool
  | .list ds  => !ds.isEmpty
  | .table es => !es.isEmpty
  | _         => false

mutual

/-- The lines of a value whose parts begin at `column`, where its first line has already
    come this far. -/
def lines (column : Nat) : Data → List Char
  | .list (d :: ds)        => items column (d :: ds)
  | .table ((k, d) :: es)  => entries column ((k, d) :: es)
  | d                      => endLine (simple column d)

/-- The items of a list whose first dash has already come to its column. -/
def items (column : Nat) : List Data → List Char
  | []      => []
  | d :: ds =>
    '-' :: ' ' :: lines (column + 2) d ++
      (if ds.isEmpty then [] else pad column ++ items column ds)

/-- The entries of a table whose first key has already come to its column. -/
def entries (column : Nat) : List (Text × Data) → List Char
  | []           => []
  | (k, d) :: es =>
    let key := scalar (column + 2) k
    (if isShortKey k then
      match d with
      | .list (d :: ds)       => key ++ ':' :: '\n' :: pad column ++ items column (d :: ds)
      | .table ((k, d) :: fs) =>
        key ++ ':' :: '\n' :: pad (column + 2) ++ entries (column + 2) ((k, d) :: fs)
      | d => key ++ ':' :: ' ' :: endLine (simple (column + 2) d)
    else
      '?' :: ' ' :: endLine key ++ pad column ++ ':' :: ' ' :: lines (column + 2) d) ++
      (if es.isEmpty then [] else pad column ++ entries column es)

end

/-- A whole file. -/
def write (d : Data) : List Char :=
  if hasParts d then lines 0 d else endLine (simple 2 d)

end Marginalia.Yaml
