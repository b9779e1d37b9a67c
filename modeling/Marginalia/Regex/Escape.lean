import Marginalia.Regex.Basic

/-! # Modes and escapes of written expressions

    * **`Modes`**: what inline flags switch. They decide how the text that follows
      is read and what sets it stands for.
    * **`skipBlank`**: in verbose mode, white space and comments mean nothing.
    * **`Escape`**, **`escape?`**: what a backslash introduces. -/

namespace Marginalia.Regex

/-! ## Section 1: Modes -/

/-- The switches that inline flags set. -/
structure Modes where
  ignoreCase : Bool := false
  multiLine  : Bool := false
  /-- A dot also matches a line feed. -/
  dotAll     : Bool := false
  /-- Operators without a question mark are the lazy ones. -/
  swapGreed  : Bool := false
  /-- Sets are sets of characters, not of single bytes. -/
  unicode    : Bool := true
  /-- A carriage return may end a line too. -/
  crlf       : Bool := false
  verbose    : Bool := false
deriving DecidableEq, Repr

namespace Modes

/-- The modes after a flag letter switched one of them. -/
def switch? (m : Modes) (on : Bool) : Char → Option Modes
  | 'i' => some { m with ignoreCase := on }
  | 'm' => some { m with multiLine := on }
  | 's' => some { m with dotAll := on }
  | 'U' => some { m with swapGreed := on }
  | 'u' => some { m with unicode := on }
  | 'R' => some { m with crlf := on }
  | 'x' => some { m with verbose := on }
  | _   => none

/-- The set that a written set stands for. -/
def fold (m : Modes) (s : CharSet) : CharSet :=
  if m.ignoreCase then (if m.unicode then s.folded else s.foldedAscii) else s

/-- A set of single bytes may not reach beyond ASCII, where a byte is no character. -/
def permits (m : Modes) (s : CharSet) : Bool :=
  m.unicode || (List.range 128).all fun k => !s (Char.ofNat (128 + k))

/-- The set of a dot. -/
def dot (m : Modes) : CharSet :=
  if m.dotAll then CharSet.all
  else if m.crlf then CharSet.compl (CharSet.ofString "\r\n")
  else CharSet.compl (CharSet.single '\n')

/-- The decimal digits. -/
def digits (m : Modes) : CharSet :=
  if m.unicode then Unicode.isDecimal else CharSet.asciiDigit

/-- White space. -/
def spaces (m : Modes) : CharSet :=
  if m.unicode then Text.isBlank else CharSet.asciiSpace

/-- The characters of words. -/
def words (m : Modes) : CharSet :=
  if m.unicode then Unicode.isWordChar else CharSet.asciiWord

end Modes

/-- Drops white space and comments. The flag says whether a comment is open. -/
def dropBlank : Bool → List Char → List Char
  | _, [] => []
  | true, c :: s => dropBlank (c != '\n') s
  | false, c :: s =>
    if Text.isBlank c then dropBlank false s
    else if c = '#' then dropBlank true s
    else c :: s

/-- The text from the next character on that means something. -/
def Modes.skipBlank (m : Modes) (s : List Char) : List Char :=
  if m.verbose then dropBlank false s else s

/-! ## Section 2: Escapes -/

/-- What an escape stands for. -/
inductive Escape where
  /-- One character. With `byte`, it was written as the number of a byte. -/
  | literal (c : Char) (byte : Bool)
  /-- A set, and roughly how many steps of a machine it takes to read it. -/
  | set (s : CharSet) (weight : Nat)
  | look (l : Look)

/-- The value of a hexadecimal digit. -/
def hexValue? (c : Char) : Option Nat :=
  if '0' ≤ c ∧ c ≤ '9' then some (c.toNat - 48)
  else if 'a' ≤ c ∧ c ≤ 'f' then some (c.toNat - 87)
  else if 'A' ≤ c ∧ c ≤ 'F' then some (c.toNat - 55)
  else none

/-- The character with this number, if there is one. -/
def charOfNat? (n : Nat) : Option Char :=
  if n.isValidChar then some (Char.ofNat n) else none

/-- Reads exactly `n` hexadecimal digits. -/
def hexDigits? (m : Modes) : Nat → Nat → List Char → Option (Nat × List Char)
  | 0, value, s => some (value, s)
  | _ + 1, _, [] => none
  | n + 1, value, c :: s =>
    (hexValue? c).bind fun d => hexDigits? m n (16 * value + d) (m.skipBlank s)

/-- Reads a text up to the closing brace that ends it. -/
def braced? (m : Modes) : Nat → List Char → List Char → Option (List Char × List Char)
  | 0, _, _ => none
  | fuel + 1, name, s =>
    match m.skipBlank s with
    | [] => none
    | '\x7d' :: rest => some (name.reverse, rest)
    | c :: rest => braced? m fuel (c :: name) rest

/-- Reads the number of a character: so many digits, or any number of them in
    braces. -/
def hexEscape? (m : Modes) (digits : Nat) (byte : Bool) (s : List Char) :
    Option (Escape × List Char) :=
  match m.skipBlank s with
  | '\x7b' :: rest => do
    let (name, rest) ← braced? m (rest.length + 1) [] rest
    if name.isEmpty then none
    let value ← name.foldlM (fun n c => (hexValue? c).map (16 * n + ·)) 0
    let c ← charOfNat? value
    return (.literal c false, m.skipBlank rest)
  | s => do
    let (value, rest) ← hexDigits? m digits 0 s
    let c ← charOfNat? value
    return (.literal c byte, rest)

/-- Splits a property at the sign between its name and its value. The flag says
    that the value is the one that the property does not have. -/
def splitProperty : List Char → Option (List Char × Bool × List Char)
  | name =>
    match name.idxOf? '!' with
    | some i => if name[i + 1]? = some '=' then some (name.take i, true, name.drop (i + 2))
                else plain name
    | none => plain name
where
  /-- Splits at a colon, or else at an equals sign. -/
  plain (name : List Char) : Option (List Char × Bool × List Char) :=
    match (name.idxOf? ':').or (name.idxOf? '=') with
    | some i => some (name.take i, false, name.drop (i + 1))
    | none => none

/-- The set of a property name, written in full. -/
def propertySet? (m : Modes) (negated : Bool) (name : List Char) : Option CharSet :=
  if !m.unicode then none
  else
    match splitProperty name with
    | some (name, unequal, value) =>
      (CharSet.ofPropertyValue? name value).map fun s =>
        if negated != unequal then (m.fold s).compl else m.fold s
    | none =>
      (CharSet.ofPropertyName? name).map fun s =>
        if negated then (m.fold s).compl else m.fold s

/-- Reads a property: one letter, or a name in braces. -/
def propertyEscape? (m : Modes) (negated : Bool) (s : List Char) :
    Option (Escape × List Char) :=
  match m.skipBlank s with
  | [] => none
  | '\x7b' :: rest => do
    let (name, rest) ← braced? m (rest.length + 1) [] rest
    let chars ← propertySet? m negated name
    return (.set chars 300, rest)
  | c :: rest =>
    if c = '\\' then none
    else (propertySet? m negated [c]).map fun chars => (.set chars 300, m.skipBlank rest)

/-- A character of the names of word edges. -/
def isEdgeNameChar (c : Char) : Bool :=
  c.isAlpha || c == '-'

/-- Reads the rest of a name of a word edge, up to its closing brace. -/
def edgeName? (m : Modes) : Nat → List Char → List Char → Option (List Char × List Char)
  | 0, _, _ => none
  | fuel + 1, name, s =>
    match m.skipBlank s with
    | [] => none
    | c :: rest =>
      if isEdgeNameChar c then edgeName? m fuel (c :: name) rest
      else if c = '\x7d' then some (name.reverse, rest)
      else none

/-- Reads what follows `\b`: nothing, or the name of a word edge in braces. A brace
    that no name follows begins a repetition. -/
def edgeEscape? (m : Modes) (s : List Char) : Option (Escape × List Char) :=
  let plain := some (Escape.look (.word .boundary !m.unicode), s)
  match s with
  | '\x7b' :: rest =>
    match m.skipBlank rest with
    | [] => none
    | c :: _ =>
      if isEdgeNameChar c then do
        let (name, rest) ← edgeName? m (rest.length + 1) [] rest
        let edge ← match String.ofList name with
          | "start"      => some WordEdge.start
          | "end"        => some WordEdge.finish
          | "start-half" => some WordEdge.startHalf
          | "end-half"   => some WordEdge.finishHalf
          | _            => none
        return (.look (.word edge !m.unicode), rest)
      else plain
  | _ => plain

/-- A character that a backslash makes stand for itself. -/
def isEscapable (c : Char) : Bool :=
  c.toNat < 0x80 && !c.isAlphanum && c != '<' && c != '>'

/-- Reads what follows a backslash. -/
def escape? (m : Modes) : List Char → Option (Escape × List Char)
  | [] => none
  | c :: s =>
    match c with
    | 'x' => hexEscape? m 2 true s
    | 'u' => hexEscape? m 4 false s
    | 'U' => hexEscape? m 8 false s
    | 'p' => propertyEscape? m false s
    | 'P' => propertyEscape? m true s
    | 'd' => some (.set m.digits 120, s)
    | 'D' => some (.set m.digits.compl 120, s)
    | 's' => some (.set m.spaces 20, s)
    | 'S' => some (.set m.spaces.compl 20, s)
    | 'w' => some (.set m.words 600, s)
    | 'W' => some (.set m.words.compl 600, s)
    | 'a' => some (.literal (Char.ofNat 7) false, s)
    | 'f' => some (.literal (Char.ofNat 12) false, s)
    | 't' => some (.literal '\t' false, s)
    | 'n' => some (.literal '\n' false, s)
    | 'r' => some (.literal '\r' false, s)
    | 'v' => some (.literal (Char.ofNat 11) false, s)
    | 'A' => some (.look .textStart, s)
    | 'z' => some (.look .textEnd, s)
    | 'b' => edgeEscape? m s
    | 'B' => some (.look (.word .noBoundary !m.unicode), s)
    | '<' => some (.look (.word .start !m.unicode), s)
    | '>' => some (.look (.word .finish !m.unicode), s)
    | c   => if isEscapable c then some (.literal c false, s) else none

end Marginalia.Regex
