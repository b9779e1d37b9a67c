import Marginalia.Regex.Bracket
import Marginalia.Total

/-! # Reading written expressions

    A pattern is read from left to right by a machine with a stack of open groups:

    * **`Part`**: an expression with its nesting depth and its size, which are both
      limited.
    * **`Reader`**: what has been read, and what waits outside of the open groups.
    * **`Reader.step?`**: reads one character, escape, bracket expression, operator or
      parenthesis.
    * **`read?`**: the expression that a pattern stands for, with the numbers of its
      named groups. A pattern without a meaning stands for nothing. -/

namespace Marginalia.Regex

/-! ## Section 1: Parts -/

/-- A part of a sequence. -/
structure Part where
  /-- Inline flags are a part without an expression, which cannot be repeated. -/
  expr   : Option Regex
  depth  : Nat
  weight : Nat

namespace Part

/-- A part that holds no other. -/
def leaf (r : Regex) (weight : Nat) : Part := ⟨some r, 0, weight⟩

/-- What inline flags leave in a sequence. -/
def flags : Part := ⟨none, 0, 0⟩

/-- The expression of a part. -/
def toRegex (p : Part) : Regex := p.expr.getD .empty

/-- The parts of a sequence, given the latest first, as one part. -/
def sequence : List Part → Part
  | []  => leaf .empty 1
  | [p] => p
  | ps  =>
    let depth := (ps.map depth).foldl max 0
    match ps.filterMap expr with
    | []      => ⟨some .empty, depth + 1, total (ps.map weight)⟩
    | r :: rs => ⟨some (rs.foldl (fun acc r => .seq r acc) r), depth + 1, total (ps.map weight)⟩

/-- The branches of an alternation, given the latest first, as one part. -/
def choice : List Part → Part
  | []      => leaf .empty 1
  | [p]     => p
  | p :: ps =>
    ⟨some (ps.foldl (fun acc q => .alt q.toRegex acc) p.toRegex),
      ((p :: ps).map depth).foldl max 0 + 1, total ((p :: ps).map weight) + 1⟩

/-- A repeated part. -/
def repeated (greedy : Bool) (min : Nat) (max : Option Nat) (p : Part) : Option Part :=
  p.expr.map fun r =>
    let weight := match max with
      | some m => m * (p.weight + 1)
      | none   => (Nat.max min 1) * p.weight + 2
    ⟨some (.rep greedy min max r), p.depth + 1, weight⟩

/-- A part in parentheses, with the number that its match is remembered under. -/
def grouped (index : Option Nat) (p : Part) : Part :=
  match index with
  | some i => ⟨some (.group i p.toRegex), p.depth + 1, p.weight + 2⟩
  | none   => ⟨some p.toRegex, p.depth + 1, p.weight⟩

end Part

/-! ## Section 2: The reader -/

/-- What waits while a group is read. -/
structure OpenGroup where
  index    : Option Nat
  /-- The parts before the group, the latest first. -/
  parts    : List Part
  /-- The branches before the current one, the latest first. -/
  branches : List Part
  /-- The modes that hold again after the group. -/
  modes    : Modes

/-- What has been read of a pattern. -/
structure Reader where
  modes    : Modes
  parts    : List Part
  branches : List Part
  stack    : List OpenGroup
  /-- The named groups and their numbers. -/
  names    : List (List Char × Nat)
  /-- The number of groups. -/
  groups   : Nat
  rest     : List Char

namespace Reader

/-- Before the first character. -/
def start (pattern : List Char) : Reader :=
  ⟨{}, [], [], [], [], 0, pattern⟩

/-- Adds a part to the current sequence. -/
def push (st : Reader) (p : Part) (rest : List Char) : Reader :=
  { st with parts := p :: st.parts, rest }

/-- What the innermost open group holds. -/
def current (st : Reader) : Part :=
  Part.choice (Part.sequence st.parts :: st.branches)

/-! ### Operators -/

/-- Repeats the last part. -/
def repeatLast? (st : Reader) (greedy : Bool) (min : Nat) (max : Option Nat)
    (rest : List Char) : Option Reader :=
  match st.parts with
  | [] => none
  | p :: ps =>
    (p.repeated (greedy != st.modes.swapGreed) min max).map fun q =>
      { st with parts := q :: ps, rest }

/-- Reads the question mark that makes an operator lazy. -/
def greed : List Char → Bool × List Char
  | '?' :: s => (false, s)
  | s        => (true, s)

/-- Reads digits, and the blanks that verbose mode allows between them. -/
def digits (m : Modes) : Nat → List Char → List Char → List Char × List Char
  | 0, ds, s => (ds.reverse, s)
  | fuel + 1, ds, c :: s =>
    if c.isDigit then digits m fuel (c :: ds) (m.skipBlank s) else (ds.reverse, c :: s)
  | _ + 1, ds, [] => (ds.reverse, [])

/-- The least number that has more than 32 bits. -/
def countBound : Nat := 4294967296

/-- Reads a count with blanks around it. Counts have 32 bits. -/
def count? (m : Modes) (s : List Char) : Option (Nat × List Char) :=
  let s := s.dropWhile Text.isBlank
  let (ds, rest) := digits m s.length [] s
  let n := ds.foldl (fun n c => 10 * n + (c.toNat - 48)) 0
  if ds.isEmpty ∨ countBound ≤ n then none else some (n, rest.dropWhile Text.isBlank)

/-- Reads the counts of a repetition after its opening brace. -/
def counted? (st : Reader) (s : List Char) : Option Reader := do
  let m := st.modes
  let (low, s) ← count? m (m.skipBlank s)
  let (high, s) ← match s with
    | ',' :: s =>
      match m.skipBlank s with
      | '\x7d' :: s => some (none, '\x7d' :: s)
      | s => (count? m s).map fun (n, s) => (some n, s)
    | s => some (some low, s)
  match s with
  | '\x7d' :: s =>
    let (greedy, rest) := greed (m.skipBlank s)
    if high.all (low ≤ ·) then st.repeatLast? greedy low high rest else none
  | _ => none

/-! ### Groups -/

/-- Reads inline flags up to the character that ends them: the modes that they
    switch on and off, whether there are any, and that character. -/
def flags? (m : Modes) (seen : List Char) (on dangling : Bool) :
    List Char → Option (Modes × Bool × Char × List Char)
  | [] => none
  | c :: s =>
    if c = ':' ∨ c = ')' then
      if dangling then none else some (m, !seen.isEmpty || !on, c, s)
    else if c = '-' then
      if on then flags? m seen false true s else none
    else if seen.contains c then none
    else
      match m.switch? on c with
      | some m => flags? m (c :: seen) on false s
      | none   => none

/-- A character of a group's name. -/
def isNameChar (first : Bool) (c : Char) : Bool :=
  if first then c == '_' || Unicode.isAlphabetic c
  else c == '_' || c == '.' || c == '[' || c == ']' || Unicode.isAlphabetic c ||
    Unicode.isNumeric c

/-- Reads a group's name up to its closing angle bracket. -/
def name? (s : List Char) : Option (List Char × List Char) :=
  match s.takeWhile (· != '>'), s.dropWhile (· != '>') with
  | c :: cs, '>' :: rest =>
    if isNameChar true c && cs.all (isNameChar false) then some (c :: cs, rest) else none
  | _, _ => none

/-- Opens a group. -/
def openGroup (st : Reader) (index : Option Nat) (inner : Modes) (rest : List Char) : Reader :=
  { st with
    modes := inner
    parts := []
    branches := []
    stack := ⟨index, st.parts, st.branches, st.modes⟩ :: st.stack
    rest }

/-- Opens a group whose match is remembered. -/
def openNumbered (st : Reader) (rest : List Char) : Reader :=
  { st with groups := st.groups + 1 }.openGroup (some (st.groups + 1)) st.modes rest

/-- Opens a group with a name, which no other group may have. -/
def openNamed? (st : Reader) (s : List Char) : Option Reader := do
  let (name, rest) ← name? s
  if (st.names.lookup name).isSome then none
  else some ({ st with names := (name, st.groups + 1) :: st.names }.openNumbered rest)

/-- Reads what follows an opening parenthesis: a group, or inline flags that hold
    until the surrounding group ends. Groups that look around are not known. -/
def parenthesis? (st : Reader) (s : List Char) : Option Reader :=
  match st.modes.skipBlank s with
  | '?' :: 'P' :: '<' :: s => st.openNamed? s
  | '?' :: '<' :: '=' :: _ => none
  | '?' :: '<' :: '!' :: _ => none
  | '?' :: '<' :: s => st.openNamed? s
  | '?' :: s =>
    match flags? st.modes [] true false s with
    | some (m, given, ending, rest) =>
      if ending = ':' then some (st.openGroup none m rest)
      else if given then some { st with modes := m, parts := Part.flags :: st.parts, rest }
      else none
    | none => none
  | s => some (st.openNumbered s)

/-- Closes the innermost open group. -/
def close? (st : Reader) (rest : List Char) : Option Reader :=
  match st.stack with
  | [] => none
  | g :: stack =>
    some { st with
      modes    := g.modes
      parts    := Part.grouped g.index st.current :: g.parts
      branches := g.branches
      stack
      rest }

/-! ### Steps -/

/-- The condition that a hat or a dollar sign stands for. -/
def lineEdge (m : Modes) (start : Bool) : Look :=
  match m.multiLine, m.crlf, start with
  | false, _, true     => .textStart
  | false, _, false    => .textEnd
  | true, false, true  => .lineStart
  | true, false, false => .lineEnd
  | true, true, true   => .anyLineStart
  | true, true, false  => .anyLineEnd

/-- Adds a character that stands for itself. -/
def pushChar (st : Reader) (c : Char) (rest : List Char) : Reader :=
  st.push (.leaf (.set (st.modes.fold (CharSet.single c))) c.utf8Size) rest

/-- Adds a set, if the modes permit it. -/
def pushSet? (st : Reader) (chars : CharSet) (weight : Nat) (rest : List Char) :
    Option Reader :=
  if st.modes.permits chars then some (st.push (.leaf (.set chars) weight) rest) else none

/-- Reads the next thing. -/
def step? (st : Reader) : Option Reader :=
  match st.rest with
  | [] => none
  | c :: s =>
    match c with
    | '('  => st.parenthesis? s
    | ')'  => st.close? s
    | '|'  =>
      some { st with
        parts := [], branches := Part.sequence st.parts :: st.branches, rest := s }
    | '['  => (bracket? st.modes s).map fun (chars, weight, rest) =>
        st.push ⟨some (.set chars), 1, weight⟩ rest
    | '?'  => st.repeatLast? (greed s).1 0 (some 1) (greed s).2
    | '*'  => st.repeatLast? (greed s).1 0 none (greed s).2
    | '+'  => st.repeatLast? (greed s).1 1 none (greed s).2
    | '\x7b' => st.counted? s
    | '\\' =>
      match escape? st.modes s with
      | some (.literal c byte, rest) =>
        if byte && !st.modes.unicode && 0x80 ≤ c.toNat then none
        else some (st.pushChar c rest)
      | some (.set chars weight, rest) => st.pushSet? chars weight rest
      | some (.look l, rest) => some (st.push (.leaf (.look l) 1) rest)
      | none => none
    | '.'  => st.pushSet? st.modes.dot 12 s
    | '^'  => some (st.push (.leaf (.look (lineEdge st.modes true)) 1) s)
    | '$'  => some (st.push (.leaf (.look (lineEdge st.modes false)) 1) s)
    | c    => some (st.pushChar c s)

/-- Reads to the end of the pattern. Each step takes a character, so the length of
    the pattern is fuel enough. -/
def run? : Nat → Reader → Option Reader
  | fuel, st =>
    let st := { st with rest := st.modes.skipBlank st.rest }
    if st.rest.isEmpty then some st
    else
      match fuel with
      | 0 => none
      | fuel + 1 => st.step?.bind (run? fuel)

end Reader

/-! ## Section 3: Whole patterns -/

/-- How deeply expressions may nest. -/
def depthLimit : Nat := 250

/-- How many steps of a machine an expression may take: ten megabytes of steps that
    take 32 bytes each. -/
def weightLimit : Nat := 327680

/-- The expression that a pattern stands for, with the numbers of its named groups. -/
def read? (pattern : List Char) : Option (Regex × List (List Char × Nat)) := do
  let st ← (Reader.start pattern).run? pattern.length
  let whole := st.current
  if st.stack.isEmpty && whole.depth ≤ depthLimit && whole.weight ≤ weightLimit then
    some (whole.toRegex, st.names)
  else none

end Marginalia.Regex
