import Marginalia.Regex.Escape

/-! # Bracket expressions

    A bracket expression lists characters, ranges and other sets between square
    brackets. Brackets may stand inside brackets, and three operators combine what
    stands on their sides:

    * **`Bracket.Frame`**: what waits while an inner bracket or a right side is read.
    * **`Bracket.step?`**: reads the next item, operator or bracket.
    * **`bracket?`**: reads a whole expression after its opening bracket. -/

namespace Marginalia.Regex

/-- The operators between two sets. -/
inductive SetOp where
  | inter
  | diff
  | symmDiff
deriving DecidableEq, Repr

/-- The set that an operator makes of two. -/
def SetOp.apply : SetOp → CharSet → CharSet → CharSet
  | .inter,    p, q => p.inter q
  | .diff,     p, q => p.diff q
  | .symmDiff, p, q => p.symmDiff q

namespace Bracket

/-- What waits while the text further inside is read. -/
inductive Frame where
  /-- An open bracket: what its surroundings listed before it, and whether it stands
      for the characters that it does not list. -/
  | bracket (outer : CharSet) (negated : Bool)
  /-- An operator and what stands on its left. -/
  | operator (op : SetOp) (left : CharSet)

/-- What has been read of a bracket expression. -/
structure State where
  /-- The characters listed since the last bracket or operator. -/
  listed : CharSet
  stack  : List Frame
  weight : Nat
  rest   : List Char

/-- One item of a list: a character, or a set. -/
inductive Item where
  | literal (c : Char)
  | set (s : CharSet)

/-- Reads one item. Conditions on places cannot be listed, and among single bytes
    neither can characters beyond ASCII. -/
def item? (m : Modes) : List Char → Option (Item × Nat × List Char)
  | [] => none
  | '\\' :: s =>
    match escape? m s with
    | some (.literal c byte, rest) =>
      if m.unicode || byte || c.toNat < 0x80 then some (.literal c, 1, rest) else none
    | some (.set s weight, rest) => some (.set s, weight, rest)
    | _ => none
  | c :: s => if m.unicode || c.toNat < 0x80 then some (.literal c, 1, s) else none

/-- The next character after `-` that means something, as far as it decides whether
    the hyphen makes a range. -/
def afterHyphen? (m : Modes) (s : List Char) : Option Char :=
  if m.verbose then
    match s.dropWhile Text.isBlank with
    | '#' :: t => (t.dropWhile Text.isBlank).head?
    | t => t.head?
  else s.head?

/-- Reads an item or a range. -/
def range? (m : Modes) (s : List Char) : Option (CharSet × Nat × List Char) := do
  let (first, weight, rest) ← item? m s
  let single : CharSet := match first with
    | .literal c => m.fold (CharSet.single c)
    | .set s     => s
  match m.skipBlank rest with
  | [] => none
  | '-' :: after =>
    if afterHyphen? m after = some ']' ∨ afterHyphen? m after = some '-' then
      some (single, weight, '-' :: after)
    else
      match first, item? m (m.skipBlank after) with
      | .literal a, some (.literal b, _, rest) =>
        if a ≤ b then some (m.fold (CharSet.range a b), weight + 1, rest) else none
      | _, _ => none
  | rest => some (single, weight, rest)

/-- Reads the name of an ASCII class after `[`, such as `:alpha:]`. -/
def asciiClass? (m : Modes) : List Char → Option (CharSet × List Char)
  | ':' :: s =>
    let (negated, s) := match s with
      | '^' :: t => (true, t)
      | t => (false, t)
    match s.dropWhile (· != ':') with
    | ':' :: ']' :: rest =>
      (CharSet.ofAsciiName? (String.ofList (s.takeWhile (· != ':')))).map fun chars =>
        (if negated then (m.fold chars).compl else m.fold chars, rest)
    | _ => none
  | _ => none

/-- Drops the hyphens at the beginning of a list, which stand for themselves. -/
def leadingHyphens (m : Modes) : Nat → List Char → Nat × List Char
  | 0, s => (0, s)
  | fuel + 1, '-' :: s =>
    let (n, rest) := leadingHyphens m fuel (m.skipBlank s)
    (n + 1, rest)
  | _ + 1, s => (0, s)

/-- Opens a bracket whose `[` was read. A closing bracket right at its beginning
    stands for itself. -/
def open? (m : Modes) (st : State) : Option State :=
  let s := m.skipBlank st.rest
  let (negated, s) := match s with
    | '^' :: t => (true, m.skipBlank t)
    | t => (false, t)
  let (hyphens, s) := leadingHyphens m s.length s
  let (listed, s) := match hyphens, s with
    | 0, ']' :: t => (m.fold (CharSet.single ']'), m.skipBlank t)
    | 0, t => (CharSet.none, t)
    | _, t => (m.fold (CharSet.single '-'), t)
  if s.isEmpty then none
  else some
    { st with listed, stack := .bracket st.listed negated :: st.stack, rest := s }

/-- Applies the operator that waits for its right side. -/
def applyOperator (m : Modes) (right : CharSet) : List Frame → CharSet × List Frame
  | .operator op left :: stack => (op.apply (m.fold left) (m.fold right), stack)
  | stack => (right, stack)

/-- Puts an operator after what was listed. -/
def pushOperator (m : Modes) (st : State) (op : SetOp) (rest : List Char) : State :=
  let (left, stack) := applyOperator m st.listed st.stack
  { st with listed := CharSet.none, stack := .operator op left :: stack, rest }

/-- Reads the next piece. The outermost bracket's end is the result. -/
def step? (m : Modes) (st : State) : Option (State ⊕ CharSet × Nat × List Char) :=
  match m.skipBlank st.rest with
  | [] => none
  | '[' :: s =>
    match asciiClass? m s with
    | some (chars, rest) =>
      some (.inl { st with listed := st.listed.union chars, weight := st.weight + 1, rest })
    | none => (open? m { st with rest := s }).map .inl
  | ']' :: s =>
    match applyOperator m st.listed st.stack with
    | (chars, .bracket outer negated :: stack) =>
      let chars := if negated then (m.fold chars).compl else m.fold chars
      if stack.isEmpty then some (.inr (chars, st.weight, s))
      else some (.inl { st with listed := outer.union chars, stack, rest := s })
    | _ => none
  | '&' :: '&' :: s => some (.inl (pushOperator m st .inter s))
  | '-' :: '-' :: s => some (.inl (pushOperator m st .diff s))
  | '~' :: '~' :: s => some (.inl (pushOperator m st .symmDiff s))
  | s =>
    (range? m s).map fun (chars, weight, rest) =>
      .inl { st with listed := st.listed.union chars, weight := st.weight + weight, rest }

/-- Reads pieces until the outermost bracket ends. Each piece takes a character, so
    the length of the text is fuel enough. -/
def run? (m : Modes) : Nat → State → Option (CharSet × Nat × List Char)
  | 0, _ => none
  | fuel + 1, st =>
    match step? m st with
    | some (.inl st)     => run? m fuel st
    | some (.inr result) => some result
    | none               => none

end Bracket

/-- Reads a bracket expression whose `[` was read: its set, its weight and what
    follows it. -/
def bracket? (m : Modes) (s : List Char) : Option (CharSet × Nat × List Char) := do
  let st ← Bracket.open? m ⟨CharSet.none, [], 1, s⟩
  let (chars, weight, rest) ← Bracket.run? m (s.length + 1) st
  if m.permits chars then some (chars, weight, rest) else none

end Marginalia.Regex
