import Marginalia.Json.Reader
import Marginalia.Yaml.Cursor

/-! # Reading texts in YAML

    Each spelling of a text may go on for several lines.

    * **`Gap`**: what stands between two words. A single line break is a space; of
      several, the first does not count.
    * **`plain?`**: texts without quotes, which end where a character means something
      else or where a line is not indented enough.
    * **`quoted?`**: texts between quotes of either kind.
    * **`block?`**: texts that keep their lines, or whose lines are joined. -/

namespace Marginalia.Yaml

/-! ## Section 1: Between two words -/

/-- Blanks and line breaks between two words. Blanks next to a break do not count. -/
structure Gap where
  blanks : List Char
  first  : Option Char
  later  : List Char
  /-- The gap goes over the end of a line. -/
  broken : Bool

namespace Gap

/-- Nothing at all. -/
def empty : Gap := ⟨[], none, [], false⟩

/-- The gap after a line break that does not count itself. -/
def afterBreak : Gap := ⟨[], none, [], true⟩

/-- Adds a blank to the end of a gap. -/
def addBlank (b : Char) (g : Gap) : Gap :=
  if g.broken then g else { g with blanks := g.blanks ++ [b] }

/-- Adds a line break to the end of a gap. -/
def addBreak (b : Char) (g : Gap) : Gap :=
  if g.broken then { g with later := g.later ++ [b] } else ⟨[], some b, [], true⟩

/-- The text that a gap stands for. -/
def text (g : Gap) : List Char :=
  if g.broken then
    match g.first with
    | none => g.later
    | some b => if b = '\n' then (if g.later.isEmpty then [' '] else g.later) else b :: g.later
  else g.blanks

end Gap

/-- Reads a gap. Beyond a break, tabs may not stand left of the column `margin`. -/
def gap? (margin : Nat) : Nat → Gap → Cursor → Option (Gap × Cursor)
  | 0, _, _ => none
  | fuel + 1, g, c =>
    match c.rest with
    | [] => some (g, c)
    | b :: _ =>
      if isBlank b then
        if g.broken && decide (c.column < margin) && b == '\t' then none
        else gap? margin fuel (g.addBlank b) (c.skip 1)
      else
        match c.lineBreak? with
        | some (b, c) => gap? margin fuel (g.addBreak b) c
        | none => some (g, c)

/-! ## Section 2: Without quotes -/

/-- A character that separates the parts of lists and tables in brackets. -/
def isFlowIndicator (c : Char) : Bool :=
  ",[]\x7b\x7d".toList.contains c

/-- Reads a word, up to a blank or a character that means something else. In brackets,
    a colon right before another such character is refused. -/
def word? (inFlow : Bool) : List Char → Option (List Char)
  | [] => some []
  | x :: s =>
    if isBlankOrEnd (x :: s) || (x == ':' && isBlankOrEnd s) || (inFlow && isFlowIndicator x) then
      some []
    else if inFlow && x == ':' && s.head?.any (fun y => y == '?' || isFlowIndicator y) then none
    else (word? inFlow s).map (x :: ·)

/-- Reads a text without quotes, whose later lines begin no further left than `margin`.
    Also tells whether the gap after it goes over the end of a line. -/
def plain? (inFlow : Bool) (margin : Nat) : Nat → Cursor → Option (Text × Bool × Cursor)
  | 0, _ => none
  | fuel + 1, c =>
    if c.atDocumentMark || c.startsWith "#" then some ([], false, c)
    else
      (word? inFlow c.rest).bind fun w =>
        let c := c.skip w.length
        if c.rest.isEmpty || !isBlankOrEnd c.rest then some (w, false, c)
        else
          (gap? margin (c.rest.length + 1) Gap.empty c).bind fun (g, c) =>
            if !inFlow && decide (c.column < margin) then some (w, g.broken, c)
            else
              (plain? inFlow margin fuel c).map fun (more, broken, c) =>
                if more.isEmpty then (w, g.broken, c) else (w ++ g.text ++ more, broken, c)

/-! ## Section 3: Between quotes -/

/-- The character of an escape with one letter. -/
def shortEscape? (x : Char) : Option Char :=
  match x with
  | '0'  => some (Char.ofNat 0)
  | 'a'  => some (Char.ofNat 7)
  | 'b'  => some (Char.ofNat 8)
  | 't'  => some '\t'
  | '\t' => some '\t'
  | 'n'  => some '\n'
  | 'v'  => some (Char.ofNat 11)
  | 'f'  => some (Char.ofNat 12)
  | 'r'  => some '\r'
  | 'e'  => some (Char.ofNat 27)
  | ' '  => some ' '
  | '"'  => some '"'
  | '/'  => some '/'
  | '\\' => some '\\'
  | 'N'  => some (Char.ofNat 0x85)
  | '_'  => some (Char.ofNat 0xA0)
  | 'L'  => some (Char.ofNat 0x2028)
  | 'P'  => some (Char.ofNat 0x2029)
  | _    => none

/-- How many digits follow the letter of an escape that gives a number. -/
def escapeLength? (x : Char) : Option Nat :=
  match x with
  | 'x' => some 2
  | 'u' => some 4
  | 'U' => some 8
  | _   => none

/-- The character with a number, if there is one. -/
def charOf? (n : Nat) : Option Char :=
  if n.isValidChar then some (Char.ofNat n) else none

/-- Reads an escape after its backslash: its character and its length. -/
def escape? : List Char → Option (Char × Nat)
  | [] => none
  | x :: s =>
    match escapeLength? x with
    | some width => do
      let ds ← (s.take width).mapM Json.hexDigit?
      if ds.length = width then
        return (← charOf? (ds.foldl (fun n d => 16 * n + d) 0), width + 1)
      else none
    | none => (shortEscape? x).map (·, 1)

/-- Reads what stands between quotes, up to the closing quote or the next gap. The last
    result tells whether an escaped line break follows. -/
def quotedWord? (single : Bool) : Nat → Cursor → Option (Text × Bool × Cursor)
  | 0, _ => none
  | fuel + 1, c =>
    let more := fun (x : Char) (n : Nat) =>
      (quotedWord? single fuel (c.skip n)).map fun (w, folded, c) => (x :: w, folded, c)
    match c.rest with
    | [] => some ([], false, c)
    | x :: s =>
      if isBlankOrEnd (x :: s) then some ([], false, c)
      else if single then
        if x = '\'' then if s.head? = some '\'' then more '\'' 2 else some ([], false, c)
        else more x 1
      else if x = '"' then some ([], false, c)
      else if x = '\\' then
        match (c.skip 1).lineBreak? with
        | some (_, c) => some ([], true, c)
        | none => (escape? s).bind fun (y, n) => more y (n + 1)
      else more x 1

/-- Reads a text between quotes after the opening quote. -/
def quoted? (single : Bool) : Nat → Cursor → Option (Text × Cursor)
  | 0, _ => none
  | fuel + 1, c =>
    if c.atDocumentMark || c.rest.isEmpty then none
    else
      (quotedWord? single (c.rest.length + 1) c).bind fun (w, folded, c) =>
        if c.startsWith (if single then "'" else "\"") then some (w, c.skip 1)
        else
          let g := if folded then Gap.afterBreak else Gap.empty
          (gap? 0 (c.rest.length + 1) g c).bind fun (g, c) =>
            (quoted? single fuel c).map fun (more, c) => (w ++ g.text ++ more, c)

/-! ## Section 4: Blocks -/

/-- Which of the line breaks at the end of a block belong to it. -/
inductive Chomping where
  | strip
  | clip
  | keep
deriving DecidableEq

/-- The first line of a block. -/
structure BlockHeader where
  chomping : Chomping
  /-- How far the lines are indented, if the first line says so. -/
  indent   : Option Nat

/-- What a plus or minus in the first line of a block says. -/
def chomping? : List Char → Option Chomping
  | '+' :: _ => some .keep
  | '-' :: _ => some .strip
  | _        => none

/-- What a digit in the first line of a block says. -/
def indentDigit? : List Char → Option Nat
  | d :: _ => if d.isDigit then some (d.toNat - 48) else none
  | []     => none

/-- Reads the signs in the first line of a block, in either order. -/
def blockHeader? (c : Cursor) : Option (BlockHeader × Cursor) :=
  let (header, n) : BlockHeader × Nat :=
    match chomping? c.rest, indentDigit? c.rest with
    | some k, _ =>
      match indentDigit? (c.rest.drop 1) with
      | some i => (⟨k, some i⟩, 2)
      | none => (⟨k, none⟩, 1)
    | none, some i =>
      match chomping? (c.rest.drop 1) with
      | some k => (⟨k, some i⟩, 2)
      | none => (⟨.clip, some i⟩, 1)
    | none, none => (⟨.clip, none⟩, 0)
  if header.indent = some 0 then none else (c.skip n).endOfLine?.map fun c => (header, c)

/-- Reads empty lines in front of the next line of a block, and its indentation.
    `indent` is how far the block is indented, if that is known, and `deepest` the
    furthest column so far. -/
def emptyLines? (indent : Option Nat) : Nat → Nat → Cursor → Option (List Char × Nat × Cursor)
  | 0, _, _ => none
  | fuel + 1, deepest, c =>
    let width := (c.rest.takeWhile (· == ' ')).length
    let c := c.skip (match indent with
      | some i => min width (i - c.column)
      | none => width)
    let deepest := max deepest c.column
    if c.startsWith "\t" && (match indent with | some i => decide (c.column < i) | none => true) then
      none
    else
      match c.lineBreak? with
      | some (b, c) =>
        (emptyLines? indent fuel deepest c).map fun (bs, deepest, c) => (b :: bs, deepest, c)
      | none => some ([], deepest, c)

/-- Reads the lines of a block. `pending` is the break of the line before and `empties`
    those of the empty lines after it; `afterBlank` tells whether the line before began
    with a blank. Joined lines keep their breaks around lines that begin with a blank.
    Also gives the breaks after the last line. -/
def blockLines? (joined : Bool) (indent : Nat) :
    Nat → (pending empties : List Char) → (afterBlank : Bool) → Cursor →
      Option (Text × List Char × List Char × Cursor)
  | 0, _, _, _, _ => none
  | fuel + 1, pending, empties, afterBlank, c =>
    match c.rest with
    | [] => some ([], pending, empties, c)
    | x :: _ =>
      if c.column != indent then some ([], pending, empties, c)
      else
        let startsBlank := isBlank x
        let between :=
          if joined && pending == ['\n'] && !afterBlank && !startsBlank then
            if empties.isEmpty then [' '] else empties
          else pending ++ empties
        let line := c.rest.takeWhile fun y => !isBreak y
        let c := c.skip line.length
        let (pending, c) := match c.lineBreak? with
          | some (b, c) => ([b], c)
          | none => ([], c)
        (emptyLines? (some indent) (c.rest.length + 1) 0 c).bind fun (empties, _, c) =>
          (blockLines? joined indent fuel pending empties startsBlank c).map
            fun (more, rest) => (between ++ line ++ more, rest)

/-- Reads a block after its first character, inside of something that is indented up to
    the column before `margin`. -/
def block? (joined : Bool) (margin : Nat) (c : Cursor) : Option (Text × Cursor) :=
  (blockHeader? c).bind fun (header, c) =>
    let known := header.indent.map fun i => (margin - 1) + i
    (emptyLines? known (c.rest.length + 1) 0 c).bind fun (empties, deepest, c) =>
      let indent := known.getD (max (max deepest margin) 1)
      (blockLines? joined indent (c.rest.length + 1) [] empties false c).map
        fun (s, pending, empties, c) =>
          (s ++ (if header.chomping = .strip then [] else pending) ++
            (if header.chomping = .keep then empties else []), c)

end Marginalia.Yaml
