import Marginalia.Yaml.Scalar

/-! # The tokens of a YAML file

    Indentation is made explicit: a list or table in block style has tokens for its
    beginning and its end.

    * **`Scan`**: the tokens so far, the open blocks, and the token that turns out to
      be a key if a colon follows.
    * **`Scan.step?`**: reads the next token.
    * **`Token.scan?`**: all tokens of a file. -/

namespace Marginalia.Yaml

/-- A part of a file. -/
inductive Token where
  /-- The version of YAML that a file claims to be in. -/
  | version (major minor : Nat)
  /-- A declared beginning of tags. -/
  | tagHandle (name : Text)
  | documentBegins
  | documentEnds
  | listBegins
  | tableBegins
  | blockEnds
  | openBracket
  | closeBracket
  | openBrace
  | closeBrace
  | comma
  | dash
  | key
  | value
  | anchor (name : Text)
  | alias (name : Text)
  | tag (handle : Text)
  | scalar (text : Text) (plain : Bool)
deriving DecidableEq, Repr

/-- A token that may turn out to be a key. -/
structure Candidate where
  /-- How many tokens come before it. -/
  position : Nat
  index    : Nat
  line     : Nat
  column   : Nat
  /-- It stands where only a key can stand. -/
  required : Bool

/-- How far a file has been read. -/
structure Scan where
  cursor     : Cursor
  tokens     : List Token
  /-- The columns of the open blocks, the innermost one first. -/
  blocks     : List Nat
  candidate  : Option Candidate
  /-- The candidates outside of the open brackets, the innermost ones first. -/
  outer      : List (Option Candidate)
  /-- A key without a question mark may begin here. -/
  keyAllowed : Bool

namespace Scan

/-! ## Section 1: Blocks and keys -/

/-- Some bracket is open. -/
def inFlow (st : Scan) : Bool :=
  !st.outer.isEmpty

/-- The first column that is further right than the innermost block. -/
def margin (st : Scan) : Nat :=
  match st.blocks with
  | []     => 0
  | n :: _ => n + 1

/-- Adds a token at the end. -/
def push (t : Token) (st : Scan) : Scan :=
  { st with tokens := st.tokens ++ [t] }

/-- Adds a token that is `n` characters long. -/
def pushSkip (t : Token) (n : Nat) (st : Scan) : Scan :=
  { st.push t with cursor := st.cursor.skip n }

/-- Adds tokens before the one at some position. -/
def insert (position : Nat) (ts : List Token) (st : Scan) : Scan :=
  { st with tokens := st.tokens.take position ++ ts ++ st.tokens.drop position }

/-- Closes the blocks that begin right of a column. -/
def closeBlocks (column : Nat) (st : Scan) : Scan :=
  if st.inFlow then st
  else
    let closed := st.blocks.takeWhile fun n => decide (column < n)
    { st with
      blocks := st.blocks.drop closed.length
      tokens := st.tokens ++ closed.map fun _ => .blockEnds }

/-- Closes all blocks. -/
def closeAll (st : Scan) : Scan :=
  if st.inFlow then st
  else { st with blocks := [], tokens := st.tokens ++ st.blocks.map fun _ => .blockEnds }

/-- Opens a block at a column, if none is open there yet. -/
def openBlock (column position : Nat) (t : Token) (st : Scan) : Scan :=
  if !st.inFlow && decide (st.margin ≤ column) then
    { st.insert position [t] with blocks := column :: st.blocks }
  else st

/-- Gives up the candidate, which fails if it has to be a key. -/
def dropCandidate? (st : Scan) : Option Scan :=
  if st.candidate.any (·.required) then none else some { st with candidate := none }

/-- The next token may turn out to be a key. -/
def addCandidate? (st : Scan) : Option Scan :=
  if st.keyAllowed then
    st.dropCandidate?.map fun st =>
      let c := st.cursor
      { st with candidate := some {
          position := st.tokens.length
          index    := c.index
          line     := c.line
          column   := c.column
          required := !st.inFlow && st.blocks.head? == some c.column } }
  else some st

/-- How long a key with its blanks may be. -/
def keyLength : Nat := 1024

/-- A candidate is too far back to be a key. A key and its colon share a line. -/
def isStale (c : Cursor) (k : Candidate) : Bool :=
  decide (k.line < c.line) || decide (k.index + keyLength < c.index)

/-- A candidate of which one can still wait for the colon. -/
def fresh? (c : Cursor) : Option Candidate → Option (Option Candidate)
  | none => some none
  | some k => if isStale c k then if k.required then none else some none else some (some k)

/-- Gives up the candidates that are too far back. -/
def dropStale? (st : Scan) : Option Scan := do
  let candidate ← fresh? st.cursor st.candidate
  let outer ← st.outer.mapM (fresh? st.cursor)
  return { st with candidate, outer }

/-! ## Section 2: Between tokens -/

/-- Goes over blanks, comments and line breaks. Where a key may begin, tabs cannot
    stand for indentation. -/
def skipSpace : Nat → Scan → Scan
  | 0, st => st
  | fuel + 1, st =>
    let tabs := st.inFlow || !st.keyAllowed
    let c := st.cursor
    let c := if c.index == 0 && c.rest.head? == some byteOrderMark then c.skip 1 else c
    let c := c.skipWhile fun x => x == ' ' || (tabs && x == '\t')
    let c := if c.startsWith "#" then c.skipWhile fun x => !isBreak x else c
    match c.lineBreak? with
    | some (_, c) =>
      skipSpace fuel { st with cursor := c, keyAllowed := st.keyAllowed || !st.inFlow }
    | none => { st with cursor := c }

/-! ## Section 3: Directives, anchors and tags -/

/-- A character of tags. -/
def isTagChar (whole : Bool) (x : Char) : Bool :=
  isNameChar x || ";/?:@&=+$.%!~*'()".toList.contains x || (whole && ",[]".toList.contains x)

/-- Reads the rest of a tag. A percent sign needs two digits. -/
def tagText? (whole : Bool) : Nat → List Char → Option Nat
  | 0, _ => none
  | fuel + 1, s =>
    match s with
    | '%' :: a :: b :: s =>
      match Json.hexDigit? a, Json.hexDigit? b with
      | some _, some _ => (tagText? whole fuel s).map (· + 3)
      | _, _ => none
    | x :: s =>
      if x = '%' then none
      else if isTagChar whole x then (tagText? whole fuel s).map (· + 1)
      else some 0
    | [] => some 0

/-- The handle that a tag begins with, if it begins with one. -/
def handle (s : List Char) : List Char :=
  match s with
  | '!' :: s =>
    let name := s.takeWhile isNameChar
    '!' :: name ++ (if (s.drop name.length).head? = some '!' then ['!'] else [])
  | _ => []

/-- Reads a number of at most nine digits. -/
def versionNumber? (c : Cursor) : Option (Nat × Cursor) :=
  let ds := c.rest.takeWhile Char.isDigit
  if ds.isEmpty || decide (9 < ds.length) then none
  else some (Json.decimal ds, c.skip ds.length)

/-- Reads a directive after its percent sign. -/
def directive? (c : Cursor) : Option (Token × Cursor) :=
  let name := c.rest.takeWhile isNameChar
  let c := c.skip name.length
  if !isBlankOrEnd c.rest then none
  else if name = "YAML".toList then
    (versionNumber? (c.skipWhile isBlank)).bind fun (major, c) =>
      if c.startsWith "." then
        (versionNumber? (c.skip 1)).bind fun (minor, c) =>
          c.endOfLine?.map fun c => (.version major minor, c)
      else none
  else if name = "TAG".toList then
    let c := c.skipWhile isBlank
    let h := handle c.rest
    let c := c.skip h.length
    if h.getLast? != some '!' || !c.rest.head?.any isBlank then none
    else
      let c := c.skipWhile isBlank
      (tagText? true (c.rest.length + 1) c.rest).bind fun n =>
        if n = 0 || !isBlankOrEnd (c.rest.drop n) then none
        else (c.skip n).endOfLine?.map fun c => (.tagHandle h, c)
  else none

/-- Reads the name of an anchor after its sign. -/
def anchorName? (c : Cursor) : Option (Text × Cursor) :=
  let name := c.rest.takeWhile isNameChar
  let rest := c.rest.drop name.length
  if name.isEmpty then none
  else if isBlankOrEnd rest || rest.head?.any (fun x => "?:,]\x7d%@`".toList.contains x) then
    some (name, c.skip name.length)
  else none

/-- Reads a tag: the handle that has to be declared for it, and what follows. -/
def tag? (inFlow : Bool) (c : Cursor) : Option (Text × Cursor) :=
  let result : Option (Text × Cursor) :=
    if c.startsWith "!<" then
      let c := c.skip 2
      (tagText? true (c.rest.length + 1) c.rest).bind fun n =>
        let c := c.skip n
        if n = 0 || !c.startsWith ">" then none else some ([], c.skip 1)
    else
      let h := handle c.rest
      let c := c.skip h.length
      (tagText? false (c.rest.length + 1) c.rest).bind fun n =>
        if h.length ≥ 2 && h.getLast? = some '!' then
          if n = 0 then none else some (h, c.skip n)
        else some (['!'], c.skip n)
  result.bind fun (h, c) =>
    if (inFlow && c.startsWith ",") || isBlankOrEnd c.rest then some (h, c) else none

/-! ## Section 4: One token -/

/-- Opens a bracket. -/
def openFlow? (t : Token) (st : Scan) : Option Scan :=
  st.addCandidate?.map fun st =>
    { st.pushSkip t 1 with
      candidate := none, outer := st.candidate :: st.outer, keyAllowed := true }

/-- Closes a bracket. -/
def closeFlow? (t : Token) (st : Scan) : Option Scan :=
  st.dropCandidate?.map fun st =>
    let st := { st.pushSkip t 1 with keyAllowed := false }
    match st.outer with
    | []      => st
    | k :: ks => { st with candidate := k, outer := ks }

/-- Begins an item of a list in block style. -/
def dash? (st : Scan) : Option Scan :=
  if !st.inFlow && !st.keyAllowed then none
  else
    (st.openBlock st.cursor.column st.tokens.length .listBegins).dropCandidate?.map fun st =>
      { st.pushSkip .dash 1 with keyAllowed := true }

/-- Begins a key after a question mark. -/
def key? (st : Scan) : Option Scan :=
  if !st.inFlow && !st.keyAllowed then none
  else
    (st.openBlock st.cursor.column st.tokens.length .tableBegins).dropCandidate?.map fun st =>
      { st.pushSkip .key 1 with keyAllowed := !st.inFlow }

/-- Begins a value after a colon. The candidate turns out to be its key. -/
def value? (st : Scan) : Option Scan :=
  match st.candidate with
  | some k =>
    let st := (st.insert k.position [.key]).openBlock k.column k.position .tableBegins
    some { st.pushSkip .value 1 with candidate := none, keyAllowed := false }
  | none =>
    if !st.inFlow && !st.keyAllowed then none
    else
      let st := st.openBlock st.cursor.column st.tokens.length .tableBegins
      some { st.pushSkip .value 1 with keyAllowed := !st.inFlow }

/-- Adds a token that may be a key, and was read up to `c`. -/
def pushNode (t : Token) (c : Cursor) (st : Scan) : Scan :=
  { st.push t with cursor := c, keyAllowed := false }

/-- A character that begins no text without quotes. -/
def isIndicator (x : Char) : Bool :=
  "-?:,[]\x7b\x7d#&*!|>'\"%@`".toList.contains x

/-- A text without quotes begins here. -/
def beginsPlain (inFlow : Bool) : List Char → Bool
  | []     => false
  | x :: s =>
    !(isBlankOrEnd (x :: s) || isIndicator x) || (x == '-' && !s.head?.any isBlank) ||
      (!inFlow && (x == '?' || x == ':') && !isBlankOrEnd s)

/-- Reads a text without quotes. If it ends with its line, a key may begin after it. -/
def plainText? (st : Scan) : Option Scan :=
  st.addCandidate?.bind fun st =>
    (plain? st.inFlow st.margin (st.cursor.rest.length + 1) st.cursor).map fun (s, broken, c) =>
      { st.push (.scalar s true) with cursor := c, keyAllowed := broken }

/-- Reads a text between quotes. -/
def quotedText? (single : Bool) (st : Scan) : Option Scan :=
  st.addCandidate?.bind fun st =>
    (quoted? single (st.cursor.rest.length + 1) (st.cursor.skip 1)).map fun (s, c) =>
      st.pushNode (.scalar s false) c

/-- Reads a block. -/
def blockText? (joined : Bool) (st : Scan) : Option Scan :=
  st.dropCandidate?.bind fun st =>
    (block? joined st.margin (st.cursor.skip 1)).map fun (s, c) =>
      { st.push (.scalar s false) with cursor := c, keyAllowed := true }

/-- Reads the line between two documents. -/
def documentMark? (st : Scan) : Option Scan :=
  st.closeAll.dropCandidate?.map fun st =>
    let t : Token := if st.cursor.startsWith "-" then .documentBegins else .documentEnds
    { st.pushSkip t 3 with keyAllowed := false }

/-- Reads a token that depends on the first character of what is to be read. -/
def token? (st : Scan) : Option Scan :=
  let c := st.cursor
  let flow := st.inFlow
  let apart := isBlankOrEnd (c.rest.drop 1)
  if c.column = 0 && c.startsWith "%" then
    st.closeAll.dropCandidate?.bind fun st =>
      (directive? (st.cursor.skip 1)).map fun (t, c) => st.pushNode t c
  else if c.atDocumentMark then st.documentMark?
  else if c.startsWith "[" then st.openFlow? .openBracket
  else if c.startsWith "\x7b" then st.openFlow? .openBrace
  else if c.startsWith "]" then st.closeFlow? .closeBracket
  else if c.startsWith "\x7d" then st.closeFlow? .closeBrace
  else if c.startsWith "," then
    st.dropCandidate?.map fun st => { st.pushSkip .comma 1 with keyAllowed := true }
  else if c.startsWith "-" && apart then st.dash?
  else if c.startsWith "?" && (flow || apart) then st.key?
  else if c.startsWith ":" && (flow || apart) then st.value?
  else if c.startsWith "*" then
    st.addCandidate?.bind fun st =>
      (anchorName? (c.skip 1)).map fun (name, c) => st.pushNode (.alias name) c
  else if c.startsWith "&" then
    st.addCandidate?.bind fun st =>
      (anchorName? (c.skip 1)).map fun (name, c) => st.pushNode (.anchor name) c
  else if c.startsWith "!" then
    st.addCandidate?.bind fun st => (tag? flow c).map fun (h, c) => st.pushNode (.tag h) c
  else if c.startsWith "|" && !flow then st.blockText? false
  else if c.startsWith ">" && !flow then st.blockText? true
  else if c.startsWith "'" then st.quotedText? true
  else if c.startsWith "\"" then st.quotedText? false
  else if beginsPlain flow c.rest then st.plainText?
  else none

/-! ## Section 5: A whole file -/

/-- Reads one token. -/
def step? (st : Scan) : Option Scan :=
  (st.skipSpace (st.cursor.rest.length + 1)).dropStale?.bind fun st =>
    if st.cursor.rest.isEmpty then (st.closeAll).dropCandidate?
    else (st.closeBlocks st.cursor.column).token?

/-- Reads tokens to the end of the file. -/
def run? : Nat → Scan → Option Scan
  | 0, _ => none
  | fuel + 1, st =>
    st.step?.bind fun st => if st.cursor.rest.isEmpty then st.step? else run? fuel st

end Scan

/-- The tokens of a whole file, which may only hold characters that YAML allows. A
    first character that marks the encoding does not count. -/
def Token.scan? (s : List Char) : Option (List Token) :=
  let s := match s with
    | c :: r => if c = byteOrderMark then r else s
    | [] => s
  if s.all isAllowed then
    (Scan.run? (s.length + 2) ⟨Cursor.start s, [], [], none, [], true⟩).map (·.tokens)
  else none

end Marginalia.Yaml
