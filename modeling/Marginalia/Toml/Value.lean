import Marginalia.Json.Reader

/-! # Reading TOML values

    * **Strings**: four kinds, of which two may have several lines and two have
      escapes.
    * **Numbers and dates**: a word is checked against the forms that the format
      knows. Only whole numbers have a value here.
    * **Keys**: bare or quoted, joined by dots. -/

namespace Marginalia.Toml

/-! ## Section 1: Blanks -/

/-- White space inside a line. -/
def isSpace (c : Char) : Bool :=
  c == ' ' || c == '\t'

/-- The text from the next part of the line on. -/
def skipSpace (s : List Char) : List Char :=
  s.dropWhile isSpace

/-- What follows a line break. -/
def lineBreak? : List Char → Option (List Char)
  | '\n' :: s => some s
  | '\r' :: '\n' :: s => some s
  | _ => none

/-- A character that may stand in a comment. -/
def isCommentChar (c : Char) : Bool :=
  c == '\t' || 0x20 ≤ c.toNat

/-- What follows a comment, if there is one. -/
def skipComment (s : List Char) : List Char :=
  match s with
  | '#' :: rest => rest.dropWhile isCommentChar
  | _ => s

/-- Drops blanks, comments and line breaks. -/
def skipLines : Nat → List Char → List Char
  | 0, s => s
  | fuel + 1, s =>
    let s := skipComment (skipSpace s)
    match lineBreak? s with
    | some rest => skipLines fuel rest
    | none => s

/-! ## Section 2: Strings -/

/-- A character that may stand in a string as it is. -/
def isStringChar (c : Char) : Bool :=
  c == '\t' || (0x20 ≤ c.toNat && c.toNat != 0x7F)

/-- Reads a character number with so many digits. -/
def unicodeEscape? (digits : Nat) (s : List Char) : Option (Char × List Char) := do
  let ds := s.take digits
  if ds.length < digits then none
  let n ← ds.foldlM (fun n c => (Json.hexDigit? c).map (16 * n + ·)) 0
  if n.isValidChar then some (Char.ofNat n, s.drop digits) else none

/-- Reads what follows a backslash. -/
def escape? : List Char → Option (Char × List Char)
  | 'b' :: s  => some (Char.ofNat 8, s)
  | 't' :: s  => some ('\t', s)
  | 'n' :: s  => some ('\n', s)
  | 'f' :: s  => some (Char.ofNat 12, s)
  | 'r' :: s  => some ('\r', s)
  | '"' :: s  => some ('"', s)
  | '\\' :: s => some ('\\', s)
  | 'u' :: s  => unicodeEscape? 4 s
  | 'U' :: s  => unicodeEscape? 8 s
  | _ => none

/-- Reads a string after its opening double quote. -/
def basic? : Nat → List Char → Option (Text × List Char)
  | 0, _ => none
  | fuel + 1, s =>
    match s with
    | [] => none
    | '"' :: rest => some ([], rest)
    | '\\' :: rest =>
      (escape? rest).bind fun (c, rest) => (basic? fuel rest).map fun (t, r) => (c :: t, r)
    | c :: rest =>
      if isStringChar c then (basic? fuel rest).map fun (t, r) => (c :: t, r) else none

/-- Reads a string after its opening apostrophe. -/
def raw? (s : List Char) : Option (Text × List Char) :=
  match s.takeWhile (fun c => c != '\'' && isStringChar c),
      s.dropWhile (fun c => c != '\'' && isStringChar c) with
  | t, '\'' :: rest => some (t, rest)
  | _, _ => none

/-- Reads the quotes at a place in a string of several lines: three of them end it,
    and up to two more belong to its text. -/
def closing? (q : Char) (s : List Char) : Option (Text × List Char) :=
  let run := (s.takeWhile (· == q)).length
  if run < 3 then none
  else
    let kept := min (run - 3) 2
    some (List.replicate kept q, s.drop (kept + 3))

/-- Drops the rest of a line that a backslash ends, and all blanks after it. -/
def skipFolded (s : List Char) : Option (List Char) :=
  (lineBreak? (skipSpace s)).map fun rest => blanks rest.length rest
where
  /-- Drops blanks and line breaks. -/
  blanks : Nat → List Char → List Char
    | 0, s => s
    | fuel + 1, s =>
      match lineBreak? (skipSpace s) with
      | some rest => blanks fuel rest
      | none => skipSpace s

/-- Reads a string of several lines after its opening quotes; only between double
    quotes does it have escapes. -/
def lines? (q : Char) : Nat → List Char → Option (Text × List Char)
  | 0, _ => none
  | fuel + 1, s =>
    match closing? q s with
    | some result => some result
    | none =>
      match lineBreak? s with
      | some rest => (lines? q fuel rest).map fun (t, r) => ('\n' :: t, r)
      | none =>
        match s with
        | [] => none
        | c :: rest =>
          if c = '\\' ∧ q = '"' then
            match skipFolded rest with
            | some rest => lines? q fuel rest
            | none =>
              (escape? rest).bind fun (c, rest) =>
                (lines? q fuel rest).map fun (t, r) => (c :: t, r)
          else if isStringChar c then (lines? q fuel rest).map fun (t, r) => (c :: t, r)
          else none

/-- Drops the line break right after opening quotes. -/
def afterQuotes (s : List Char) : List Char :=
  (lineBreak? s).getD s

/-- Reads a string of any kind. -/
def string? (s : List Char) : Option (Text × List Char) :=
  match s with
  | '"' :: '"' :: '"' :: rest    => lines? '"' (rest.length + 1) (afterQuotes rest)
  | '\'' :: '\'' :: '\'' :: rest => lines? '\'' (rest.length + 1) (afterQuotes rest)
  | '"' :: rest  => basic? (rest.length + 1) rest
  | '\'' :: rest => raw? rest
  | _ => none

/-! ## Section 3: Keys -/

/-- Reads one part of a key. -/
def simpleKey? (s : List Char) : Option (Text × List Char) :=
  match s with
  | '"' :: rest  => basic? (rest.length + 1) rest
  | '\'' :: rest => raw? rest
  | s =>
    let isBare (c : Char) := c.isAlphanum || c == '_' || c == '-'
    match s.takeWhile isBare with
    | [] => none
    | k  => some (k, s.dropWhile isBare)

/-- Reads a key: parts joined by dots, with blanks around them. -/
def key? : Nat → List Char → Option (List Text × List Char)
  | 0, _ => none
  | fuel + 1, s =>
    (simpleKey? (skipSpace s)).bind fun (k, rest) =>
      match skipSpace rest with
      | '.' :: rest => (key? fuel rest).map fun (ks, rest) => (k :: ks, rest)
      | rest => some ([k], rest)

/-! ## Section 4: Numbers and dates -/

/-- The value of digits in a base, with underscores between digits only. -/
def digitsValue? (digit? : Char → Option Nat) (base : Nat) : Nat → List Char → Option Nat
  | _, [] => none
  | n, [c] => (digit? c).map (base * n + ·)
  | n, c :: '_' :: s => (digit? c).bind fun d => digitsValue? digit? base (base * n + d) s
  | n, c :: s => (digit? c).bind fun d => digitsValue? digit? base (base * n + d) s

/-- The value of a digit below `base`. -/
def digitBelow? (base : Nat) (c : Char) : Option Nat :=
  (Json.hexDigit? c).bind fun d => if d < base then some d else none

/-- The value of decimal digits that do not begin with a needless zero. -/
def decimal? (s : List Char) : Option Nat :=
  match s with
  | '0' :: _ :: _ => none
  | s => digitsValue? (digitBelow? 10) 10 0 s

/-- A word without its sign, and whether that was a minus. -/
def unsigned : List Char → Bool × List Char
  | '-' :: s => (true, s)
  | '+' :: s => (false, s)
  | s => (false, s)

/-- The whole number that a word stands for. -/
def integer? (s : List Char) : Option Int :=
  let value : Option Int := match s with
    | '0' :: 'x' :: ds => (digitsValue? (digitBelow? 16) 16 0 ds).map Int.ofNat
    | '0' :: 'o' :: ds => (digitsValue? (digitBelow? 8) 8 0 ds).map Int.ofNat
    | '0' :: 'b' :: ds => (digitsValue? (digitBelow? 2) 2 0 ds).map Int.ofNat
    | s =>
      (decimal? (unsigned s).2).map fun n => if (unsigned s).1 then -(n : Int) else n
  value.filter isWord

/-- A word is a number with a fraction, an exponent or both, or no finite number. -/
def isFloat (s : List Char) : Bool :=
  let body := (unsigned s).2
  if body = "inf".toList ∨ body = "nan".toList then true
  else
    let mantissa := body.takeWhile fun c => c != 'e' && c != 'E'
    let exponent := body.dropWhile fun c => c != 'e' && c != 'E'
    let isDigits (ds : List Char) := (digitsValue? (digitBelow? 10) 10 0 ds).isSome
    let exponentOk := match exponent with
      | [] => true
      | _ :: ds => isDigits (unsigned ds).2
    let whole := mantissa.takeWhile (· != '.')
    let fractionOk := match mantissa.dropWhile (· != '.') with
      | [] => !exponent.isEmpty
      | _ :: ds => isDigits ds
    (decimal? whole).isSome && fractionOk && exponentOk

/-- The value of exactly so many digits at the beginning of a text. -/
def fixed? (digits : Nat) (s : List Char) : Option (Nat × List Char) :=
  let ds := s.take digits
  if ds.length = digits ∧ ds.all Char.isDigit = true then
    some (Json.decimal ds, s.drop digits)
  else none

/-- The number of days of a month. -/
def monthLength (year month : Nat) : Nat :=
  if month = 2 then
    if year % 4 = 0 ∧ (year % 100 ≠ 0 ∨ year % 400 = 0) then 29 else 28
  else if month = 4 ∨ month = 6 ∨ month = 9 ∨ month = 11 then 30
  else 31

/-- Reads a date. -/
def date? (s : List Char) : Option (List Char) := do
  let (year, s) ← fixed? 4 s
  let '-' :: s := s | none
  let (month, s) ← fixed? 2 s
  let '-' :: s := s | none
  let (day, s) ← fixed? 2 s
  if 1 ≤ month ∧ month ≤ 12 ∧ 1 ≤ day ∧ day ≤ monthLength year month then some s else none

/-- Reads a time of day. -/
def time? (s : List Char) : Option (List Char) := do
  let (hour, s) ← fixed? 2 s
  let ':' :: s := s | none
  let (minute, s) ← fixed? 2 s
  let ':' :: s := s | none
  let (second, s) ← fixed? 2 s
  if 24 ≤ hour ∨ 60 ≤ minute ∨ 61 ≤ second then none
  match s with
  | '.' :: rest =>
    if (rest.takeWhile Char.isDigit).isEmpty then none
    else some (rest.dropWhile Char.isDigit)
  | s => some s

/-- Reads the distance of a clock from the world's, if it is given. -/
def offset? : List Char → Option (List Char)
  | 'Z' :: s => some s
  | 'z' :: s => some s
  | c :: s =>
    if c = '+' ∨ c = '-' then do
      let (hour, s) ← fixed? 2 s
      let ':' :: s := s | none
      let (minute, s) ← fixed? 2 s
      if hour < 24 ∧ minute < 60 then some s else none
    else some (c :: s)
  | [] => some []

/-- Reads a date, a time, or both. -/
def moment? (s : List Char) : Option (List Char) :=
  match date? s with
  | some rest =>
    match rest with
    | c :: after =>
      if c = 'T' ∨ c = 't' then (time? after).bind offset?
      else if c = ' ' then ((time? after).bind offset?).or (some rest)
      else some rest
    | [] => some []
  | none => time? s

/-- A character of a number. -/
def isWordChar (c : Char) : Bool :=
  c.isAlphanum || c == '_' || c == '-' || c == '+' || c == '.'

/-- Reads a value that is neither a string nor made of other values. -/
def word? (s : List Char) : Option (Data × List Char) :=
  match moment? s with
  | some rest => some (.literal (s.take (s.length - rest.length)), rest)
  | none =>
    let word := s.takeWhile isWordChar
    let rest := s.dropWhile isWordChar
    if word = "true".toList then some (.bool true, rest)
    else if word = "false".toList then some (.bool false, rest)
    else
      match integer? word with
      | some n => some (.int n, rest)
      | none => if isFloat word then some (.literal word, rest) else none

end Marginalia.Toml
