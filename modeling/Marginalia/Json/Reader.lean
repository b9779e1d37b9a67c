import Marginalia.Data

/-! # Reading JSON

    * **`string?`**: strings with their escapes. Two escapes can make one character;
      an escape that is only half of one makes the string no text.
    * **`number?`**: numbers. Only whole numbers have a value here.
    * **`read?`**: a text that holds one value and nothing else. -/

namespace Marginalia.Json

/-! ## Section 1: Strings and numbers -/

/-- White space between the parts of a value. -/
def isSpace (c : Char) : Bool :=
  c == ' ' || c == '\n' || c == '\t' || c == '\r'

/-- The text from the next part on. -/
def skip (s : List Char) : List Char :=
  s.dropWhile isSpace

/-- The value of a hexadecimal digit. -/
def hexDigit? (c : Char) : Option Nat :=
  if '0' ≤ c ∧ c ≤ '9' then some (c.toNat - 48)
  else if 'a' ≤ c ∧ c ≤ 'f' then some (c.toNat - 87)
  else if 'A' ≤ c ∧ c ≤ 'F' then some (c.toNat - 55)
  else none

/-- The value of four hexadecimal digits. -/
def hex4? (a b c d : Char) : Option Nat := do
  return 4096 * (← hexDigit? a) + 256 * (← hexDigit? b) + 16 * (← hexDigit? c) + (← hexDigit? d)

/-- The character of an escape with one letter. -/
def shortEscape? : Char → Option Char
  | '"'  => some '"'
  | '\\' => some '\\'
  | '/'  => some '/'
  | 'b'  => some (Char.ofNat 8)
  | 'f'  => some (Char.ofNat 12)
  | 'n'  => some '\n'
  | 'r'  => some '\r'
  | 't'  => some '\t'
  | _    => none

/-- The character of two numbers that stand for one, as in UTF-16. -/
def joinSurrogates (high low : Nat) : Char :=
  Char.ofNat (0x10000 + 1024 * (high - 0xD800) + (low - 0xDC00))

/-- Adds a character to the rest of a string. -/
def consChar (c : Char) (r : Option Text × List Char) : Option Text × List Char :=
  (r.1.map (c :: ·), r.2)

/-- Reads a string after its opening quote: its text, if it is one, and what follows
    its closing quote. -/
def string? : Nat → List Char → Option (Option Text × List Char)
  | 0, _ => none
  | fuel + 1, s =>
    match s with
    | [] => none
    | '"' :: rest => some (some [], rest)
    | '\\' :: 'u' :: a :: b :: c :: d :: rest =>
      (hex4? a b c d).bind fun high =>
        if 0xD800 ≤ high ∧ high < 0xDC00 then
          match rest with
          | '\\' :: 'u' :: a' :: b' :: c' :: d' :: rest' =>
            (hex4? a' b' c' d').bind fun low =>
              if 0xDC00 ≤ low ∧ low < 0xE000 then
                (string? fuel rest').map (consChar (joinSurrogates high low))
              else (string? fuel rest).map fun r => (none, r.2)
          | _ => (string? fuel rest).map fun r => (none, r.2)
        else if 0xDC00 ≤ high ∧ high < 0xE000 then (string? fuel rest).map fun r => (none, r.2)
        else (string? fuel rest).map (consChar (Char.ofNat high))
    | '\\' :: e :: rest =>
      (shortEscape? e).bind fun c => (string? fuel rest).map (consChar c)
    | c :: rest =>
      if c = '\\' ∨ c.toNat < 0x20 then none else (string? fuel rest).map (consChar c)

/-- Splits off the digits at the beginning of a text. -/
def digits (s : List Char) : List Char × List Char :=
  (s.takeWhile Char.isDigit, s.dropWhile Char.isDigit)

/-- The number that decimal digits stand for. -/
def decimal (ds : List Char) : Nat :=
  ds.foldl (fun n c => 10 * n + (c.toNat - 48)) 0

/-- Reads the exponent of a number, if there is one: the text, and what follows. -/
def exponent? (s : List Char) : Option (List Char × List Char) :=
  match s with
  | e :: rest =>
    if e = 'e' ∨ e = 'E' then
      let (sign, rest) := match rest with
        | '+' :: r => (['+'], r)
        | '-' :: r => (['-'], r)
        | r => ([], r)
      match digits rest with
      | ([], _) => none
      | (ds, rest) => some (e :: sign ++ ds, rest)
    else some ([], s)
  | [] => some ([], [])

/-- Reads a number. Only zero itself may begin with a zero. -/
def number? (s : List Char) : Option (Data × List Char) :=
  let (negative, s) := match s with
    | '-' :: r => (true, r)
    | r => (false, r)
  match digits s with
  | ([], _) => none
  | ('0' :: _ :: _, _) => none
  | (whole, rest) =>
    let fraction := match rest with
      | '.' :: r =>
        match digits r with
        | ([], _) => none
        | (ds, r) => some ('.' :: ds, r)
      | r => some ([], r)
    fraction.bind fun (fraction, rest) =>
      (exponent? rest).map fun (exponent, rest) =>
        if fraction.isEmpty && exponent.isEmpty then
          (.int (if negative then -(decimal whole : Int) else decimal whole), rest)
        else
          (.literal ((if negative then ['-'] else []) ++ whole ++ fraction ++ exponent), rest)

/-! ## Section 2: Values -/

mutual

/-- Reads a value. -/
def value? : Nat → List Char → Option (Data × List Char)
  | 0, _ => none
  | fuel + 1, s =>
    match skip s with
    | 'n' :: 'u' :: 'l' :: 'l' :: rest => some (.null, rest)
    | 't' :: 'r' :: 'u' :: 'e' :: rest => some (.bool true, rest)
    | 'f' :: 'a' :: 'l' :: 's' :: 'e' :: rest => some (.bool false, rest)
    | '"' :: rest =>
      (string? (rest.length + 1) rest).map fun (t, rest) =>
        ((t.map Data.text).getD (.literal []), rest)
    | '[' :: rest =>
      match skip rest with
      | ']' :: rest => some (.list [], rest)
      | rest => (items? fuel rest).map fun (ds, rest) => (.list ds, rest)
    | '\x7b' :: rest =>
      match skip rest with
      | '\x7d' :: rest => some (.table [], rest)
      | rest => (entries? fuel rest).map fun (es, rest) => (.table es, rest)
    | s => number? s

/-- Reads the items of a list up to its closing bracket. -/
def items? : Nat → List Char → Option (List Data × List Char)
  | 0, _ => none
  | fuel + 1, s =>
    (value? fuel s).bind fun (d, rest) =>
      match skip rest with
      | ',' :: rest => (items? fuel rest).map fun (ds, rest) => (d :: ds, rest)
      | ']' :: rest => some ([d], rest)
      | _ => none

/-- Reads the entries of a table up to its closing brace. -/
def entries? : Nat → List Char → Option (List (Text × Data) × List Char)
  | 0, _ => none
  | fuel + 1, s =>
    match skip s with
    | '"' :: rest =>
      (string? (rest.length + 1) rest).bind fun (key, rest) =>
        match key, skip rest with
        | some key, ':' :: rest =>
          (value? fuel rest).bind fun (d, rest) =>
            match skip rest with
            | ',' :: rest => (entries? fuel rest).map fun (es, rest) => ((key, d) :: es, rest)
            | '\x7d' :: rest => some ([(key, d)], rest)
            | _ => none
        | _, _ => none
    | _ => none

end

/-- The value that a whole text holds. -/
def read? (s : List Char) : Option Data :=
  match value? (s.length + 1) s with
  | some (d, rest) => if (skip rest).isEmpty then some d else none
  | none => none

end Marginalia.Json
