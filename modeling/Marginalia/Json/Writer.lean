import Marginalia.Data

/-! # Writing JSON

    Every item of a list and every entry of a table has a line of its own, indented by
    two spaces for each level. Empty lists and tables stay on one line, and no line
    break ends the text. -/

namespace Marginalia.Json

/-- The four digits of a character's number. -/
def hex4 (n : Nat) : List Char :=
  let digits := Nat.toDigits 16 n
  List.replicate (4 - digits.length) '0' ++ digits

/-- A character inside a string: quotes, backslashes and control characters are
    escaped. -/
def stringChar (c : Char) : List Char :=
  if c = '"' then ['\\', '"']
  else if c = '\\' then ['\\', '\\']
  else if c = '\n' then ['\\', 'n']
  else if c = '\r' then ['\\', 'r']
  else if c = '\t' then ['\\', 't']
  else if c = Char.ofNat 8 then ['\\', 'b']
  else if c = Char.ofNat 12 then ['\\', 'f']
  else if c.toNat < 0x20 then '\\' :: 'u' :: hex4 c.toNat
  else [c]

/-- A string between quotes. -/
def string (s : Text) : List Char :=
  '"' :: s.flatMap stringChar ++ ['"']

/-- The beginning of a line at some level. -/
def newline (level : Nat) : List Char :=
  '\n' :: List.replicate (2 * level) ' '

/-- Puts brackets around what a list or table holds, whose own lines begin at
    `level`. -/
def bracketed (level : Nat) (left right : Char) (inner : List Char) : List Char :=
  if inner.isEmpty then [left, right] else left :: inner ++ newline level ++ [right]

/-- The separator before an item. -/
def separator (first : Bool) : List Char :=
  if first then [] else [',']

mutual

/-- A value whose lines begin at some level. -/
def value (level : Nat) : Data → List Char
  | .null      => "null".toList
  | .bool b    => (if b then "true" else "false").toList
  | .int n     => (toString n).toList
  | .literal s => s
  | .text s    => string s
  | .list ds   => bracketed level '[' ']' (items (level + 1) true ds)
  | .table es  => bracketed level '\x7b' '\x7d' (entries (level + 1) true es)

/-- The items of a list. -/
def items (level : Nat) (first : Bool) : List Data → List Char
  | []      => []
  | d :: ds => separator first ++ newline level ++ value level d ++ items level false ds

/-- The entries of a table. -/
def entries (level : Nat) (first : Bool) : List (Text × Data) → List Char
  | []           => []
  | (k, d) :: es =>
    separator first ++ newline level ++ string k ++ ':' :: ' ' :: value level d ++
      entries level false es

end

/-- A whole text. -/
def write (d : Data) : List Char :=
  value 0 d

end Marginalia.Json
