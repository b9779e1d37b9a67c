import Marginalia.Data

/-! # What a word without quotes stands for

    Readers take some words for something else than a text. A text that looks like one
    of them has to be quoted.

    * **`isFinite`**: whether a decimal number has a double next to it.
    * **`isNumber`**: whole numbers in four bases, and fractions.
    * **`isAmbiguous`**: whether a text needs quotes to be a text. -/

namespace Marginalia.Yaml

/-! ## Section 1: Decimal numbers -/

/-- The value of digits in some base. -/
def digitsValue (base : Nat) (ds : List Char) : Nat :=
  ds.foldl (fun n c => base * n + if c.isDigit then c.toNat - 48 else c.toLower.toNat - 87) 0

/-- Removes the sign `+` or `-`. -/
def unsigned : List Char → List Char
  | '+' :: s => s
  | '-' :: s => s
  | s        => s

/-- The least whole number that is nearer to infinity than to any double. -/
def doubleBound : Nat := Nat.pow 2 1024 - Nat.pow 2 970

/-- The number with these digits, times a power of ten, has a double next to it. -/
def isFinite (digits : List Char) (exponent : Int) : Bool :=
  let m := digitsValue 10 digits
  let size := ((toString m).length : Int) + exponent
  if m = 0 || size < 300 then true
  else if 310 < size then false
  else if 0 ≤ exponent then decide (m * Nat.pow 10 exponent.toNat < doubleBound)
  else decide (m < doubleBound * Nat.pow 10 (-exponent).toNat)

/-- The exponent at the end of a number, which may be missing. -/
def exponent? : List Char → Option Int
  | [] => some 0
  | e :: s =>
    let ds := unsigned s
    if (e == 'e' || e == 'E') && !ds.isEmpty && ds.all Char.isDigit then
      let n : Int := digitsValue 10 ds
      some (if s.head? = some '-' then -n else n)
    else none

/-- A decimal number with an optional fraction and exponent, near a double. -/
def isDecimal (s : List Char) : Bool :=
  let s := unsigned s
  let whole := s.takeWhile Char.isDigit
  let rest := s.dropWhile Char.isDigit
  let (fraction, rest) := match rest with
    | '.' :: r => (r.takeWhile Char.isDigit, r.dropWhile Char.isDigit)
    | r => ([], r)
  if whole.isEmpty && fraction.isEmpty then false
  else
    match exponent? rest with
    | some e => isFinite (whole ++ fraction) (e - fraction.length)
    | none => false

/-! ## Section 2: Numbers in other bases -/

/-- A digit of a base. -/
def isDigitOf (base : Nat) (c : Char) : Bool :=
  (c.isDigit && c.toNat - 48 < base) || (base == 16 && ('a' ≤ c.toLower && c.toLower ≤ 'f'))

/-- Digits of a base after its mark, with a sign or without. They have at most 128
    bits. -/
def isBased (base : Nat) (mark : Char) (s : List Char) : Bool :=
  match unsigned s with
  | '0' :: m :: ds =>
    m == mark && !ds.isEmpty && ds.all (isDigitOf base) &&
      (if s.head? = some '-' then decide (digitsValue base ds ≤ Nat.pow 2 127)
        else decide (digitsValue base ds < Nat.pow 2 128))
  | _ => false

/-- Digits that begin with a zero too many. They are a text, not a number. -/
def hasLeadingZero (s : List Char) : Bool :=
  match unsigned s with
  | '0' :: c :: ds => (c :: ds).all Char.isDigit
  | _ => false

/-- The names of the values that are no numbers in the strict sense. -/
def isSpecialNumber (s : List Char) : Bool :=
  [".inf", ".Inf", ".INF", "+.inf", "+.Inf", "+.INF", "-.inf", "-.Inf", "-.INF", ".nan", ".NaN",
    ".NAN"].any fun w => w.toList == s

/-- A word that readers take for a number. -/
def isNumber (s : List Char) : Bool :=
  isBased 16 'x' s || isBased 8 'o' s || isBased 2 'b' s || isSpecialNumber s ||
    (!hasLeadingZero s && isDecimal s)

/-! ## Section 3: Texts that need quotes -/

/-- A word that readers take for nothing, for true or for false. -/
def isConstant (s : List Char) : Bool :=
  s.isEmpty || ["null", "Null", "NULL", "~", "true", "True", "TRUE", "false", "False",
    "FALSE"].any fun w => w.toList == s

/-- A text that would not be read as a text. Digits that begin with a zero are kept
    apart from numbers as well. -/
def isAmbiguous (s : List Char) : Bool :=
  isConstant s || isNumber s || hasLeadingZero s

end Marginalia.Yaml
