/-! # Character classes of YAML

    * **`isBreak`**: the characters that end a line.
    * **`isBlankOrEnd`**: whether a text goes on with nothing that can be seen.
    * **`isPrintable`** and **`isAllowed`**: what may be written as it is, and what a
      file may hold at all. -/

namespace Marginalia.Yaml

/-- A character that ends a line. -/
def isBreak (c : Char) : Bool :=
  c == '\n' || c == '\r' || c.toNat == 0x85 || c.toNat == 0x2028 || c.toNat == 0x2029

/-- A character that separates words on a line. -/
def isBlank (c : Char) : Bool :=
  c == ' ' || c == '\t'

/-- The text is over, or goes on with a blank or a line break. -/
def isBlankOrEnd : List Char → Bool
  | []     => true
  | c :: _ => isBlank c || isBreak c

/-- A character of names, of which anchors are made. -/
def isNameChar (c : Char) : Bool :=
  c.isAlphanum || c == '_' || c == '-'

/-- The mark that a file may begin with. -/
def byteOrderMark : Char := Char.ofNat 0xFEFF

/-- A character that a file may hold. -/
def isAllowed (c : Char) : Bool :=
  let n := c.toNat
  n == 9 || n == 0xA || n == 0xD || (0x20 ≤ n && n ≤ 0x7E) || n == 0x85 ||
    (0xA0 ≤ n && n ≤ 0xFFFD) || 0x10000 ≤ n

/-- A character that is written as it is. -/
def isPrintable (c : Char) : Bool :=
  let n := c.toNat
  n == 0xA || (0x20 ≤ n && n ≤ 0x7E) || (0xA0 ≤ n && n ≤ 0xFFFD && c != byteOrderMark) ||
    0x10000 ≤ n

/-- Whatever is written as it is can also be read. -/
theorem isAllowed_of_isPrintable {c : Char} (h : isPrintable c = true) : isAllowed c = true := by
  simp only [isPrintable, isAllowed, Bool.or_eq_true, Bool.and_eq_true, decide_eq_true_eq,
    beq_iff_eq] at *
  omega

/-- Spaces and tabs do not end lines. -/
theorem not_isBreak_of_isBlank {c : Char} (h : isBlank c = true) : isBreak c = false := by
  simp only [isBlank, Bool.or_eq_true, beq_iff_eq] at h
  rcases h with h | h <;> subst h <;> decide

end Marginalia.Yaml
