/-! # Blank and control characters

    The two small character classes that decide what a reader can see:

    * **`isBlank`**: the Unicode property `White_Space`.
    * **`isControl`**: the general category `Cc`.
    * **`isLineBreak`**: the two characters that line terminators are made of.
    * **`allBlank`**: a text in which nothing can be seen. -/

namespace Marginalia.Text

/-- A character with the Unicode property `White_Space`. -/
def isBlank (c : Char) : Bool :=
  let n := c.toNat
  (9 ≤ n && n ≤ 13) || n == 0x20 || n == 0x85 || n == 0xA0 || n == 0x1680 ||
    (0x2000 ≤ n && n ≤ 0x200A) || n == 0x2028 || n == 0x2029 || n == 0x202F ||
    n == 0x205F || n == 0x3000

/-- A character of the general category `Cc`. -/
def isControl (c : Char) : Bool :=
  c.toNat < 0x20 || (0x7F ≤ c.toNat && c.toNat ≤ 0x9F)

/-- A character that line terminators are made of. -/
def isLineBreak (c : Char) : Bool :=
  c == '\n' || c == '\r'

/-- Nothing but white space, which is also true of the empty text. -/
def allBlank (s : List Char) : Bool :=
  s.all isBlank

@[simp] theorem allBlank_nil : allBlank [] = true := rfl

@[simp] theorem allBlank_append (s t : List Char) :
    allBlank (s ++ t) = (allBlank s && allBlank t) := by
  simp [allBlank]

/-- Whatever the core library calls white space is blank. -/
theorem isBlank_of_isWhitespace {c : Char} (h : c.isWhitespace = true) : isBlank c = true := by
  simp only [Char.isWhitespace, Bool.or_eq_true, decide_eq_true_eq] at h
  rcases h with ((h | h) | h) | h <;> subst h <;> decide

end Marginalia.Text
