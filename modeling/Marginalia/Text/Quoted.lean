import Marginalia.Unicode.Category

/-! # Quoted text

    Messages show an identifier between double quotes, written so that every
    character can be told: quotes and backslashes are escaped, and so are characters
    that would not show or would join the one before them. -/

namespace Marginalia.Text

/-- The escape of a character by its code point. -/
def codeEscape (c : Char) : List Char :=
  "\\u\x7b".toList ++ Nat.toDigits 16 c.toNat ++ ['\x7d']

/-- One character inside quotes. -/
def quotedChar (c : Char) : List Char :=
  if c = '"' then ['\\', '"']
  else if c = '\\' then ['\\', '\\']
  else if c = '\n' then ['\\', 'n']
  else if c = '\r' then ['\\', 'r']
  else if c = '\t' then ['\\', 't']
  else if c = Char.ofNat 0 then ['\\', '0']
  else if Unicode.isGraphemeExtend c || !Unicode.isPrintable c then codeEscape c
  else [c]

/-- A text between double quotes. -/
def quoted (s : List Char) : List Char :=
  '"' :: s.flatMap quotedChar ++ ['"']

end Marginalia.Text
