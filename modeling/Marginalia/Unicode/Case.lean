import Marginalia.Unicode.CaseTable
import Marginalia.Unicode.Category

/-! # Case

    * **`fold`**: simple case folding of a character.
    * **`sameLetter`**: all characters that fold alike, the spellings of one letter.
    * **`lowercase`**: lowercase of a text, in which a sigma at the end of a word has
      a form of its own. -/

namespace Marginalia.Unicode

/-- The image of a code point under a table of runs; itself if no run holds it. -/
def mapCode (table : Array CaseTable.Run) (n : Nat) : Nat :=
  (table.findSome? fun r => r.apply? n).getD n

/-- Simple case folding. -/
def fold (c : Char) : Char :=
  Char.ofNat (mapCode CaseTable.folding c.toNat)

/-- The characters with the same folding as `c`. -/
def sameLetter (c : Char) : List Char :=
  let n := mapCode CaseTable.folding c.toNat
  (n :: CaseTable.folding.toList.filterMap fun r => r.source? n).map Char.ofNat

/-- The dotted capital I, whose lowercase has two characters. -/
def dottedCapitalI : Char := Char.ofNat 0x130

/-- The capital sigma, whose lowercase depends on its place. -/
def capitalSigma : Char := Char.ofNat 0x3A3

/-- Whether the next character that matters is a cased one. -/
def casedAhead (s : List Char) : Bool :=
  ((s.dropWhile isCaseIgnorable).head?).any isCased

/-- Lowercase of a character between the texts `before`, read backwards, and
    `after`. -/
def lowerChar (before : List Char) (c : Char) (after : List Char) : List Char :=
  if c = dottedCapitalI then ['i', Char.ofNat 0x307]
  else if c = capitalSigma then
    if casedAhead before && !casedAhead after then [Char.ofNat 0x3C2] else [Char.ofNat 0x3C3]
  else [Char.ofNat (mapCode CaseTable.lowering c.toNat)]

/-- Lowercase of a text that follows `before`, which is read backwards. -/
def lowerAfter (before : List Char) : List Char → List Char
  | [] => []
  | c :: s => lowerChar before c s ++ lowerAfter (c :: before) s

/-- Lowercase of a text. -/
def lowercase (s : String) : String :=
  String.ofList (lowerAfter [] s.toList)

end Marginalia.Unicode
