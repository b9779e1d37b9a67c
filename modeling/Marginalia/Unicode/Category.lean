import Marginalia.Text.Blank
import Marginalia.Unicode.CategoryTable
import Marginalia.Unicode.PropertyTable

/-! # General categories and character properties

    * **`Category`**: the general categories that characters have.
    * **`Category.contains`**: membership, by the table of the category.
    * **Properties**: alphabetic, numeric, word and visible characters, each a union
      of categories and of a few characters more. -/

namespace Marginalia.Unicode

/-- A general category. Surrogates are left out, since no character has that
    category. -/
inductive Category where
  | uppercaseLetter | lowercaseLetter | titlecaseLetter | modifierLetter | otherLetter
  | nonspacingMark | spacingMark | enclosingMark
  | decimalNumber | letterNumber | otherNumber
  | connectorPunctuation | dashPunctuation | openPunctuation | closePunctuation
  | initialPunctuation | finalPunctuation | otherPunctuation
  | mathSymbol | currencySymbol | modifierSymbol | otherSymbol
  | spaceSeparator | lineSeparator | paragraphSeparator
  | control | format | privateUse | unassigned
deriving DecidableEq, Repr

/-- Membership in a table of inclusive ranges. -/
def inRanges (table : Array (Nat × Nat)) (c : Char) : Bool :=
  table.any fun (first, last) => first ≤ c.toNat && c.toNat ≤ last

namespace Category

/-- All categories but that of unassigned code points. -/
def assigned : List Category :=
  [.uppercaseLetter, .lowercaseLetter, .titlecaseLetter, .modifierLetter, .otherLetter,
   .nonspacingMark, .spacingMark, .enclosingMark, .decimalNumber, .letterNumber,
   .otherNumber, .connectorPunctuation, .dashPunctuation, .openPunctuation,
   .closePunctuation, .initialPunctuation, .finalPunctuation, .otherPunctuation,
   .mathSymbol, .currencySymbol, .modifierSymbol, .otherSymbol, .spaceSeparator,
   .lineSeparator, .paragraphSeparator, .control, .format, .privateUse]

/-- The table of a category. Unassigned code points have none. -/
def table : Category → Array (Nat × Nat)
  | .uppercaseLetter      => CategoryTable.uppercaseLetter
  | .lowercaseLetter      => CategoryTable.lowercaseLetter
  | .titlecaseLetter      => CategoryTable.titlecaseLetter
  | .modifierLetter       => CategoryTable.modifierLetter
  | .otherLetter          => CategoryTable.otherLetter
  | .nonspacingMark       => CategoryTable.nonspacingMark
  | .spacingMark          => CategoryTable.spacingMark
  | .enclosingMark        => CategoryTable.enclosingMark
  | .decimalNumber        => CategoryTable.decimalNumber
  | .letterNumber         => CategoryTable.letterNumber
  | .otherNumber          => CategoryTable.otherNumber
  | .connectorPunctuation => CategoryTable.connectorPunctuation
  | .dashPunctuation      => CategoryTable.dashPunctuation
  | .openPunctuation      => CategoryTable.openPunctuation
  | .closePunctuation     => CategoryTable.closePunctuation
  | .initialPunctuation   => CategoryTable.initialPunctuation
  | .finalPunctuation     => CategoryTable.finalPunctuation
  | .otherPunctuation     => CategoryTable.otherPunctuation
  | .mathSymbol           => CategoryTable.mathSymbol
  | .currencySymbol       => CategoryTable.currencySymbol
  | .modifierSymbol       => CategoryTable.modifierSymbol
  | .otherSymbol          => CategoryTable.otherSymbol
  | .spaceSeparator       => CategoryTable.spaceSeparator
  | .lineSeparator        => CategoryTable.lineSeparator
  | .paragraphSeparator   => CategoryTable.paragraphSeparator
  | .control              => CategoryTable.control
  | .format               => CategoryTable.format
  | .privateUse           => CategoryTable.privateUse
  | .unassigned           => #[]

/-- Whether a character has this category. -/
def contains : Category → Char → Bool
  | .unassigned, c => assigned.all fun k => !inRanges k.table c
  | k, c           => inRanges k.table c

/-- The letters. -/
def letters : List Category :=
  [.uppercaseLetter, .lowercaseLetter, .titlecaseLetter, .modifierLetter, .otherLetter]

/-- The marks that combine with other characters. -/
def marks : List Category :=
  [.nonspacingMark, .spacingMark, .enclosingMark]

/-- The numbers. -/
def numbers : List Category :=
  [.decimalNumber, .letterNumber, .otherNumber]

/-- The punctuation. -/
def punctuation : List Category :=
  [.connectorPunctuation, .dashPunctuation, .openPunctuation, .closePunctuation,
   .initialPunctuation, .finalPunctuation, .otherPunctuation]

/-- The symbols. -/
def symbols : List Category :=
  [.mathSymbol, .currencySymbol, .modifierSymbol, .otherSymbol]

end Category

/-- Whether a character has one of these categories. -/
def hasCategory (ks : List Category) (c : Char) : Bool :=
  ks.any fun k => k.contains c

/-! ## Properties -/

/-- The property `Alphabetic`. -/
def isAlphabetic (c : Char) : Bool :=
  hasCategory (.letterNumber :: Category.letters) c || inRanges PropertyTable.alphabetic c

/-- Any number: decimal digits, letters used as numbers, and others. -/
def isNumeric (c : Char) : Bool :=
  hasCategory Category.numbers c

/-- The property `Uppercase`. -/
def isUppercase (c : Char) : Bool :=
  Category.uppercaseLetter.contains c || inRanges PropertyTable.uppercase c

/-- The property `Lowercase`. -/
def isLowercase (c : Char) : Bool :=
  Category.lowercaseLetter.contains c || inRanges PropertyTable.lowercase c

/-- The property `Cased`. -/
def isCased (c : Char) : Bool :=
  isUppercase c || isLowercase c || Category.titlecaseLetter.contains c

/-- The property `Case_Ignorable`. -/
def isCaseIgnorable (c : Char) : Bool :=
  hasCategory [.nonspacingMark, .enclosingMark, .format, .modifierLetter, .modifierSymbol] c ||
    inRanges PropertyTable.caseIgnorable c

/-- The two joining controls, which may stand inside a word. -/
def isJoinControl (c : Char) : Bool :=
  c.toNat == 0x200C || c.toNat == 0x200D

/-- A character of a word: alphabetic, a mark, a decimal digit, a connector or a
    joining control. -/
def isWordChar (c : Char) : Bool :=
  isAlphabetic c || hasCategory (.decimalNumber :: .connectorPunctuation :: Category.marks) c ||
    isJoinControl c

/-- A decimal digit of any script. -/
def isDecimal (c : Char) : Bool :=
  Category.decimalNumber.contains c

/-- The property `Grapheme_Extend`: the character joins the one before it. -/
def isGraphemeExtend (c : Char) : Bool :=
  hasCategory [.nonspacingMark, .enclosingMark] c || inRanges PropertyTable.graphemeExtend c

/-- A character that shows where it is printed: a space, or one that is no
    separator, no control and format character, not private and assigned. -/
def isPrintable (c : Char) : Bool :=
  c == ' ' ||
    hasCategory
      (Category.letters ++ Category.marks ++ Category.numbers ++ Category.punctuation ++
        Category.symbols) c

end Marginalia.Unicode
