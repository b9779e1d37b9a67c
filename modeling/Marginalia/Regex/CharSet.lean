import Marginalia.Unicode.Case

/-! # Sets of characters

    What one step of a regular expression accepts, as a predicate:

    * **Building**: single characters, ranges, and the operations of set algebra.
    * **`folded`**: closure under the spellings of a letter in either case.
    * **Named sets**: the ASCII classes and the Unicode properties that a pattern can
      name. -/

namespace Marginalia

/-- A set of characters. -/
abbrev CharSet := Char → Bool

namespace CharSet

/-- No character. -/
def none : CharSet := fun _ => false

/-- Every character. -/
def all : CharSet := fun _ => true

/-- One character. -/
def single (a : Char) : CharSet := fun c => c == a

/-- The characters from `a` to `b`. -/
def range (a b : Char) : CharSet := fun c => a ≤ c && c ≤ b

/-- The characters of a text. -/
def ofString (s : String) : CharSet := fun c => s.toList.contains c

/-- The characters in either set. -/
def union (p q : CharSet) : CharSet := fun c => p c || q c

/-- The characters in both sets. -/
def inter (p q : CharSet) : CharSet := fun c => p c && q c

/-- The characters in the first set only. -/
def diff (p q : CharSet) : CharSet := fun c => p c && !q c

/-- The characters in exactly one of the sets. -/
def symmDiff (p q : CharSet) : CharSet := fun c => p c != q c

/-- The characters outside of a set. -/
def compl (p : CharSet) : CharSet := fun c => !p c

/-- All spellings of the letters in a set. -/
def folded (p : CharSet) : CharSet := fun c => p c || (Unicode.sameLetter c).any p

/-- All spellings of the letters in a set, for ASCII letters only. -/
def foldedAscii (p : CharSet) : CharSet := fun c => p c || p c.toLower || p c.toUpper

/-! ## Section 1: ASCII classes -/

/-- The ASCII decimal digits. -/
def asciiDigit : CharSet := range '0' '9'

/-- The ASCII letters. -/
def asciiAlpha : CharSet := union (range 'a' 'z') (range 'A' 'Z')

/-- The ASCII letters, digits and the underscore. -/
def asciiWord : CharSet := union (union asciiAlpha asciiDigit) (single '_')

/-- The ASCII white space. -/
def asciiSpace : CharSet := fun c => c == ' ' || (9 ≤ c.toNat && c.toNat ≤ 13)

/-- The class that bracket expressions call by this name. -/
def ofAsciiName? : String → Option CharSet
  | "alnum"  => some (union asciiAlpha asciiDigit)
  | "alpha"  => some asciiAlpha
  | "ascii"  => some fun c => c.toNat < 0x80
  | "blank"  => some (ofString "\t ")
  | "cntrl"  => some fun c => c.toNat < 0x20 || c.toNat == 0x7F
  | "digit"  => some asciiDigit
  | "graph"  => some (range '!' '~')
  | "lower"  => some (range 'a' 'z')
  | "print"  => some (range ' ' '~')
  | "punct"  => some (diff (range '!' '~') (union asciiAlpha asciiDigit))
  | "space"  => some asciiSpace
  | "upper"  => some (range 'A' 'Z')
  | "word"   => some asciiWord
  | "xdigit" => some (union asciiDigit (union (range 'a' 'f') (range 'A' 'F')))
  | _        => Option.none

/-! ## Section 2: Unicode properties -/

/-- The general categories that a name stands for. Names come without case, spaces,
    hyphens and underscores. -/
def categoriesOfName? : String → Option (List Unicode.Category)
  | "lu" | "uppercaseletter"      => some [.uppercaseLetter]
  | "ll" | "lowercaseletter"      => some [.lowercaseLetter]
  | "lt" | "titlecaseletter"      => some [.titlecaseLetter]
  | "lc" | "casedletter"          =>
    some [.uppercaseLetter, .lowercaseLetter, .titlecaseLetter]
  | "lm" | "modifierletter"       => some [.modifierLetter]
  | "lo" | "otherletter"          => some [.otherLetter]
  | "l" | "letter"                => some Unicode.Category.letters
  | "mn" | "nonspacingmark"       => some [.nonspacingMark]
  | "mc" | "spacingmark"          => some [.spacingMark]
  | "me" | "enclosingmark"        => some [.enclosingMark]
  | "m" | "mark" | "combiningmark" => some Unicode.Category.marks
  | "nd" | "decimalnumber" | "digit" => some [.decimalNumber]
  | "nl" | "letternumber"         => some [.letterNumber]
  | "no" | "othernumber"          => some [.otherNumber]
  | "n" | "number"                => some Unicode.Category.numbers
  | "pc" | "connectorpunctuation" => some [.connectorPunctuation]
  | "pd" | "dashpunctuation"      => some [.dashPunctuation]
  | "ps" | "openpunctuation"      => some [.openPunctuation]
  | "pe" | "closepunctuation"     => some [.closePunctuation]
  | "pi" | "initialpunctuation"   => some [.initialPunctuation]
  | "pf" | "finalpunctuation"     => some [.finalPunctuation]
  | "po" | "otherpunctuation"     => some [.otherPunctuation]
  | "p" | "punctuation" | "punct" => some Unicode.Category.punctuation
  | "sm" | "mathsymbol"           => some [.mathSymbol]
  | "sc" | "currencysymbol"       => some [.currencySymbol]
  | "sk" | "modifiersymbol"       => some [.modifierSymbol]
  | "so" | "othersymbol"          => some [.otherSymbol]
  | "s" | "symbol"                => some Unicode.Category.symbols
  | "zs" | "spaceseparator"       => some [.spaceSeparator]
  | "zl" | "lineseparator"        => some [.lineSeparator]
  | "zp" | "paragraphseparator"   => some [.paragraphSeparator]
  | "z" | "separator"             =>
    some [.spaceSeparator, .lineSeparator, .paragraphSeparator]
  | "cc" | "control" | "cntrl"    => some [.control]
  | "cf" | "format"               => some [.format]
  | "cs" | "surrogate"            => some []
  | "co" | "privateuse"           => some [.privateUse]
  | "cn" | "unassigned"           => some [.unassigned]
  | "c" | "other"                 => some [.control, .format, .privateUse, .unassigned]
  | _                             => Option.none

/-- The properties, other than general categories, that a name stands for. -/
def propertyOfName? : String → Option CharSet
  | "any"                          => some all
  | "ascii"                        => some fun c => c.toNat < 0x80
  | "assigned"                     => some fun c => !Unicode.Category.unassigned.contains c
  | "alphabetic" | "alpha"         => some Unicode.isAlphabetic
  | "uppercase" | "upper"          => some Unicode.isUppercase
  | "lowercase" | "lower"          => some Unicode.isLowercase
  | "cased"                        => some Unicode.isCased
  | "caseignorable" | "ci"         => some Unicode.isCaseIgnorable
  | "whitespace" | "space" | "wspace" => some Text.isBlank
  | "graphemeextend" | "grext"     => some Unicode.isGraphemeExtend
  | "joincontrol" | "joinc"        => some Unicode.isJoinControl
  | _                              => Option.none

/-- A property name as names are compared: without case, spaces, hyphens and
    underscores, and without a leading `is`. -/
def looseName (name : List Char) : String :=
  let kept := (name.filter fun c => !(c == ' ' || c == '_' || c == '-')).map Char.toLower
  match kept with
  | 'i' :: 's' :: rest => if rest.isEmpty then String.ofList kept else String.ofList rest
  | _ => String.ofList kept

/-- The set that a property name stands for. -/
def ofPropertyName? (name : List Char) : Option CharSet :=
  let name := looseName name
  match propertyOfName? name with
  | some p => some p
  | Option.none => (categoriesOfName? name).map Unicode.hasCategory

/-- The set that a property with a value stands for: only the general category has
    values here. -/
def ofPropertyValue? (name value : List Char) : Option CharSet :=
  if looseName name = "gc" ∨ looseName name = "generalcategory" then ofPropertyName? value
  else Option.none

end CharSet

end Marginalia
