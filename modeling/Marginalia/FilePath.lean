/-! # File paths

    A path is a text in which `/` separates names:

    * **`FilePath.ofChars`**: backslashes are taken as separators too.
    * **`fileName?`**: the last name.
    * **`extension?`**: what follows the last dot of the last name. The extension
      decides the language of a tagged file and the format of a settings file.
    * **`join`**: a path seen from a directory. -/

namespace Marginalia

/-- A path whose separators are slashes. -/
structure FilePath where
  chars : List Char
deriving DecidableEq, Repr

namespace FilePath

/-- The path that a text names. -/
def ofChars (s : List Char) : FilePath :=
  ⟨s.map fun c => if c = '\\' then '/' else c⟩

/-- The path that a string names. -/
def ofString (s : String) : FilePath :=
  ofChars s.toList

/-- The text of a path. -/
def toString (p : FilePath) : String :=
  String.ofList p.chars

/-- A text without the slashes at its end. -/
def dropTrailingSlashes (s : List Char) : List Char :=
  (s.reverse.dropWhile (· == '/')).reverse

/-- The longest end of a text without a slash. -/
def afterLastSlash (s : List Char) : List Char :=
  (s.reverse.takeWhile (· != '/')).reverse

/-- The last name, which is not empty. -/
def fileName? (p : FilePath) : Option (List Char) :=
  match afterLastSlash (dropTrailingSlashes p.chars) with
  | []   => none
  | name => some name

/-- The extension of a name: what follows its last dot. A dot at either end of the
    name makes none. -/
def nameExtension? (name : List Char) : Option (List Char) :=
  let backwards := name.reverse
  match backwards.takeWhile (· != '.'), backwards.dropWhile (· != '.') with
  | c :: cs, '.' :: _ :: _ => some (c :: cs).reverse
  | _, _ => none

/-- The extension of the last name. -/
def extension? (p : FilePath) : Option (List Char) :=
  p.fileName?.bind nameExtension?

/-- The path `p` seen from the directory `base`; a path from the root stays as it
    is. -/
def join (base p : List Char) : FilePath :=
  match p with
  | '/' :: _ => ofChars p
  | _ => ofChars (if base.getLast? = some '/' ∨ base = [] then base ++ p else base ++ '/' :: p)

end FilePath

end Marginalia
