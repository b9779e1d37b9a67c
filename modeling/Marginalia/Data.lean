import Marginalia.Text.Order

/-! # Data

    What settings files of every format hold:

    * **`Data`**: texts, lists and tables, and the values that no setting has. Tables
      keep their entries in the order of the file, repeated keys included.
    * **`keyOrder`**: the order in which keys are written.
    * **`isWord`**: whether a whole number fits into 64 bits. -/

namespace Marginalia

/-- A key or a text in a settings file. -/
abbrev Text := List Char

/-- The contents of a settings file. -/
inductive Data where
  | null
  | bool (b : Bool)
  | int (n : Int)
  /-- A value of a kind that no setting has, such as a fraction or a date. -/
  | literal (s : Text)
  | text (s : Text)
  | list (items : List Data)
  | table (entries : List (Text × Data))
deriving Repr

/-- Keys are written in the order of texts. -/
def keyOrder (a b : Text) : Bool :=
  !Text.precedes b a

/-- A whole number of 64 bits, one of them for its sign. -/
def isWord (n : Int) : Bool :=
  decide (-9223372036854775808 ≤ n) && decide (n < 9223372036854775808)

end Marginalia
