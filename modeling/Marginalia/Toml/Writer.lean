import Marginalia.Json.Writer

/-! # Writing TOML

    * **Strings**: the first of five spellings that needs no escapes, or else the
      basic one with escapes.
    * **Values**: lists of two or more items have a line for each; tables inside of
      lists stay on one line.
    * **Sections**: a table has its simple values first, then a section for each table
      inside it. A table that only holds other tables needs no section of its own.
    * **`write?`**: TOML has no null, no whole numbers of more than 64 bits, and only
      tables make a file. -/

namespace Marginalia.Toml

/-! ## Section 1: Strings -/

/-- The longest run of a character in a text, where `run` of them came before. -/
def longestRun (q : Char) : Nat → List Char → Nat
  | run, [] => run
  | run, c :: s => if c = q then longestRun q (run + 1) s else max run (longestRun q 0 s)

/-- A control character that cannot stand in a string as it is. -/
def isCode (c : Char) : Bool :=
  c != '\t' && (c.toNat < 0x20 || c.toNat == 0x7F)

/-- The four capital digits of a character's number. -/
def code (c : Char) : List Char :=
  '\\' :: 'u' :: (Json.hex4 c.toNat).map Char.toUpper

/-- A text with escapes, in which at most so many quotes may follow each other, and
    line feeds may stand as they are if there are several lines. -/
def escape (lines : Bool) (quotes : Nat) : Nat → List Char → List Char
  | _, [] => []
  | run, c :: s =>
    if c = '"' then
      if quotes < run + 1 then '\\' :: '"' :: escape lines quotes 0 s
      else '"' :: escape lines quotes (run + 1) s
    else
      let written :=
        if c = '\\' then ['\\', '\\']
        else if c = '\n' then if lines then ['\n'] else ['\\', 'n']
        else if c = '\t' then ['\\', 't']
        else if c = '\r' then ['\\', 'r']
        else if c = Char.ofNat 8 then ['\\', 'b']
        else if c = Char.ofNat 12 then ['\\', 'f']
        else if isCode c then code c
        else [c]
      written ++ escape lines quotes 0 s

/-- A text between single double quotes. -/
def basic (s : Text) : List Char :=
  '"' :: escape false 0 0 s ++ ['"']

/-- A text between apostrophes. -/
def raw (s : Text) : List Char :=
  '\'' :: s ++ ['\'']

/-- A text between triple quotes, which begins on a line of its own if it has several
    lines. -/
def tripled (q : Char) (s inner : Text) : List Char :=
  let quotes := [q, q, q]
  quotes ++ (if s.contains '\n' then ['\n'] else []) ++ inner ++ quotes

/-- A string value. -/
def string (s : Text) : List Char :=
  let codes := s.any fun c => isCode c && c != '\n'
  let backslash := s.contains '\\'
  let lines := s.contains '\n'
  if !codes && !backslash && !lines && !s.contains '"' then basic s
  else if !codes && !lines && !s.contains '\'' then raw s
  else if !codes && !backslash && longestRun '"' 0 s ≤ 2 then
    tripled '"' s (escape true 2 0 s)
  else if !codes && longestRun '\'' 0 s ≤ 2 then tripled '\'' s s
  else if lines then tripled '"' s (escape true 2 0 s)
  else basic s

/-- A character of keys without quotes. -/
def isBareChar (c : Char) : Bool :=
  c.isAlphanum || c == '_' || c == '-'

/-- A key. -/
def key (s : Text) : List Char :=
  let codes := s.any isCode
  if !s.isEmpty && s.all isBareChar then s
  else if !codes && !s.contains '\\' && !s.contains '"' then basic s
  else if !codes && !s.contains '\'' then raw s
  else basic s

/-! ## Section 2: Values -/

/-- Puts the written items of a list together. -/
def bracket : List (List Char) → List Char
  | []  => ['[', ']']
  | [x] => '[' :: x ++ [']']
  | xs  => '[' :: xs.flatMap (fun x => "\n    ".toList ++ x ++ [',']) ++ ['\n', ']']

/-- Puts the written entries of a table on one line. -/
def brace : List (List Char) → List Char
  | [] => ['\x7b', '\x7d']
  | xs => '\x7b' :: ' ' :: [',', ' '].intercalate xs ++ [' ', '\x7d']

mutual

/-- A value on the right of an equals sign. -/
def value : Data → List Char
  | .null      => []
  | .bool b    => (if b then "true" else "false").toList
  | .int n     => (toString n).toList
  | .literal s => s
  | .text s    => string s
  | .list ds   => bracket (items ds)
  | .table es  => brace (pairs es)

/-- The written items of a list. -/
def items : List Data → List (List Char)
  | []      => []
  | d :: ds => value d :: items ds

/-- The written entries of a table. -/
def pairs : List (Text × Data) → List (List Char)
  | []           => []
  | (k, d) :: es => (key k ++ " = ".toList ++ value d) :: pairs es

end

/-! ## Section 3: Sections -/

/-- A table. -/
def isTable : Data → Bool
  | .table _ => true
  | _        => false

/-- A list that is written as sections. -/
def isTableList : Data → Bool
  | .list ds => !ds.isEmpty && ds.all isTable
  | _        => false

/-- The lines of the simple values of a table. -/
def valueLines (es : List (Text × Data)) : List Char :=
  (es.filter fun (_, d) => !isTable d && !isTableList d).flatMap fun (k, d) =>
    key k ++ " = ".toList ++ value d ++ ['\n']

/-- How a section is introduced. -/
inductive Header where
  | root
  | single
  | repeated
deriving DecidableEq

/-- The section of a table itself, if it has one. -/
def ownSection (path : List Text) (h : Header) (es : List (Text × Data)) : List (List Char) :=
  let name := ['.'].intercalate (path.map key)
  let lines := valueLines es
  match h with
  | .root     => if lines.isEmpty then [] else [lines]
  | .single   =>
    if lines.isEmpty && !es.isEmpty then [] else ['[' :: name ++ ']' :: '\n' :: lines]
  | .repeated => ['[' :: '[' :: name ++ ']' :: ']' :: '\n' :: lines]

mutual

/-- The sections of a table and of those inside it. -/
def sections (path : List Text) (h : Header) : Data → List (List Char)
  | .table es => ownSection path h es ++ innerSections path es
  | _         => []

/-- The sections of the tables inside a table. -/
def innerSections (path : List Text) : List (Text × Data) → List (List Char)
  | []           => []
  | (k, d) :: es =>
    (match d with
      | .table fs => ownSection (path ++ [k]) .single fs ++ innerSections (path ++ [k]) fs
      | .list ds  => if isTableList (.list ds) then listSections (path ++ [k]) ds else []
      | _         => []) ++ innerSections path es

/-- The sections of a list of tables. -/
def listSections (path : List Text) : List Data → List (List Char)
  | []      => []
  | d :: ds => sections path .repeated d ++ listSections path ds

end

/-! ## Section 4: Files -/

mutual

/-- TOML can hold the value. -/
def isWritable : Data → Bool
  | .null     => false
  | .int n    => isWord n
  | .list ds  => areWritable ds
  | .table es => haveWritable es
  | _         => true

/-- TOML can hold the items. -/
def areWritable : List Data → Bool
  | []      => true
  | d :: ds => isWritable d && areWritable ds

/-- TOML can hold the entries. -/
def haveWritable : List (Text × Data) → Bool
  | []           => true
  | (_, d) :: es => isWritable d && haveWritable es

end

/-- A whole file. -/
def write? (d : Data) : Option (List Char) :=
  if isTable d && isWritable d then some (['\n'].intercalate (sections [] .root d)) else none

end Marginalia.Toml
