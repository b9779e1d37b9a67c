import Marginalia.Settings

/-! # Settings as data

    * **`Settings.toData`**: the tables that settings are written as.
    * **`Convention`**: what formats take for a table, a list or a text.
    * **`Settings.ofData?`**: settings from data in some format. A table of settings has
      fixed keys. In most formats, a list may stand for it. Marks are single
      characters, and a file without languages has none of its own. -/

namespace Marginalia

/-! ## Section 1: Writing -/

/-- An entry of a table. -/
def field (key : String) (d : Data) : Text × Data :=
  (key.toList, d)

/-- A text of one character. -/
def charData (c : Char) : Data := .text [c]

/-- The table of the marks. -/
def Markers.toData (m : Markers) : Data :=
  .table [field "start_end" (charData m.boundary), field "key_separator" (charData m.separator),
    field "cleanup" (charData m.cleanup)]

/-- The table of a language. -/
def Language.toData (l : Language) : Data :=
  .table [field "extensions" (.list (l.extensions.map .text)),
    field "comment_open" (.text l.opener), field "comment_close" (.text l.closer)]

/-- The table of all settings. -/
def Settings.toData (s : Settings) : Data :=
  .table [field "markers" s.markers.toData,
    field "languages" (.table (s.languages.entries.map fun e => (e.1, e.2.toData)))]

/-! ## Section 2: Conventions -/

/-- Whether a list may stand for a table with fixed keys. -/
inductive Positional where
  | never
  /-- The list may not be longer than the table. -/
  | exact
  /-- What is too much in a list does not count. -/
  | lenient
deriving DecidableEq, Repr

/-- What a format takes for a table, a list or a text. -/
structure Convention where
  positional    : Positional
  /-- Nothing at all is an empty table, list or text. -/
  nullIsEmpty   : Bool
  /-- A name may be given to several languages, of which the last one counts. -/
  repeatedNames : Bool

/-- The convention of each format. -/
def Format.convention : Format → Convention
  | .toml => ⟨.lenient, false, false⟩
  | .json => ⟨.exact, false, true⟩
  | .yaml => ⟨.never, true, false⟩

namespace Convention

/-- The keys of some entries, as often as they occur. -/
def keyCount (key : Text) (es : List (Text × Data)) : Nat :=
  (es.filter fun e => e.1 = key).length

/-- The values for the fixed keys of a table. Each key may be given once. With `strict`,
    there may be no other keys. -/
def fields? (c : Convention) (keys : List String) (strict : Bool) :
    Data → Option (List (Option Data))
  | .table es =>
    let keys := keys.map String.toList
    if (keys.any fun k => 1 < keyCount k es) || (strict && es.any fun e => !keys.contains e.1) then
      none
    else some (keys.map fun k => es.lookup k)
  | .list ds =>
    if c.positional = .never || (c.positional = .exact && keys.length < ds.length) then none
    else some ((List.range keys.length).map fun i => ds[i]?)
  | .null => if c.nullIsEmpty then some (keys.map fun _ => none) else none
  | _ => none

/-- A text. -/
def text? (c : Convention) : Data → Option Text
  | .text s => some s
  | .null   => if c.nullIsEmpty then some [] else none
  | _       => none

/-- A text of one character. -/
def char? (c : Convention) (d : Data) : Option Char :=
  match c.text? d with
  | some [x] => some x
  | _        => none

/-- A list of texts. -/
def texts? (c : Convention) : Data → Option (List Text)
  | .list ds => ds.mapM c.text?
  | .null    => if c.nullIsEmpty then some [] else none
  | _        => none

/-! ## Section 3: Reading -/

/-- The marks in a table. -/
def markers? (c : Convention) (d : Data) : Option Markers := do
  match ← c.fields? ["start_end", "key_separator", "cleanup"] true d with
  | [some b, some s, some u] => return ⟨← c.char? b, ← c.char? s, ← c.char? u⟩
  | _ => none

/-- The language in a table. -/
def language? (c : Convention) (d : Data) : Option Language := do
  match ← c.fields? ["extensions", "comment_open", "comment_close"] true d with
  | [some e, some o, some u] => return ⟨← c.texts? e, ← c.text? o, ← c.text? u⟩
  | _ => none

/-- The languages in a table, by name. -/
def languages? (c : Convention) : Data → Option Languages
  | .table es =>
    if !c.repeatedNames && es.any (fun e => 1 < keyCount e.1 es) then none
    else (es.mapM fun e => (c.language? e.2).map (e.1, ·)).map Languages.ofList
  | .null => if c.nullIsEmpty then some .empty else none
  | _ => none

/-- The settings in a table. Keys that mean nothing are passed over. -/
def settings? (c : Convention) (d : Data) : Option Settings := do
  match ← c.fields? ["markers", "languages"] false d with
  | [some m, l] =>
    let languages ← match l with
      | some l => c.languages? l
      | none => some .empty
    return ⟨← c.markers? m, languages⟩
  | _ => none

end Convention

/-- The settings that some data in a format stand for. -/
def Settings.ofData? (f : Format) (d : Data) : Option Settings :=
  f.convention.settings? d

end Marginalia
