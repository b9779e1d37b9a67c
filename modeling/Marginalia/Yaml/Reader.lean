import Marginalia.Yaml.Token

/-! # Reading YAML

    * **`Anchors`**: the values that were given a name.
    * **`node?`**: a value from its tokens. What stands for nothing is `null`; all other
      words are texts, because no setting is anything else.
    * **`read?`**: a file with exactly one document. -/

namespace Marginalia.Yaml

/-! ## Section 1: Names and tags -/

/-- The values with a name, the latest first. A value has none while it is being read. -/
abbrev Anchors := List (Text × Option Data)

/-- What a reader of tokens knows. -/
structure Reading where
  tokens  : List Token
  anchors : Anchors
  /-- The beginnings of tags that may be used. -/
  handles : List Text

/-- A step of reading that may fail. -/
abbrev Read := StateT Reading Option

namespace Read

/-- The next token. -/
def peek : Read (Option Token) :=
  return (← get).tokens.head?

/-- Goes over one token. -/
def skip : Read Unit :=
  modify fun st => { st with tokens := st.tokens.drop 1 }

/-- The next token is one of these. -/
def at? (ts : List Token) : Read Bool :=
  return (← peek).any ts.contains

/-- Goes over a token that has to come next. -/
def expect (t : Token) : Read Unit := do
  if (← peek) = some t then skip else failure

/-- Gives a name to a value, or to one that is still being read. -/
def nameValue (name : Option Text) (d : Option Data) : Read Unit :=
  match name with
  | none => pure ()
  | some name => modify fun st => { st with anchors := (name, d) :: st.anchors }

/-- The value with a name. A value cannot be a part of itself. -/
def named (name : Text) : Read Data := do
  match (← get).anchors.lookup name with
  | none => failure
  | some none => return .literal []
  | some (some d) => return d

/-- Goes over the tag of a value, which has to begin as declared. -/
def tag : Read Bool := do
  match ← peek with
  | some (.tag h) =>
    if h.isEmpty || (← get).handles.contains h then
      skip
      return true
    else failure
  | _ => return false

/-- Goes over the name of a value. -/
def anchor : Read (Option Text) := do
  match ← peek with
  | some (.anchor name) =>
    skip
    return some name
  | _ => return none

/-- Goes over the name and the tag of a value, in either order. The second result tells
    whether there is one of the two. -/
def properties : Read (Option Text × Bool) := do
  let name ← anchor
  let tagged ← tag
  let name ← if name.isNone && tagged then anchor else pure name
  return (name, name.isSome || tagged)

end Read

/-! ## Section 2: Values -/

/-- A text from its spelling. Nothing at all, without quotes, is no text. -/
def textData (s : Text) (plain : Bool) : Data :=
  if plain && s.isEmpty then .null else .text s

/-- The text that a key stands for. -/
def keyText? : Data → Option Text
  | .text s => some s
  | .null   => some []
  | _       => none

/-- A table. If a key is no text, it is a value that no setting has. -/
def tableData (es : List (Data × Data)) : Data :=
  match es.mapM fun (k, d) => (keyText? k).map (·, d) with
  | some es => .table es
  | none    => .literal []

mutual

/-- Reads a value. Values in block style need not be indented further than the key that
    they belong to if they are lists (`besideKey`). -/
def node? : Nat → (inBlock besideKey : Bool) → Read Data
  | 0, _, _ => failure
  | fuel + 1, inBlock, besideKey => do
    match ← Read.peek with
    | some (.alias name) =>
      Read.skip
      Read.named name
    | _ =>
      let (name, proper) ← Read.properties
      Read.nameValue name none
      let d ← do
        match ← Read.peek, inBlock, besideKey with
        | some .dash, _, true => pure (.list (← besideItems? fuel))
        | some (.scalar s plain), _, _ =>
          Read.skip
          pure (textData s plain)
        | some .openBracket, _, _ =>
          Read.skip
          pure (.list (← flowItems? fuel true))
        | some .openBrace, _, _ =>
          Read.skip
          pure (tableData (← flowEntries? fuel true))
        | some .listBegins, true, _ =>
          Read.skip
          pure (.list (← items? fuel))
        | some .tableBegins, true, _ =>
          Read.skip
          pure (tableData (← entries? fuel))
        | _, _, _ => if proper then pure .null else failure
      Read.nameValue name (some d)
      return d

/-- Reads a value unless one of some tokens comes next. -/
def optional? : Nat → (inBlock besideKey : Bool) → List Token → Read Data
  | 0, _, _, _ => failure
  | fuel + 1, inBlock, besideKey, ts => do
    if ← Read.at? ts then pure .null else node? fuel inBlock besideKey

/-- Reads the items of a list in block style to its end. -/
def items? : Nat → Read (List Data)
  | 0 => failure
  | fuel + 1 => do
    if ← Read.at? [.blockEnds] then
      Read.skip
      return []
    else
      Read.expect .dash
      let d ← optional? fuel true false [.dash, .blockEnds]
      return d :: (← items? fuel)

/-- Reads the items of a list that is not indented further than its key. -/
def besideItems? : Nat → Read (List Data)
  | 0 => failure
  | fuel + 1 => do
    if ← Read.at? [.dash] then
      Read.skip
      let d ← optional? fuel true false [.dash, .key, .value, .blockEnds]
      return d :: (← besideItems? fuel)
    else return []

/-- Reads the entries of a table in block style to its end. -/
def entries? : Nat → Read (List (Data × Data))
  | 0 => failure
  | fuel + 1 => do
    if ← Read.at? [.blockEnds] then
      Read.skip
      return []
    else
      Read.expect .key
      let k ← optional? fuel true true [.key, .value, .blockEnds]
      let d ← do
        if ← Read.at? [.value] then
          Read.skip
          optional? fuel true true [.key, .value, .blockEnds]
        else pure .null
      return (k, d) :: (← entries? fuel)

/-- Reads the items of a list in brackets to its end. -/
def flowItems? : Nat → (first : Bool) → Read (List Data)
  | 0, _ => failure
  | fuel + 1, first => do
    if ← Read.at? [.closeBracket] then
      Read.skip
      return []
    else
      if !first then Read.expect .comma
      if ← Read.at? [.key] then
        Read.skip
        let d ← flowPair? fuel
        return d :: (← flowItems? fuel false)
      else if ← Read.at? [.closeBracket] then
        Read.skip
        return []
      else
        let d ← node? fuel false false
        return d :: (← flowItems? fuel false)

/-- Reads a table with one entry that stands in brackets without braces. After a
    missing key, one token does not count. -/
def flowPair? : Nat → Read Data
  | 0 => failure
  | fuel + 1 => do
    let k ← do
      if ← Read.at? [.value, .comma, .closeBracket] then
        Read.skip
        pure .null
      else node? fuel false false
    let d ← do
      if ← Read.at? [.value] then
        Read.skip
        optional? fuel false false [.comma, .closeBracket]
      else pure .null
    return tableData [(k, d)]

/-- Reads the entries of a table in braces to its end. -/
def flowEntries? : Nat → (first : Bool) → Read (List (Data × Data))
  | 0, _ => failure
  | fuel + 1, first => do
    if ← Read.at? [.closeBrace] then
      Read.skip
      return []
    else
      if !first then Read.expect .comma
      if ← Read.at? [.key] then
        Read.skip
        let k ← optional? fuel false false [.value, .comma, .closeBrace]
        let d ← do
          if ← Read.at? [.value] then
            Read.skip
            optional? fuel false false [.comma, .closeBrace]
          else pure .null
        return (k, d) :: (← flowEntries? fuel false)
      else if ← Read.at? [.closeBrace] then
        Read.skip
        return []
      else
        let k ← node? fuel false false
        return (k, .null) :: (← flowEntries? fuel false)

end

/-! ## Section 3: Documents -/

/-- The beginnings of tags that need no declaration. -/
def knownHandles : List Text :=
  ["!".toList, "!!".toList]

/-- Reads directives. Each may be given once. -/
def directives? : Nat → (versions handles : List Text) → Read (List Text × Bool)
  | 0, _, _ => failure
  | fuel + 1, versions, handles => do
    match ← Read.peek with
    | some (.version major minor) =>
      if versions.isEmpty && major = 1 && (minor = 1 || minor = 2) then
        Read.skip
        directives? fuel [[]] handles
      else failure
    | some (.tagHandle h) =>
      if handles.contains h then failure
      else
        Read.skip
        directives? fuel versions (h :: handles)
    | _ => return (handles, !versions.isEmpty || !handles.isEmpty)

/-- Goes over the ends of documents. -/
def documentEnds? : Nat → Read Unit
  | 0 => failure
  | fuel + 1 => do
    if ← Read.at? [.documentEnds] then
      Read.skip
      documentEnds? fuel
    else pure ()

/-- Reads a file that holds one document. A file without any holds none. -/
def document? (fuel : Nat) : Read Data := do
  let (handles, declared) ← directives? fuel [] []
  modify fun st => { st with handles := knownHandles ++ handles }
  let marked ← Read.at? [.documentBegins]
  if marked then Read.skip
  let next ← Read.peek
  let d ← do
    if marked && (next = none || next = some .documentBegins || next = some .documentEnds) then
      pure .null
    else if declared && !marked then failure
    else node? fuel true false
  documentEnds? fuel
  if (← Read.peek).isSome then failure
  return d

/-- The value that a whole file holds. -/
def read? (s : List Char) : Option Data :=
  (Token.scan? s).bind fun ts =>
    ((document? (4 * ts.length + 4)).run ⟨ts, [], []⟩).map Prod.fst

end Marginalia.Yaml
