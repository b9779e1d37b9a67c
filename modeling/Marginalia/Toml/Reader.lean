import Marginalia.Toml.Value

/-! # Reading TOML

    * **`Node`**: a table under construction. It remembers how it came to be, because
      that decides what may still be added to it.
    * **`Node.within?`**: changes the table that a key leads to.
    * **`value?`**: values, with lists and tables inside of values.
    * **`read?`**: a whole file. -/

namespace Marginalia.Toml

/-! ## Section 1: Tables under construction -/

/-- What a key of a table under construction stands for. -/
inductive Node where
  | value (d : Data)
  /-- A table. It is implicit while only tables inside it were mentioned, and dotted
      if a dotted key made it. -/
  | table (implicit dotted : Bool) (entries : List (Text × Node))
  /-- A list of tables, of which the last one is open. -/
  | tables (earlier : List Node) (last : Node)

namespace Node

/-- An empty table that a header names. -/
def fresh : Node := .table false false []

/-- Replaces the entry of a key. -/
def replace (k : Text) (n : Node) (es : List (Text × Node)) : List (Text × Node) :=
  es.map fun e => if e.1 = k then (k, n) else e

/-- Changes the table that the keys `ks` lead to. Tables on the way are made. The keys
    of a dotted key may only lead through tables that are still implicit. -/
def within? (dotted : Bool) (change : Node → Option Node) : List Text → Node → Option Node
  | [], n => change n
  | k :: ks, .table i d es =>
    match es.lookup k with
    | none =>
      (within? dotted change ks (.table true dotted [])).map fun n => .table i d (es ++ [(k, n)])
    | some (.value _) => none
    | some (.tables earlier last) =>
      (within? dotted change ks last).map fun n => .table i d (replace k (.tables earlier n) es)
    | some (.table i' d' es') =>
      if dotted && !i' then none
      else
        (within? dotted change ks (.table i' d' es')).map fun n => .table i d (replace k n es)
  | _ :: _, _ => none

/-- Adds a value under a key that is not there yet. A table that a dotted key leads to
    has to be one that dotted keys made, and no other. -/
def addValue? (viaDots : Bool) (k : Text) (v : Data) : Node → Option Node
  | .table i d es =>
    if d = viaDots ∧ (es.lookup k).isNone = true then some (.table i d (es ++ [(k, .value v)]))
    else none
  | _ => none

/-- Adds a value under a key with dots. -/
def addPair? (ks : List Text) (v : Data) (n : Node) : Option Node :=
  match ks.getLast? with
  | none   => none
  | some k => within? true (addValue? (ks.length != 1) k v) ks.dropLast n

/-- Opens the table of a header. -/
def openTable? (k : Text) : Node → Option Node
  | .table i d es =>
    match es.lookup k with
    | none => some (.table i d (es ++ [(k, fresh)]))
    | some (.table true false es') => some (.table i d (replace k (.table false false es') es))
    | _ => none
  | _ => none

/-- Opens one more table of a list of tables. -/
def openItem? (k : Text) : Node → Option Node
  | .table i d es =>
    match es.lookup k with
    | none => some (.table i d (es ++ [(k, .tables [] fresh)]))
    | some (.tables earlier last) =>
      some (.table i d (replace k (.tables (earlier ++ [last]) fresh) es))
    | _ => none
  | _ => none

mutual

/-- What a finished node holds. -/
def toData : Node → Data
  | .value d => d
  | .table _ _ es => .table (entriesData es)
  | .tables earlier last => .list (itemsData earlier ++ [last.toData])

/-- What finished entries hold. -/
def entriesData : List (Text × Node) → List (Text × Data)
  | []           => []
  | (k, n) :: es => (k, n.toData) :: entriesData es

/-- What finished tables hold. -/
def itemsData : List Node → List Data
  | []      => []
  | n :: ns => n.toData :: itemsData ns

end

end Node

/-! ## Section 2: Values -/

mutual

/-- Reads a value. Values nest no deeper than the fuel. -/
def value? : Nat → List Char → Option (Data × List Char)
  | 0, _ => none
  | depth + 1, s =>
    match s with
    | '[' :: rest => (items? depth (rest.length + 1) rest).map fun (ds, rest) => (.list ds, rest)
    | '\x7b' :: rest =>
      match skipSpace rest with
      | '\x7d' :: rest => some (.table [], rest)
      | rest => pairs? depth (rest.length + 1) Node.fresh rest
    | '"' :: _  => (string? s).map fun (t, rest) => (.text t, rest)
    | '\'' :: _ => (string? s).map fun (t, rest) => (.text t, rest)
    | _ => word? s

/-- Reads the items of a list up to its closing bracket. -/
def items? : Nat → Nat → List Char → Option (List Data × List Char)
  | 0, _, _ => none
  | _ + 1, 0, _ => none
  | depth + 1, fuel + 1, s =>
    match skipLines s.length s with
    | ']' :: rest => some ([], rest)
    | s =>
      (value? depth s).bind fun (d, rest) =>
        match skipLines rest.length rest with
        | ',' :: rest => (items? (depth + 1) fuel rest).map fun (ds, rest) => (d :: ds, rest)
        | ']' :: rest => some ([d], rest)
        | _ => none

/-- Reads the entries of a table in braces up to its closing brace. -/
def pairs? : Nat → Nat → Node → List Char → Option (Data × List Char)
  | 0, _, _, _ => none
  | _ + 1, 0, _, _ => none
  | depth + 1, fuel + 1, n, s =>
    (key? (s.length + 1) s).bind fun (ks, rest) =>
      match rest with
      | '=' :: rest =>
        (value? depth (skipSpace rest)).bind fun (d, rest) =>
          (n.addPair? ks d).bind fun n =>
            match skipSpace rest with
            | ',' :: rest => pairs? (depth + 1) fuel n rest
            | '\x7d' :: rest => some (n.toData, rest)
            | _ => none
      | _ => none

end

/-- How deeply values may nest. -/
def depthLimit : Nat := 80

/-! ## Section 3: Files -/

/-- What has been read of a file: its table, and where keys without a header go. -/
structure State where
  root : Node
  path : List Text

/-- Reads the rest of a line that holds no more. -/
def endOfLine? (s : List Char) : Option (List Char) :=
  match skipComment (skipSpace s) with
  | [] => some []
  | s  => lineBreak? s

/-- Reads a header after its opening brackets. -/
def header? (st : State) (repeated : Bool) (s : List Char) : Option (State × List Char) :=
  (key? (s.length + 1) s).bind fun (ks, rest) =>
    match ks.getLast? with
    | none => none
    | some k =>
      let change := if repeated then Node.openItem? k else Node.openTable? k
      let after := match repeated, rest with
        | true, ']' :: ']' :: rest => some rest
        | false, ']' :: rest => some rest
        | _, _ => none
      after.bind fun rest =>
        (st.root.within? false change ks.dropLast).map fun root => (⟨root, ks⟩, rest)

/-- Reads a key and its value. -/
def pair? (st : State) (s : List Char) : Option (State × List Char) :=
  (key? (s.length + 1) s).bind fun (ks, rest) =>
    match rest with
    | '=' :: rest =>
      (value? (2 * depthLimit) (skipSpace rest)).bind fun (d, rest) =>
        (st.root.within? false (Node.addPair? ks d) st.path).map fun root =>
          ({ st with root }, rest)
    | _ => none

/-- Reads lines to the end of the file. -/
def statements? : Nat → State → List Char → Option State
  | 0, _, _ => none
  | fuel + 1, st, s =>
    match skipSpace s with
    | [] => some st
    | '#' :: _ => (endOfLine? s).bind (statements? fuel st)
    | '\n' :: rest => statements? fuel st rest
    | '\r' :: '\n' :: rest => statements? fuel st rest
    | '[' :: '[' :: rest =>
      (header? st true rest).bind fun (st, rest) => (endOfLine? rest).bind (statements? fuel st)
    | '[' :: rest =>
      (header? st false rest).bind fun (st, rest) => (endOfLine? rest).bind (statements? fuel st)
    | s => (pair? st s).bind fun (st, rest) => (endOfLine? rest).bind (statements? fuel st)

/-- The mark that a file may begin with. -/
def byteOrderMark : Char := Char.ofNat 0xFEFF

/-- The table that a whole file holds. -/
def read? (s : List Char) : Option Data :=
  let s := match s with
    | c :: rest => if c = byteOrderMark then rest else s
    | [] => s
  (statements? (s.length + 1) ⟨Node.fresh, []⟩ s).map fun st => st.root.toData

end Marginalia.Toml
