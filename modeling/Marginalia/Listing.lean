import Marginalia.Document
import Marginalia.Tag.Sighting
import Marginalia.Text.Order

/-! # Listing tagged ranges

    * **`Occurrence`**: a tag and the line it was found on.
    * **`Document.occurrences`**: all of them, in the order of the text.
    * **`Pairing`**: an end tag closes the latest open start tag with its
      identifier, so ranges of one identifier nest, and different identifiers do
      not disturb each other.
    * **`TableOrder`**: open start tags are kept in a table by their identifiers, and
      nobody knows in which order that gives out its keys.
    * **`Document.listing`**: the paired ranges and the tags without a partner,
      both sorted by line. -/

namespace Marginalia

/-- A tag found in a document. -/
structure Occurrence where
  tag  : Tag
  /-- Counted from one. -/
  line : Nat
deriving DecidableEq, Repr

/-- A range of lines that is tagged. -/
structure TaggedRange where
  identifier : List Char
  startLine  : Nat
  endLine    : Nat
deriving DecidableEq, Repr

/-- The tagged ranges of a document, and the tags that have no partner. -/
structure Listing where
  ranges   : List TaggedRange
  dangling : List Occurrence
deriving DecidableEq, Repr

/-! ## Section 1: Pairing -/

/-- The state of a walk over the tags of a document. -/
structure Pairing where
  ranges    : List TaggedRange := []
  /-- End tags without a start tag. -/
  strayEnds : List Occurrence := []
  /-- Start tags that no end tag has closed yet, the latest first. -/
  pending   : List Occurrence := []
deriving DecidableEq, Repr

namespace Pairing

/-- Takes the next tag into account. -/
def step (p : Pairing) (o : Occurrence) : Pairing :=
  match o.tag.role with
  | .single => { p with ranges := p.ranges ++ [⟨o.tag.identifier, o.line, o.line⟩] }
  | .start  => { p with pending := o :: p.pending }
  | .finish =>
    match p.pending.find? fun s => s.tag.identifier = o.tag.identifier with
    | some s =>
      { p with
        ranges  := p.ranges ++ [⟨o.tag.identifier, s.line, o.line⟩]
        pending := p.pending.eraseP fun s => s.tag.identifier = o.tag.identifier }
    | none => { p with strayEnds := p.strayEnds ++ [o] }

/-- The pairing of a sequence of tags. -/
def run (os : List Occurrence) : Pairing :=
  os.foldl step {}

end Pairing

/-! ## Section 2: Sorting -/

/-- The order in which a table gives out its keys, each of them once. It is another one for
    each table. -/
structure TableOrder where
  le       : List Char → List Char → Bool
  trans    : ∀ a b c, le a b → le b c → le a c
  total    : ∀ a b, le a b || le b a
  antisymm : ∀ a b, le a b → le b a → a = b

/-- A table that gives out its keys in the order of texts. -/
def TableOrder.byText : TableOrder where
  le a b := !Text.precedes b a
  trans a b c := by simpa using Text.precedes_eq_false_trans
  total a b := by
    cases h : Text.precedes b a with
    | false => simp
    | true => simp [Text.precedes_asymm h]
  antisymm a b hab hba := Decidable.byContradiction fun hne => by
    have hlt := Text.precedes_of_ne hne (by simpa using hba)
    simp [hlt] at hab

namespace Pairing

/-- The start tags that no end tag has closed, as a table gives them out in which they stand
    by their identifiers: those with the same identifier in a row, the earliest first. -/
def unclosed (order : TableOrder) (p : Pairing) : List Occurrence :=
  p.pending.reverse.mergeSort fun a b => order.le a.tag.identifier b.tag.identifier

/-- Ranges are listed by their first line, then by their last. -/
def rangeOrder (a b : TaggedRange) : Bool :=
  a.startLine < b.startLine || (a.startLine == b.startLine && a.endLine ≤ b.endLine)

/-- Tags without a partner are listed by line. -/
def lineOrder (a b : Occurrence) : Bool :=
  a.line ≤ b.line

/-- The sorted result of a walk. Of the tags without a partner on one line, end tags come
    first, and start tags as the table gives them out. -/
def listing (order : TableOrder) (p : Pairing) : Listing where
  ranges   := p.ranges.mergeSort rangeOrder
  dangling := (p.strayEnds ++ p.unclosed order).mergeSort lineOrder

end Pairing

/-! ## Section 3: Listings of documents -/

/-- The first listed range with this identifier. -/
def Listing.find? (l : Listing) (identifier : List Char) : Option TaggedRange :=
  l.ranges.find? fun r => r.identifier = identifier

namespace Document

/-- Every tag of a document, in the order of the text. -/
def occurrences (g : Grammar) (d : Document) : List Occurrence :=
  (d.texts.zipIdx 1).flatMap fun (text, line) =>
    (g.sightings text).map fun s => ⟨s.tag, line⟩

/-- The tagged ranges of a document. -/
def listing (g : Grammar) (d : Document) (order : TableOrder := .byText) : Listing :=
  (Pairing.run (d.occurrences g)).listing order

end Document

end Marginalia
