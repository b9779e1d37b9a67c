import Marginalia.Document
import Marginalia.Tag.Selector

/-! # Removing tags

    * **`Line.strip`**: a line without the tags that are meant. A line that one of
      them asks to clean up goes with them if nothing else can be seen on it.
    * **`Removal`**: how many tags and lines that took away.
    * **`Document.remove`**: the same for all lines of a document. -/

namespace Marginalia

open Text

/-- How much was removed. -/
structure Removal where
  tagsRemoved  : Nat
  /-- Lines that went because a tag asked for it and left them blank. -/
  linesRemoved : Nat
deriving DecidableEq, Repr

/-- There was no tag to remove. -/
def Removal.isEmpty (r : Removal) : Bool :=
  r.tagsRemoved == 0

/-- A line without the tags that are meant, and how many these were. -/
def Line.strip (g : Grammar) (sel : Selector) (l : Line) : Option Line × Nat :=
  let pieces := sel.pieces g l.text
  let tags := Piece.sightings pieces
  let text := Piece.untagged pieces
  if tags.isEmpty then (some l, 0)
  else if tags.any Sighting.cleanup && allBlank text then (none, tags.length)
  else (some { l with text }, tags.length)

namespace Document

/-- A document without the tags that are meant. -/
def remove (g : Grammar) (sel : Selector) (d : Document) : Document × Removal :=
  let results := d.lines.map (Line.strip g sel)
  let lines := results.filterMap Prod.fst
  ({ d with lines },
    { tagsRemoved  := total (results.map Prod.snd)
      linesRemoved := d.lines.length - lines.length })

/-- A document without the tags of one identifier. -/
def removeTags (g : Grammar) (d : Document) (identifier : List Char) : Document × Removal :=
  d.remove g (.exactly identifier)

/-- A document without the tags whose identifier matches a pattern, if that is
    one. -/
def removeMatching? (g : Grammar) (d : Document) (pattern : List Char) :
    Option (Document × Removal) :=
  (TagPattern.compile? g pattern).map fun p => d.remove g (.pattern p)

/-- A document without any tags. -/
def clear (g : Grammar) (d : Document) : Document × Removal :=
  d.remove g .any

end Document

end Marginalia
