import Marginalia.Region

/-! # Placing tags

    Lines `start` to `stop` of a document are tagged by a tag at the end of each of
    the two, or by one tag if they are the same line. A tag inside a native comment
    would be part of the comment, so the range is moved first:

    * **`startCollision?`, `endCollision?`**: how far comments around the two ends
      reach, across comments that follow each other on one line.
    * **`Site.clearOfComments`**: widens the range to the lines around those
      comments, with a blank line for the start tag where there is none.
    * **`Site.clearOfTail`**: moves a start tag off the bare closing line of a
      comment that belongs to what precedes it.
    * **`Document.addTags`**: checks the request, moves the range and writes. -/

namespace Marginalia

open Text

/-- Why lines are not tagged. -/
inductive PlacementFault where
  | identifier (identifier : List Char) (fault : Grammar.IdentifierFault)
  | range (start stop lineCount : Nat)
deriving DecidableEq, Repr

/-- Where tags ended up. Lines are counted from one; the lines that were asked for
    are those of the old document, the others those of the new one. -/
structure Placement where
  requestedStart : Nat
  requestedEnd   : Nat
  startLine      : Nat
  endLine        : Nat
  blankInserted  : Bool
  startShifted   : Bool
  endShifted     : Bool
deriving DecidableEq, Repr

/-- One tag was enough. -/
def Placement.isSingleLine (p : Placement) : Bool :=
  p.startLine == p.endLine

/-- The range is not the one that was asked for. -/
def Placement.isSignificant (p : Placement) : Bool :=
  p.startShifted || p.endShifted

/-! ## Section 1: Collisions -/

/-- The first line of the comments that reach line `top` from above, each opened
    above the next one's opener and closed on or below it. -/
def chainTop (enclosing : Nat → Option Region) : Nat → Nat → Nat
  | 0, top => top
  | fuel + 1, top =>
    if top = 0 then top
    else match enclosing (top - 1) with
      | some r => if r.closesAt < top then top else chainTop enclosing fuel r.opensAt
      | none   => top

/-- The last line of the comments that follow each other from line `bottom` on,
    each opened on the line that closes the one before. -/
def chainBottom (enclosing : Nat → Option Region) : Nat → Nat → Nat
  | 0, bottom => bottom
  | fuel + 1, bottom =>
    match enclosing bottom with
    | some r => if bottom < r.closesAt then chainBottom enclosing fuel r.closesAt else bottom
    | none   => bottom

/-- The first line of the comments that a start tag on `line` would be inside of.
    The closing line of a comment is outside, because tags stand at the end. -/
def startCollision? (enclosing : Nat → Option Region) (line : Nat) : Option Nat := do
  let r ← enclosing line
  if r.closesAt = line then none else some (chainTop enclosing r.opensAt r.opensAt)

/-- The last line of the comments that an end tag on `line` would be inside of, in
    a document of `lineCount` lines. -/
def endCollision? (enclosing : Nat → Option Region) (lineCount line : Nat) : Option Nat := do
  let r ← enclosing line
  if r.closesAt = line then none else some (chainBottom enclosing lineCount r.closesAt)

/-- Line `line` only closes a comment over several lines that has something above
    it, so that a tag here would read as part of that comment. -/
def onCommentTail (g : Grammar) (d : Document) (line : Nat) : Bool :=
  let texts := d.untagged g
  match Region.enclosing g texts line with
  | none => false
  | some r =>
    r.isMultiLine && r.closesAt == line && 0 < r.opensAt && !d.isBlank (r.opensAt - 1) &&
      (((texts[line]?).bind (afterLast? g.closer)).any allBlank)

/-! ## Section 2: Moving a range -/

/-- A document and the lines of it that are going to be tagged, counted from
    zero. -/
structure Site where
  document      : Document
  start         : Nat
  stop          : Nat
  blankInserted : Bool
  startShifted  : Bool
  endShifted    : Bool
deriving DecidableEq, Repr

namespace Site

/-- The lines as they were asked for. -/
def requested (d : Document) (start stop : Nat) : Site :=
  ⟨d, start, stop, false, false, false⟩

/-- Widens a range as it was asked for to lines outside of comments. The start tag
    goes on the line above them if that is blank, and on a new blank line if not. -/
def clearOfComments (g : Grammar) (s : Site) : Site :=
  let d := s.document
  let texts := d.untagged g
  let enclosing := Region.enclosing g texts
  let closesAt := endCollision? enclosing texts.length s.stop
  let stop := closesAt.getD s.stop
  match startCollision? enclosing s.start with
  | none => { s with stop, endShifted := closesAt.isSome }
  | some opensAt =>
    if 0 < opensAt ∧ d.isBlank (opensAt - 1) = true then
      { s with
        start        := opensAt - 1
        stop         := stop
        startShifted := s.start != opensAt
        endShifted   := closesAt.isSome }
    else
      { document      := d.insertBlank opensAt
        start         := opensAt
        stop          := stop + 1
        blankInserted := true
        startShifted  := s.start != opensAt
        endShifted    := closesAt.isSome }

/-- Moves a start tag from the bare closing line of a comment to a new blank line
    below it. -/
def clearOfTail (g : Grammar) (s : Site) : Site :=
  if onCommentTail g s.document s.start then
    { s with
      document      := s.document.insertBlank (s.start + 1)
      start         := s.start + 1
      stop          := s.stop + 1
      blankInserted := true
      startShifted  := true }
  else s

/-- The document with the tags written. A start tag on an inserted line asks for
    that line to be deleted with it. -/
def write (g : Grammar) (identifier : List Char) (s : Site) : Document :=
  let tag role cleanup := Tag.render g ⟨identifier, role, cleanup⟩
  if s.start = s.stop then
    s.document.appendTo s.start (tag .single s.blankInserted)
  else
    (s.document.appendTo s.stop (tag .finish false)).appendTo s.start
      (tag .start s.blankInserted)

end Site

/-! ## Section 3: Adding tags -/

namespace Document

/-- Where tags for the lines `start` to `stop`, counted from one, are written. -/
def site (g : Grammar) (d : Document) (start stop : Nat) : Site :=
  ((Site.requested d (start - 1) (stop - 1)).clearOfComments g).clearOfTail g

/-- Tags the lines `start` to `stop`, counted from one. -/
def addTags (g : Grammar) (d : Document) (identifier : List Char) (start stop : Nat) :
    Except PlacementFault (Document × Placement) :=
  match g.identifierFault? identifier with
  | some fault => .error (.identifier identifier fault)
  | none =>
    if start = 0 ∨ stop < start ∨ d.length < stop then
      .error (.range start stop d.length)
    else
      let s := d.site g start stop
      .ok (s.write g identifier,
        { requestedStart := start
          requestedEnd   := stop
          startLine      := s.start + 1
          endLine        := s.stop + 1
          blankInserted  := s.blankInserted
          startShifted   := s.startShifted
          endShifted     := s.endShifted })

end Document

end Marginalia
