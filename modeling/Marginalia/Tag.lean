import Marginalia.Grammar

/-! # Tags

    A tag marks one side of a range of lines, or a single line:

    * **`Role`**: which side, and which of the two boundary marks that takes.
    * **`Tag`**: an identifier, a role and the cleanup request.
    * **`Tag.render`**: the comment that a grammar writes for a tag. -/

namespace Marginalia

/-! ## Section 1: Roles -/

/-- What a tag says about the line it stands on. -/
inductive Role where
  /-- The first line of a range. -/
  | start
  /-- The last line of a range. -/
  | finish
  /-- A range of this line alone. -/
  | single
deriving DecidableEq, Repr

namespace Role

/-- The role of a tag with a boundary mark before and after its identifier. A tag
    with neither counts as a tag with both. -/
def ofMarks : Bool → Bool → Role
  | true, false => .start
  | false, true => .finish
  | _, _        => .single

/-- Whether a boundary mark stands before the identifier. -/
def opensRange : Role → Bool
  | .finish => false
  | _       => true

/-- Whether a boundary mark stands after the identifier. -/
def closesRange : Role → Bool
  | .start => false
  | _      => true

@[simp] theorem ofMarks_opensRange_closesRange (r : Role) :
    ofMarks r.opensRange r.closesRange = r := by
  cases r <;> rfl

/-- The name of a role in messages. -/
def name : Role → String
  | .start  => "start"
  | .finish => "end"
  | .single => "single-line"

/-- The name of a role in records for other programs. -/
def key : Role → String
  | .start  => "start"
  | .finish => "end"
  | .single => "single_line"

end Role

/-! ## Section 2: Tags and their text -/

/-- A tag, apart from how a grammar writes it. -/
structure Tag where
  identifier : List Char
  role       : Role
  cleanup    : Bool
deriving DecidableEq, Repr

namespace Tag

/-- What stands before the identifier. -/
def head (g : Grammar) (r : Role) : List Char :=
  g.opener ++ joiner :: ((if r.opensRange then [g.boundary] else []) ++ [g.separator])

/-- What stands after the identifier. -/
def tail (g : Grammar) (r : Role) (cleanup : Bool) : List Char :=
  g.separator ::
    ((if r.closesRange then [g.boundary] else []) ++
      ((if cleanup then [g.cleanup] else []) ++ g.closer))

/-- The comment that `g` writes for a tag. -/
def render (g : Grammar) (t : Tag) : List Char :=
  head g t.role ++ t.identifier ++ tail g t.role t.cleanup

end Tag

end Marginalia
