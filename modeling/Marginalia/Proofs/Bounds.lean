import Marginalia.Proofs.Rereading

/-! # Every line number is in range

    Adding tags counts lines up and down, from comments that were found before a line was
    inserted, and looks for comments in two loops. Here the same is done once more as a
    machine would do it: numbers are words of 64 bits, a line is only written to if it is
    there, and the loops have no result before they end.

    * **`Checked.add?`**, **`Checked.sub?`**, **`Checked.insertBlank?`**,
      **`Checked.appendTo?`**: steps that fail where a number leaves its range.
    * **`Checked.chainTop?`**, **`Checked.chainBottom?`**: the loops, which fail if they are
      not done after a number of rounds.
    * **`Checked.addTags?`**: a request, granted or refused in these steps.
    * **`Checked.addTags?_eq`**: no step fails, and neither loop takes more rounds than the
      document has lines. A request is granted exactly if the identifier is accepted and the
      lines are there. -/

namespace Marginalia

open Text Region

namespace Checked

/-! ## Section 1: Steps that can fail -/

/-- How many numbers there are in a word. -/
def wordLimit : Nat := 18446744073709551616

/-- A sum that is a word. -/
def add? (m n : Nat) : Option Nat :=
  if m + n < wordLimit then some (m + n) else none

/-- A difference that is a word. -/
def sub? (m n : Nat) : Option Nat :=
  if n ≤ m then some (m - n) else none

/-- Inserts an empty line before a line, or behind the last one. -/
def insertBlank? (d : Document) (i : Nat) : Option Document :=
  if i ≤ d.length then some (d.insertBlank i) else none

/-- Appends a text to a line that is there. -/
def appendTo? (d : Document) (i : Nat) (text : List Char) : Option Document :=
  if i < d.length then some (d.appendTo i text) else none

variable {m n i : Nat} {d : Document}

theorem add?_eq (h : m + n < wordLimit) : add? m n = some (m + n) :=
  if_pos h

theorem sub?_eq (h : n ≤ m) : sub? m n = some (m - n) :=
  if_pos h

theorem insertBlank?_eq (h : i ≤ d.length) : insertBlank? d i = some (d.insertBlank i) :=
  if_pos h

theorem appendTo?_eq (h : i < d.length) (text : List Char) :
    appendTo? d i text = some (d.appendTo i text) :=
  if_pos h

/-! ## Section 2: The search for comments -/

/-- The line on which a comment closes that opens on line `opensAt`. It is searched for from
    the line below. -/
def closing? (g : Grammar) (texts : List (List Char)) (opensAt : Nat) (rest : List Char) :
    Option (Option Nat) :=
  if occursIn g.closer rest then some (some opensAt)
  else (add? opensAt 1).map (nextCloser? g texts)

/-- The comment around a line. -/
def enclosing? (g : Grammar) (texts : List (List Char)) (line : Nat) : Option (Option Region) :=
  match lastOpener? g texts line with
  | none => some none
  | some (opensAt, rest) =>
    (closing? g texts opensAt rest).map fun closesAt =>
      closesAt.bind fun c => if line ≤ c then some ⟨opensAt, c⟩ else none

/-- The first line of the comments that reach line `top` from above, if the loop that looks
    for it ends within so many rounds. -/
def chainTop? (enclosing : Nat → Option (Option Region)) : Nat → Nat → Option Nat
  | 0, _ => none
  | rounds + 1, top =>
    if top = 0 then some top
    else do
      let above ← sub? top 1
      match ← enclosing above with
      | some r => if r.closesAt < top then some top else chainTop? enclosing rounds r.opensAt
      | none   => some top

/-- The last line of the comments that follow each other from line `bottom` on, if the loop
    that looks for it ends within so many rounds. -/
def chainBottom? (enclosing : Nat → Option (Option Region)) : Nat → Nat → Option Nat
  | 0, _ => none
  | rounds + 1, bottom => do
    match ← enclosing bottom with
    | some r =>
      if bottom < r.closesAt then chainBottom? enclosing rounds r.closesAt else some bottom
    | none   => some bottom

/-- The first line of the comments that a start tag on `line` would be inside of. -/
def startCollision? (enclosing : Nat → Option (Option Region)) (rounds line : Nat) :
    Option (Option Nat) := do
  match ← enclosing line with
  | none   => return none
  | some r =>
    if r.closesAt = line then return none
    else (chainTop? enclosing rounds r.opensAt).map some

/-- The last line of the comments that an end tag on `line` would be inside of. -/
def endCollision? (enclosing : Nat → Option (Option Region)) (rounds line : Nat) :
    Option (Option Nat) := do
  match ← enclosing line with
  | none   => return none
  | some r =>
    if r.closesAt = line then return none
    else (chainBottom? enclosing rounds r.closesAt).map some

/-- Line `line` only closes a comment that has something above it. -/
def onCommentTail? (g : Grammar) (d : Document) (line : Nat) : Option Bool := do
  let texts := d.untagged g
  match ← enclosing? g texts line with
  | none   => return false
  | some r =>
    return r.isMultiLine && r.closesAt == line && 0 < r.opensAt && !d.isBlank (r.opensAt - 1) &&
      (((texts[line]?).bind (afterLast? g.closer)).any allBlank)

/-! ## Section 3: Moving a range and writing -/

/-- Widens a range to lines outside of comments. Both ends are judged before anything is
    inserted. -/
def clearOfComments? (g : Grammar) (rounds : Nat) (s : Site) : Option Site := do
  let d := s.document
  let enclosing := enclosing? g (d.untagged g)
  let collision ← startCollision? enclosing rounds s.start
  let closesAt ← endCollision? enclosing rounds s.stop
  match collision with
  | none => return { s with stop := closesAt.getD s.stop, endShifted := closesAt.isSome }
  | some opensAt =>
    if 0 < opensAt ∧ d.isBlank (opensAt - 1) = true then
      return { s with
        start        := opensAt - 1
        stop         := closesAt.getD s.stop
        startShifted := s.start != opensAt
        endShifted   := closesAt.isSome }
    else
      return {
        document      := ← insertBlank? d opensAt
        start         := opensAt
        stop          := ← add? (closesAt.getD s.stop) 1
        blankInserted := true
        startShifted  := s.start != opensAt
        endShifted    := closesAt.isSome }

/-- Moves a start tag from the bare closing line of a comment to a new line below it. -/
def clearOfTail? (g : Grammar) (s : Site) : Option Site := do
  if ← onCommentTail? g s.document s.start then
    let below ← add? s.start 1
    return { s with
      document      := ← insertBlank? s.document below
      start         := below
      stop          := ← add? s.stop 1
      blankInserted := true
      startShifted  := true }
  else return s

/-- Writes the tags, the end tag first. -/
def write? (g : Grammar) (identifier : List Char) (s : Site) : Option Document := do
  let tag role cleanup := Tag.render g ⟨identifier, role, cleanup⟩
  if s.start = s.stop then
    appendTo? s.document s.start (tag .single s.blankInserted)
  else
    let d ← appendTo? s.document s.stop (tag .finish false)
    appendTo? d s.start (tag .start s.blankInserted)

/-- Tags the lines `start` to `stop`, counted from one. No loop goes on for more than so many
    rounds. -/
def addTags? (g : Grammar) (rounds : Nat) (d : Document) (identifier : List Char)
    (start stop : Nat) : Option (Except PlacementFault (Document × Placement)) :=
  match g.identifierFault? identifier with
  | some fault => some (.error (.identifier identifier fault))
  | none =>
    if start = 0 ∨ stop < start ∨ d.length < stop then
      some (.error (.range start stop d.length))
    else do
      let first ← sub? start 1
      let last ← sub? stop 1
      let widened ← clearOfComments? g rounds (.requested d first last)
      let s ← clearOfTail? g widened
      let written ← write? g identifier s
      return .ok (written, {
        requestedStart := start
        requestedEnd   := stop
        startLine      := ← add? s.start 1
        endLine        := ← add? s.stop 1
        blankInserted  := s.blankInserted
        startShifted   := s.startShifted
        endShifted     := s.endShifted })

/-! ## Section 4: No step fails -/

section Loops

variable {enclosing : Nat → Option Region}

/-- The upward loop ends, because each comment opens above the last one. -/
theorem chainTop?_eq (hopen : ∀ i r, enclosing i = some r → r.opensAt ≤ i) {rounds fuel top : Nat}
    (hrounds : top < rounds) (hfuel : top ≤ fuel) :
    chainTop? (fun i => some (enclosing i)) rounds top = some (chainTop enclosing fuel top) := by
  -- neither count runs out before `top`, which is less in every round
  induction rounds generalizing fuel top with
  | zero => omega
  | succ rounds ih =>
    rw [chainTop?]
    by_cases hzero : top = 0
    · rw [if_pos hzero]
      cases fuel with
      | zero => rfl
      | succ fuel => rw [chainTop, if_pos hzero]
    · obtain ⟨fuel, rfl⟩ : ∃ k, fuel = k + 1 := ⟨fuel - 1, by omega⟩
      rw [if_neg hzero, chainTop, if_neg hzero, sub?_eq (by omega)]
      simp only [Option.bind_eq_bind, Option.bind_some]
      cases hr : enclosing (top - 1) with
      | none => rfl
      | some r =>
        have hle := hopen _ _ hr
        simp only
        split
        · rfl
        · exact ih (by omega) (by omega)

/-- The downward loop ends, because each comment closes below the last one. -/
theorem chainBottom?_eq {size : Nat} (hclose : ∀ i r, enclosing i = some r → r.closesAt < size)
    {rounds fuel bottom : Nat} (hlt : bottom < size) (hrounds : size ≤ bottom + rounds)
    (hfuel : size ≤ bottom + fuel) :
    chainBottom? (fun i => some (enclosing i)) rounds bottom =
      some (chainBottom enclosing fuel bottom) := by
  -- neither count runs out before the lines below `bottom`, which are fewer in every round
  induction rounds generalizing fuel bottom with
  | zero => omega
  | succ rounds ih =>
    obtain ⟨fuel, rfl⟩ : ∃ k, fuel = k + 1 := ⟨fuel - 1, by omega⟩
    rw [chainBottom?, chainBottom]
    simp only [Option.bind_eq_bind, Option.bind_some]
    cases hr : enclosing bottom with
    | none => rfl
    | some r =>
      have hlast := hclose _ _ hr
      simp only
      split
      · exact ih hlast (by omega) (by omega)
      · rfl

theorem startCollision?_eq (hopen : ∀ i r, enclosing i = some r → r.opensAt ≤ i)
    {rounds line : Nat} (hrounds : line < rounds) :
    startCollision? (fun i => some (enclosing i)) rounds line =
      some (Marginalia.startCollision? enclosing line) := by
  unfold startCollision? Marginalia.startCollision?
  simp only [Option.bind_eq_bind, Option.bind_some]
  cases hr : enclosing line with
  | none => rfl
  | some r =>
    have hle := hopen _ _ hr
    simp only [Option.bind_some,
      chainTop?_eq hopen (Nat.lt_of_le_of_lt hle hrounds) (Nat.le_refl _)]
    split <;> rfl

theorem endCollision?_eq {size : Nat} (hclose : ∀ i r, enclosing i = some r → r.closesAt < size)
    {rounds : Nat} (hrounds : size ≤ rounds) (line : Nat) :
    endCollision? (fun i => some (enclosing i)) rounds line =
      some (Marginalia.endCollision? enclosing size line) := by
  unfold endCollision? Marginalia.endCollision?
  simp only [Option.bind_eq_bind, Option.bind_some]
  cases hr : enclosing line with
  | none => rfl
  | some r =>
    simp only [Option.bind_some, chainBottom?_eq hclose (hclose _ _ hr)
      (Nat.le_trans hrounds (Nat.le_add_left _ _)) (Nat.le_add_left _ _)]
    split <;> rfl

end Loops

variable {g : Grammar} {texts : List (List Char)} {rounds : Nat}

/-- The line below an opener has a number. -/
theorem enclosing?_eq (h : texts.length < wordLimit) :
    enclosing? g texts = fun line => some (Region.enclosing g texts line) := by
  funext line
  rw [enclosing_eq_bind]
  unfold enclosing?
  cases ho : lastOpener? g texts line with
  | none => rfl
  | some o =>
    obtain ⟨-, ⟨t, ht, -⟩, -⟩ := lastOpener?_eq_some_iff.1 ho
    have hlt := (List.getElem?_eq_some_iff.1 ht).1
    have hclosing : closing? g texts o.1 o.2 = some (Region.closing? g texts o.1 o.2) := by
      unfold closing? Region.closing?
      rw [add?_eq (by omega)]
      split <;> rfl
    simp only [hclosing]
    rfl

theorem onCommentTail?_eq (h : d.length < wordLimit) (line : Nat) :
    onCommentTail? g d line = some (onCommentTail g d line) := by
  have htexts : (d.untagged g).length < wordLimit := by
    rw [Document.length_untagged]
    exact h
  unfold onCommentTail? onCommentTail
  simp only [enclosing?_eq htexts, Option.bind_eq_bind, Option.bind_some]
  cases Region.enclosing g (d.untagged g) line with
  | none => rfl
  | some r => rfl

/-- Where a range is widened, no line is inserted outside of the document, and its last line
    can move down. -/
theorem clearOfComments?_eq {start stop : Nat} (hle : start ≤ stop) (hlt : stop < d.length)
    (hd : d.length + 1 < wordLimit) (hrounds : d.length ≤ rounds) :
    clearOfComments? g rounds (.requested d start stop) =
      some ((Site.requested d start stop).clearOfComments g) := by
  have htexts : (d.untagged g).length < wordLimit := by
    rw [Document.length_untagged]
    omega
  have hopen : ∀ i r, Region.enclosing g (d.untagged g) i = some r → r.opensAt ≤ i :=
    fun i r hr => (enclosing_bounds hr).1
  have hclose : ∀ i r, Region.enclosing g (d.untagged g) i = some r →
      r.closesAt < (d.untagged g).length := fun i r hr => (enclosing_bounds hr).2.2
  have hstop : stop < (d.untagged g).length := by
    rw [Document.length_untagged]
    exact hlt
  have hrounds' : (d.untagged g).length ≤ rounds := by
    rw [Document.length_untagged]
    exact hrounds
  have hstart := startCollision?_spec (g := g) (d.untagged g) start
  obtain ⟨-, hlast, -⟩ := endCollision?_spec (g := g) (d.untagged g) hstop
  unfold clearOfComments? Site.clearOfComments Site.requested
  simp only [enclosing?_eq htexts, endCollision?_eq hclose hrounds',
    startCollision?_eq hopen (Nat.lt_of_le_of_lt hle (Nat.lt_of_lt_of_le hlt hrounds)),
    Option.bind_eq_bind, Option.bind_some]
  generalize Marginalia.endCollision? (Region.enclosing g (d.untagged g)) (d.untagged g).length
    stop = closesAt at hlast ⊢
  rw [Document.length_untagged] at hlast
  cases hs : Marginalia.startCollision? (Region.enclosing g (d.untagged g)) start with
  | none => rfl
  | some opensAt =>
    -- the comment opens no further down than the range begins, so its line is there
    rw [hs] at hstart
    have hinsert := insertBlank?_eq (d := d) (i := opensAt) (by omega)
    have hadd := add?_eq (m := closesAt.getD stop) (n := 1) (by omega)
    simp only [hinsert, hadd, Option.bind_some]
    split <;> rfl

/-- No more than one line is inserted for a range. -/
theorem length_document_le {s : Site} (hs : s.Fits g d) : s.document.length ≤ d.length + 1 := by
  have hle := hs.start_le
  rw [hs.document]
  split
  · next hblank => rw [Document.length_insertBlank (hle hblank)]
  · exact Nat.le_succ _

/-- The line below the end of a comment has a number, and so has the last line of the range
    when it moves down. -/
theorem clearOfTail?_eq {s : Site} (hs : s.Fits g d) (hd : d.length + 1 < wordLimit) :
    clearOfTail? g s = some (s.clearOfTail g) := by
  have hlen := length_document_le hs
  have hle := hs.le
  have hlt := hs.stop_lt_length
  unfold clearOfTail? Site.clearOfTail
  rw [onCommentTail?_eq (by omega)]
  simp only [Option.bind_eq_bind, Option.bind_some]
  split
  · rw [add?_eq (by omega), add?_eq (by omega)]
    simp only [Option.bind_some, insertBlank?_eq (Nat.le_trans (Nat.succ_le_succ hle) hlt)]
    rfl
  · rfl

/-- Tags are written on lines that are there. -/
theorem write?_eq {s : Site} (hs : s.Fits g d) (identifier : List Char) :
    write? g identifier s = some (s.write g identifier) := by
  have hle := hs.le
  have hlt := hs.stop_lt_length
  unfold write? Site.write
  simp only
  split
  · exact appendTo?_eq (by omega) _
  · have hstop := appendTo?_eq hlt (Tag.render g ⟨identifier, .finish, false⟩)
    rw [hstop]
    exact appendTo?_eq (by rw [Document.length_appendTo]; omega) _

/-- A request is granted or refused without any step that fails, and no loop takes more rounds
    than there are lines. It is granted exactly if the identifier is accepted and the lines are
    lines of the document. No list in memory has so many elements that there is no word for one
    more than their number. -/
theorem addTags?_eq (g : Grammar) (identifier : List Char) (start stop : Nat)
    (hd : d.length + 1 < wordLimit) (hrounds : d.length ≤ rounds) :
    addTags? g rounds d identifier start stop = some (d.addTags g identifier start stop) ∧
      ((∃ d' p, d.addTags g identifier start stop = .ok (d', p)) ↔
        g.identifierFault? identifier = none ∧ 1 ≤ start ∧ start ≤ stop ∧ stop ≤ d.length) := by
  constructor
  · unfold addTags?
    cases hid : g.identifierFault? identifier with
    | some fault => rw [Document.addTags_of_fault hid]
    | none =>
      simp only
      split
      · next hrange => rw [Document.addTags_of_no_range hid hrange]
      · next hrange =>
        -- each part of the request in turn, with the site that the part before it gives
        have hfirst : start - 1 ≤ stop - 1 := by omega
        have hlast : stop - 1 < d.length := by omega
        have hwidened := clearOfComments?_eq (g := g) hfirst hlast hd hrounds
        have hfits := Site.clearOfComments_fits g hfirst hlast
        have hs : (d.site g start stop).Fits g d := hfits.clearOfTail
        have hlen := length_document_le hs
        have hle := hs.le
        have hlt := hs.stop_lt_length
        have hsite : clearOfTail? g ((Site.requested d (start - 1) (stop - 1)).clearOfComments g) =
            some (d.site g start stop) := clearOfTail?_eq hfits hd
        rw [Document.addTags_of_range hid (by omega) (by omega) (by omega), sub?_eq (by omega),
          sub?_eq (by omega)]
        simp only [Option.bind_eq_bind, Option.bind_some, hwidened, hsite, write?_eq hs]
        rw [add?_eq (by omega), add?_eq (by omega)]
        rfl
  · constructor
    · intro hok
      obtain ⟨d', p, hok⟩ := hok
      obtain ⟨hid, hpos, hle, hlen, -⟩ := Document.addTags_eq_ok hok
      exact ⟨hid, hpos, hle, hlen⟩
    · intro h
      obtain ⟨hid, hpos, hle, hlen⟩ := h
      exact ⟨_, _, Document.addTags_of_range hid (by omega) hle hlen⟩

/-- A line is inserted above two comments, and moves the end of the second one. -/
theorem addTags?_eq_around_comments :
    let d := Document.parse "f();\n/* a\n*/ g(); /* b\n*/ h();\n".toList
    d.length + 1 < wordLimit ∧ d.length ≤ 4 ∧ ∃ d', addTags? .standard 4 d ['t'] 3 3 =
      some (.ok (d', ⟨3, 3, 2, 5, true, true, true⟩)) := by
  intro d
  have hd : d.length + 1 < wordLimit := by decide
  have hrounds : d.length ≤ 4 := by decide
  have hplace : (d.addTags .standard ['t'] 3 3).map Prod.snd =
      .ok ⟨3, 3, 2, 5, true, true, true⟩ := by decide +kernel
  cases hadd : d.addTags .standard ['t'] 3 3 with
  | error fault => simp [hadd, Except.map] at hplace
  | ok result =>
    rw [hadd] at hplace
    obtain ⟨d', p⟩ := result
    obtain rfl := Except.ok.inj hplace
    exact ⟨hd, hrounds, d',
      (addTags?_eq .standard ['t'] 3 3 hd hrounds).1.trans (congrArg some hadd)⟩

end Checked

end Marginalia
