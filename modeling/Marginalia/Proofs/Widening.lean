import Mathlib.Order.Bounds.Basic
import Marginalia.Proofs.Scanning
import Marginalia.Proofs.Sites

/-! # The nearest lines outside of comments

    A range is moved so that its tags do not stand inside of comments, and no further than
    that takes:

    * **`Document.Inside`**: a tag at the end of a line would be inside of a comment.
    * **`startCollision?_isLeast`**, **`endCollision?_isLeast`**: the walks over comments end
      at the first line of those that reach a line without a gap, and at the first line
      below that is outside.
    * **`Site.Widens`**: all that is to be known about where tags go.
    * **`Document.addTags_widens`**: tags go there. -/

namespace Marginalia

open Text Region

variable {g : Grammar}

/-- A comment is open at the end of line `i` that is closed on a line below. -/
def Document.Inside (g : Grammar) (d : Document) (i : Nat) : Prop :=
  ∃ r, d.enclosing g i = some r ∧ i < r.closesAt

theorem Document.inside_iff {d : Document} {i : Nat} :
    d.Inside g i ↔ crosses g false (d.untagged g) (i + 1) = true :=
  crosses_succ_iff.symm

instance (g : Grammar) (d : Document) (i : Nat) : Decidable (d.Inside g i) :=
  decidable_of_iff _ Document.inside_iff.symm

/-! ## Section 1: One comment -/

namespace Region

variable {texts : List (List Char)} {i j : Nat} {r : Region}

/-- Whether a closer follows line `j`, if one follows line `i` below. -/
theorem any_closer_drop_of_le (hji : j ≤ i)
    (h : (texts.drop (i + 1)).any (occursIn g.closer) = true) :
    (texts.drop (j + 1)).any (occursIn g.closer) = true := by
  obtain ⟨t, ht, hcloser⟩ := List.any_eq_true.1 h
  refine List.any_eq_true.2 ⟨t, ?_, hcloser⟩
  exact (List.drop_sublist_drop_left texts (by omega)).subset ht

/-- The end of each line between the opener of a comment and a line above which it does not
    close is inside of it. -/
theorem crosses_of_opener_le (h : enclosing g texts i = some r) (hlt : i < r.closesAt)
    (hopen : r.opensAt ≤ j) (hji : j ≤ i) : crosses g false texts (j + 1) = true := by
  have hcross := crosses_succ_iff.2 ⟨r, h, hlt⟩
  unfold crosses at hcross ⊢
  rw [Bool.and_eq_true] at hcross ⊢
  refine ⟨?_, any_closer_drop_of_le hji hcross.2⟩
  obtain ⟨rest, hlast, -, -⟩ := enclosing_eq_some_iff.1 h
  rcases lastOpener?_cases g texts i with ⟨-, hnone⟩ | ⟨as, t, bs, rest', htake, ht, hbs, hsome⟩
  · exact absurd (hnone.symm.trans hlast) (by simp)
  · -- the lines down to line `j` have the same last opener
    obtain ⟨has, -⟩ := Prod.mk.inj (Option.some.inj (hsome.symm.trans hlast))
    have hshort : texts.take (j + 1) = as ++ t :: bs.take (j - as.length) := by
      have hmin : texts.take (j + 1) = (texts.take (i + 1)).take (j + 1) := by
        rw [List.take_take, Nat.min_eq_left (by omega)]
      have hsum : j + 1 - as.length = j - as.length + 1 := by omega
      rw [hmin, htake, List.take_append, List.take_of_length_le (by omega), hsum,
        List.take_succ_cons]
    have hopened := hcross.1
    rw [htake, openAfterAll_of_last_opener ht hbs, Bool.and_eq_true] at hopened
    rw [hshort, openAfterAll_of_last_opener ht fun b hb => hbs b (List.mem_of_mem_take hb),
      Bool.and_eq_true]
    have hno := hopened.2
    rw [Bool.not_eq_true', List.any_eq_false] at hno
    refine ⟨hopened.1, ?_⟩
    rw [Bool.not_eq_true', List.any_eq_false]
    exact fun b hb => hno b (List.mem_of_mem_take hb)

/-- The end of each line above the one that closes a comment is inside of one. -/
theorem crosses_of_lt_closesAt (h : enclosing g texts i = some r) (hij : i ≤ j)
    (hlt : j < r.closesAt) : crosses g false texts (j + 1) = true := by
  have hcross := crosses_succ_iff.2 ⟨r, h, by omega⟩
  have hlen := (enclosing_bounds h).2.2
  obtain ⟨k, hk, hsum⟩ := Option.map_eq_some_iff.1 (nextCloser?_of_enclosing h (by omega))
  obtain ⟨hklen, hcloser, hbefore⟩ := List.findIdx?_eq_some_iff_getElem.1 hk
  unfold crosses at hcross ⊢
  rw [Bool.and_eq_true] at hcross ⊢
  -- between line `i` and line `j` nothing is closed
  have hsplit : texts.take (j + 1) = texts.take (i + 1) ++ (texts.drop (i + 1)).take (j - i) := by
    have htotal : j + 1 = (i + 1) + (j - i) := by omega
    rw [htotal, List.take_add]
  refine ⟨?_, ?_⟩
  · rw [hsplit, Grammar.openAfterAll_append, hcross.1]
    apply Grammar.openAfterAll_true
    rw [List.any_eq_false]
    intro t ht
    obtain ⟨m, hm, rfl⟩ := List.mem_iff_getElem.1 ht
    rw [List.length_take] at hm
    rw [List.getElem_take]
    exact hbefore m (by omega)
  · refine List.any_eq_true.2 ⟨_, ?_, hcloser⟩
    -- the line that closes the comment stands below line `j` as well
    rw [List.length_drop] at hklen
    refine List.mem_drop_iff_getElem.2 ⟨k - (j - i), by omega, ?_⟩
    rw [List.getElem_drop]
    congr 1
    omega

end Region

/-! ## Section 2: The walks over comments -/

section
variable {texts : List (List Char)}

/-- Every line that the walk upwards passes is inside of a comment. -/
theorem crosses_of_chainTop_le {fuel top line : Nat}
    (h : ∀ j, top ≤ j → j ≤ line → crosses g false texts (j + 1) = true) :
    ∀ j, chainTop (enclosing g texts) fuel top ≤ j → j ≤ line →
      crosses g false texts (j + 1) = true := by
  induction fuel generalizing top with
  | zero => exact h
  | succ fuel ih =>
    unfold chainTop
    split
    · exact h
    · next hpos =>
      split
      · next r hr =>
        split
        · exact h
        · next hreach =>
          -- the comment reaches line `top` from above
          apply ih
          intro j hj hle
          by_cases hbelow : top ≤ j
          · exact h j hbelow hle
          · exact crosses_of_opener_le hr (by omega) hj (by omega)
      · exact h

/-- Every line that the walk downwards passes is inside of a comment. -/
theorem crosses_of_lt_chainBottom (fuel bottom : Nat) :
    ∀ j, bottom ≤ j → j < chainBottom (enclosing g texts) fuel bottom →
      crosses g false texts (j + 1) = true := by
  induction fuel generalizing bottom with
  | zero =>
    intro j hj hlt
    unfold chainBottom at hlt
    omega
  | succ fuel ih =>
    intro j hj hlt
    unfold chainBottom at hlt
    split at hlt
    · next r hr =>
      split at hlt
      · next hmore =>
        -- the comment goes on to the line where the walk goes on
        by_cases hbefore : j < r.closesAt
        · exact crosses_of_lt_closesAt hr hj hbefore
        · exact ih _ j (by omega) hlt
      · omega
    · omega

/-- A comment around a line that does not close there goes on below. -/
theorem exists_of_startCollision? {line o : Nat}
    (h : startCollision? (enclosing g texts) line = some o) :
    ∃ r, enclosing g texts line = some r ∧ line < r.closesAt ∧
      o = chainTop (enclosing g texts) r.opensAt r.opensAt := by
  obtain ⟨r, hr, hif⟩ := Option.bind_eq_some_iff.1 h
  have hle := (enclosing_bounds hr).2.1
  split at hif
  · exact absurd hif (by simp)
  · exact ⟨r, hr, by omega, (Option.some.inj hif).symm⟩

/-- If the start tag collides, the walk upwards ends at the first line from which on all
    lines are inside of comments. -/
theorem startCollision?_isLeast {line o : Nat}
    (h : startCollision? (enclosing g texts) line = some o) :
    IsLeast {k | ∀ j, k ≤ j → j ≤ line → crosses g false texts (j + 1) = true} o := by
  have hspec := startCollision?_spec (g := g) texts line
  rw [h] at hspec
  obtain ⟨hle, hfree⟩ := hspec
  obtain ⟨r, hr, hlt, ho⟩ := exists_of_startCollision? h
  refine ⟨?_, ?_⟩
  · rw [ho]
    apply crosses_of_chainTop_le
    intro j hj hle
    exact crosses_of_opener_le hr hlt hj hle
  · -- nothing crosses into the first line, so the line above it is outside
    intro k hk
    by_contra hno
    obtain ⟨m, rfl⟩ : ∃ m, o = m + 1 := ⟨o - 1, by omega⟩
    have hcross := hk m (by omega) (by omega)
    rw [hfree] at hcross
    exact absurd hcross (by decide)

theorem startCollision?_eq_none_iff {line : Nat} :
    startCollision? (enclosing g texts) line = none ↔ crosses g false texts (line + 1) = false := by
  have hspec := startCollision?_spec (g := g) texts line
  cases h : startCollision? (enclosing g texts) line with
  | none =>
    rw [h] at hspec
    exact ⟨fun _ => hspec, fun _ => rfl⟩
  | some o =>
    obtain ⟨r, hr, hlt, -⟩ := exists_of_startCollision? h
    have hcross := crosses_succ_iff.2 ⟨r, hr, hlt⟩
    simp [hcross]

/-- The walk downwards ends at the first line that is outside of comments. -/
theorem endCollision?_isLeast {line : Nat} (hline : line < texts.length) :
    IsLeast {k | line ≤ k ∧ crosses g false texts (k + 1) = false}
      ((endCollision? (enclosing g texts) texts.length line).getD line) := by
  obtain ⟨hle, -, hfree⟩ := endCollision?_spec (g := g) texts hline
  refine ⟨⟨hle, hfree⟩, ?_⟩
  intro k hk
  obtain ⟨hlow, hout⟩ := hk
  by_contra hno
  have hcross : crosses g false texts (k + 1) = true := by
    cases h : endCollision? (enclosing g texts) texts.length line with
    | none =>
      rw [h, Option.getD_none] at hno
      omega
    | some c =>
      rw [h, Option.getD_some] at hno
      obtain ⟨r, hr, hif⟩ := Option.bind_eq_some_iff.1 h
      split at hif
      · exact absurd hif (by simp)
      · -- line `k` is above the end of the first comment, or passed by the walk
        have hno' := Nat.lt_of_not_le hno
        rw [← Option.some.inj hif] at hno'
        by_cases hbefore : k < r.closesAt
        · exact crosses_of_lt_closesAt hr hlow hbefore
        · exact crosses_of_lt_chainBottom _ _ k (by omega) hno'
  rw [hout] at hcross
  exact absurd hcross (by decide)

theorem isSome_endCollision?_iff (g : Grammar) (texts : List (List Char)) (line : Nat) :
    (endCollision? (enclosing g texts) texts.length line).isSome = true ↔
      crosses g false texts (line + 1) = true := by
  rw [crosses_succ_iff]
  constructor
  · intro h
    obtain ⟨c, hc⟩ := Option.isSome_iff_exists.1 h
    obtain ⟨r, hr, hif⟩ := Option.bind_eq_some_iff.1 hc
    have hle := (enclosing_bounds hr).2.1
    split at hif
    · exact absurd hif (by simp)
    · exact ⟨r, hr, by omega⟩
  · intro h
    obtain ⟨r, hr, hlt⟩ := h
    have hne : r.closesAt ≠ line := by omega
    simp [endCollision?, hr, hne]

end

/-! ## Section 3: The end of a comment -/

namespace Document

variable {d : Document}

/-- Line `i` closes a comment over several lines behind which nothing can be seen, and which
    has something on the line above it. -/
def ClosesAttached (g : Grammar) (d : Document) (i : Nat) : Prop :=
  ∃ o, d.enclosing g i = some ⟨o, i⟩ ∧ 0 < o ∧ o < i ∧ d.isBlank (o - 1) = false ∧
    ∃ text rest, (d.untagged g)[i]? = some text ∧ afterLast? g.closer text = some rest ∧
      allBlank rest = true

theorem onCommentTail_iff {i : Nat} : onCommentTail g d i = true ↔ d.ClosesAttached g i := by
  have hfound : (∃ text rest, (d.untagged g)[i]? = some text ∧
        afterLast? g.closer text = some rest ∧ allBlank rest = true) ↔
      (((d.untagged g)[i]?).bind (afterLast? g.closer)).any allBlank = true := by
    rw [Option.any_eq_true]
    constructor
    · intro hex
      obtain ⟨text, rest, htext, hrest, hblank⟩ := hex
      exact ⟨rest, Option.bind_eq_some_iff.2 ⟨text, htext, hrest⟩, hblank⟩
    · intro hex
      obtain ⟨rest, hbind, hblank⟩ := hex
      obtain ⟨text, htext, hrest⟩ := Option.bind_eq_some_iff.1 hbind
      exact ⟨text, rest, htext, hrest, hblank⟩
  unfold onCommentTail ClosesAttached enclosing
  simp only [hfound]
  cases hr : Region.enclosing g (d.untagged g) i with
  | none => simp
  | some r =>
    obtain ⟨o, c⟩ := r
    simp only [Region.isMultiLine, Bool.and_eq_true, decide_eq_true_eq, beq_iff_eq,
      Bool.not_eq_true', Option.some.injEq, Region.mk.injEq]
    constructor
    · intro h
      obtain ⟨⟨⟨⟨hmulti, rfl⟩, hpos⟩, habove⟩, hrest⟩ := h
      exact ⟨o, ⟨rfl, rfl⟩, hpos, hmulti, habove, hrest⟩
    · intro h
      obtain ⟨o', ⟨rfl, rfl⟩, hpos, hmulti, habove, hrest⟩ := h
      exact ⟨⟨⟨⟨hmulti, rfl⟩, hpos⟩, habove⟩, hrest⟩

/-- Nothing is closed on a blank line. -/
theorem not_closesAttached_of_isBlank {i : Nat} (h : d.isBlank i = true) :
    ¬ d.ClosesAttached g i := by
  intro hattached
  obtain ⟨-, -, -, -, -, text, rest, htext, hrest, -⟩ := hattached
  unfold untagged texts at htext
  rw [List.map_map, List.getElem?_map] at htext
  obtain ⟨l, hl, rfl⟩ := Option.map_eq_some_iff.1 htext
  -- what is left of a blank line without its tags is blank
  have hblank : allBlank (g.untagged l.text) = true := by
    unfold isBlank at h
    rw [hl, Option.all_some] at h
    refine List.all_eq_true.2 fun c hc => ?_
    exact List.all_eq_true.1 h c (Piece.mem_of_mem_untagged_cut hc)
  have hnone := afterLast?_eq_none_iff.2 (Grammar.not_occursIn_closer_of_allBlank (g := g) hblank)
  exact absurd (hnone.symm.trans hrest) (by simp)

end Document

/-! ## Section 4: Sites -/

/-- A site has the nearest lines to the lines `start` to `stop` of a document, counted from
    zero, at whose ends no comment is open. The end tag goes down. The start tag goes up to
    the blank line above the comments, or to a new one, unless it would be read as part of
    a comment above it that its line closes: then it goes to a new line below that. -/
structure Site.Widens (g : Grammar) (d : Document) (start stop : Nat) (s : Site) : Prop where
  stop_eq    : ∃ last, IsLeast {k | stop ≤ k ∧ ¬ d.Inside g k} last ∧
    s.stop = if s.blankInserted then last + 1 else last
  endShifted : s.endShifted = true ↔ d.Inside g stop
  inside     : d.Inside g start →
    ∃ first, IsLeast {k | ∀ j, k ≤ j → j ≤ start → d.Inside g j} first ∧
      (s.startShifted = true ↔ start ≠ first) ∧
      if 0 < first ∧ d.isBlank (first - 1) = true then
        s.document = d ∧ s.start = first - 1 ∧ s.blankInserted = false
      else s.document = d.insertBlank first ∧ s.start = first ∧ s.blankInserted = true
  attached   : ¬ d.Inside g start → d.ClosesAttached g start →
    s.document = d.insertBlank (start + 1) ∧ s.start = start + 1 ∧ s.blankInserted = true ∧
      s.startShifted = true ∧ (stop = start → s.stop = s.start)
  outside    : ¬ d.Inside g start → ¬ d.ClosesAttached g start →
    s.document = d ∧ s.start = start ∧ s.blankInserted = false ∧ s.startShifted = false

/-- The first line of comments that reach a line without a gap, in terms of the search. -/
theorem Document.isLeast_inside {d : Document} {start o : Nat}
    (h : startCollision? (Region.enclosing g (d.untagged g)) start = some o) :
    IsLeast {k | ∀ j, k ≤ j → j ≤ start → d.Inside g j} o := by
  have hleast := startCollision?_isLeast h
  simpa only [Document.inside_iff] using hleast

/-- The first line outside of comments, in terms of the search. -/
theorem Document.isLeast_not_inside {d : Document} {stop : Nat} (hlt : stop < d.length) :
    IsLeast {k | stop ≤ k ∧ ¬ d.Inside g k}
      ((endCollision? (Region.enclosing g (d.untagged g)) (d.untagged g).length stop).getD stop) := by
  have hlen : stop < (d.untagged g).length := by rwa [Document.length_untagged]
  have hleast := endCollision?_isLeast (g := g) hlen
  simpa only [Document.inside_iff, Bool.not_eq_true] using hleast

namespace Site

variable {d : Document} {start stop : Nat}

/-- A range whose first line is outside of comments. -/
theorem widens_of_outside (hlt : stop < d.length)
    (hstart : startCollision? (Region.enclosing g (d.untagged g)) start = none) :
    (((requested d start stop).clearOfComments g).clearOfTail g).Widens g d start stop := by
  have hout : ¬ d.Inside g start := by
    rw [Document.inside_iff, Bool.not_eq_true]
    exact startCollision?_eq_none_iff.1 hstart
  have hlast := Document.isLeast_not_inside (g := g) hlt
  have hend := isSome_endCollision?_iff g (d.untagged g) stop
  rw [← Document.inside_iff] at hend
  unfold clearOfComments requested
  simp only [hstart]
  generalize (endCollision? (Region.enclosing g (d.untagged g)) (d.untagged g).length stop).getD
    stop = last at *
  unfold clearOfTail
  simp only
  split
  · next htail =>
    -- the start tag goes below the end of the comment, and the end tag moves with it
    rw [Document.onCommentTail_iff] at htail
    refine ⟨⟨last, hlast, rfl⟩, hend, fun h => absurd h hout, fun _ _ => ?_,
      fun _ hno => absurd htail hno⟩
    refine ⟨rfl, rfl, rfl, rfl, ?_⟩
    intro hsame
    have hge : stop ≤ last := hlast.1.1
    have hle : last ≤ start := hlast.2 ⟨by omega, hout⟩
    show last + 1 = start + 1
    omega
  · next htail =>
    rw [Document.onCommentTail_iff] at htail
    exact ⟨⟨last, hlast, rfl⟩, hend, fun h => absurd h hout, fun _ h => absurd h htail,
      fun _ _ => ⟨rfl, rfl, rfl, rfl⟩⟩

/-- A range whose first line is inside of a comment. -/
theorem widens_of_inside (hlt : stop < d.length) {o : Nat} (hlen : o ≤ d.length)
    (hstart : startCollision? (Region.enclosing g (d.untagged g)) start = some o) :
    (((requested d start stop).clearOfComments g).clearOfTail g).Widens g d start stop := by
  have hin : d.Inside g start := by
    obtain ⟨r, hr, hbelow, -⟩ := exists_of_startCollision? hstart
    exact ⟨r, hr, hbelow⟩
  have hfirst := Document.isLeast_inside hstart
  have hlast := Document.isLeast_not_inside (g := g) hlt
  have hend := isSome_endCollision?_iff g (d.untagged g) stop
  rw [← Document.inside_iff] at hend
  have hshift : (start != o) = true ↔ start ≠ o := bne_iff_ne
  unfold clearOfComments requested
  simp only [hstart]
  generalize (endCollision? (Region.enclosing g (d.untagged g)) (d.untagged g).length stop).getD
    stop = last at *
  split
  · next hblank =>
    -- the line above the comments is blank, so it closes none
    have hno : onCommentTail g d (o - 1) = false := by
      rw [← Bool.not_eq_true, Document.onCommentTail_iff]
      exact Document.not_closesAttached_of_isBlank hblank.2
    unfold clearOfTail
    simp only [hno, Bool.false_eq_true, if_false]
    refine ⟨⟨last, hlast, rfl⟩, hend, fun _ => ⟨o, hfirst, hshift, ?_⟩, fun h => absurd hin h,
      fun h => absurd hin h⟩
    rw [if_pos hblank]
    exact ⟨rfl, rfl, rfl⟩
  · next hblank =>
    -- the new line is empty, so it closes none
    unfold clearOfTail
    simp only [onCommentTail_insertBlank hlen, Bool.false_eq_true, if_false]
    refine ⟨⟨last, hlast, rfl⟩, hend, fun _ => ⟨o, hfirst, hshift, ?_⟩, fun h => absurd hin h,
      fun h => absurd hin h⟩
    rw [if_neg hblank]
    exact ⟨rfl, rfl, rfl⟩

end Site

namespace Document

variable {d : Document}

/-- Every range of lines of a document is moved to the nearest lines outside of comments. -/
theorem site_widens {start stop : Nat} (hle : start ≤ stop) (hlt : stop < d.length) :
    (d.site g (start + 1) (stop + 1)).Widens g d start stop := by
  have hspec := startCollision?_spec (g := g) (d.untagged g) start
  unfold site
  rw [Nat.add_sub_cancel, Nat.add_sub_cancel]
  cases hstart : startCollision? (Region.enclosing g (d.untagged g)) start with
  | none => exact Site.widens_of_outside hlt hstart
  | some o =>
    rw [hstart] at hspec
    exact Site.widens_of_inside hlt (by omega) hstart

/-- An accepted request is granted: the tags are written at the ends of the nearest lines
    outside of comments, which the placement reports. -/
theorem addTags_widens {identifier : List Char} (hid : g.identifierFault? identifier = none)
    {start stop : Nat} (hle : start ≤ stop) (hlt : stop < d.length) :
    ∃ s : Site, s.Widens g d start stop ∧
      d.addTags g identifier (start + 1) (stop + 1) = .ok (s.write g identifier,
        { requestedStart := start + 1
          requestedEnd   := stop + 1
          startLine      := s.start + 1
          endLine        := s.stop + 1
          blankInserted  := s.blankInserted
          startShifted   := s.startShifted
          endShifted     := s.endShifted }) := by
  refine ⟨d.site g (start + 1) (stop + 1), site_widens hle hlt, ?_⟩
  have hrange : ¬ (start + 1 = 0 ∨ stop + 1 < start + 1 ∨ d.length < stop + 1) := by omega
  unfold addTags
  rw [hid]
  exact if_neg hrange

/-- The last line of a comment on which another one begins, below a line of code: both tags
    are moved. -/
theorem addTags_widens_chained :
    let d := parse "f();\n/* a\n*/ g(); /* b\n*/ h();\n".toList
    Grammar.standard.identifierFault? ['t'] = none ∧ 2 < d.length ∧
      ∃ s : Site, s.Widens .standard d 2 2 ∧ s.start = 1 ∧ s.stop = 4 ∧
        (s.write .standard ['t']).render =
          "f();\n/*-?|t|~*/\n/* a\n*/ g(); /* b\n*/ h();/*-|t|?*/\n".toList := by
  intro d
  have hid : Grammar.standard.identifierFault? ['t'] = none := by decide
  obtain ⟨s, hs, hadd⟩ := addTags_widens (d := d) hid (Nat.le_refl 2) (by decide)
  have hrun : (d.addTags .standard ['t'] 3 3).map (fun r => (r.1.render, r.2)) =
      .ok ("f();\n/*-?|t|~*/\n/* a\n*/ g(); /* b\n*/ h();/*-|t|?*/\n".toList,
        ⟨3, 3, 2, 5, true, true, true⟩) := by decide +kernel
  rw [hadd] at hrun
  obtain ⟨hrender, hplace⟩ := Prod.mk.inj (Except.ok.inj hrun)
  injection hplace with _ _ hstart hstop
  exact ⟨hid, by decide, s, hs, Nat.succ.inj hstart, Nat.succ.inj hstop, hrender⟩

end Document

end Marginalia
