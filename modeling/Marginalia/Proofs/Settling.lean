import Marginalia.Proofs.Insertion
import Marginalia.Proofs.Widening

/-! # Places where tags stay

    A range is moved once. Whoever asks for the lines on which its tags were written gets
    just these lines: the search for comments does not see the tags, and the lines above the
    start tag, which decide whether it belongs to a comment, are as blank as they were.

    * **`Document.Rests`**: nothing moves tags off the lines that were asked for.
    * **`Document.Rests.site_eq`**: then they are written there.
    * **`Document.rests_site`**: every range is moved to lines like that.
    * **`Document.rests_write`**: and writing tags there leaves them so.
    * **`Document.addTags_placement`**: the lines of a placement are placed where they are. -/

namespace Marginalia

open Text Region

variable {g : Grammar}

/-! ## Section 1: Lines that are not moved -/

namespace Document

variable {d d' : Document} {start stop : Nat}

/-- Neither end of the lines `start` to `stop`, counted from zero, is inside of a comment,
    and the first of them does not close one to which a tag would seem to belong. -/
structure Rests (g : Grammar) (d : Document) (start stop : Nat) : Prop where
  startOutside : ¬ d.Inside g start
  stopOutside  : ¬ d.Inside g stop
  unattached   : ¬ d.ClosesAttached g start

/-- Where nothing moves tags, they are written where they were asked for. -/
theorem Rests.site_eq (h : d.Rests g start stop) :
    d.site g (start + 1) (stop + 1) = .requested d start stop := by
  have hstart : startCollision? (Region.enclosing g (d.untagged g)) start = none := by
    rw [startCollision?_eq_none_iff, ← Bool.not_eq_true, ← inside_iff]
    exact h.startOutside
  have hstop : endCollision? (Region.enclosing g (d.untagged g)) (d.untagged g).length stop =
      none := by
    rw [← Option.not_isSome_iff_eq_none, isSome_endCollision?_iff, ← inside_iff]
    exact h.stopOutside
  have htail : onCommentTail g d start = false := by
    rw [← Bool.not_eq_true, onCommentTail_iff]
    exact h.unattached
  -- first the range is moved out of comments, and then off the end of one
  have hkept : (Site.requested d start stop).clearOfComments g = .requested d start stop := by
    unfold Site.clearOfComments Site.requested
    simp only [hstart, hstop, Option.getD_none, Option.isSome_none]
  unfold site
  rw [Nat.add_sub_cancel, Nat.add_sub_cancel, hkept]
  unfold Site.clearOfTail Site.requested
  simp only [htail, Bool.false_eq_true, if_false]

/-- What moves tags is seen in the lines without their tags, and in the blank lines above the
    first of them. -/
theorem Rests.congr (h : d.Rests g start stop) (huntagged : d'.untagged g = d.untagged g)
    (hblank : ∀ i < start, d'.isBlank i = d.isBlank i) : d'.Rests g start stop := by
  have hinside : ∀ i, d'.Inside g i ↔ d.Inside g i := by
    intro i
    rw [inside_iff, inside_iff, huntagged]
  refine ⟨fun hin => h.startOutside ((hinside _).1 hin),
    fun hin => h.stopOutside ((hinside _).1 hin), ?_⟩
  intro hattached
  obtain ⟨o, hr, hpos, hlt, habove, htext⟩ := hattached
  apply h.unattached
  unfold ClosesAttached enclosing at *
  rw [huntagged] at hr htext
  rw [hblank _ (by omega)] at habove
  exact ⟨o, hr, hpos, hlt, habove, htext⟩

end Document

/-! ## Section 2: Lines that were found -/

namespace Site

variable {d : Document} {s : Site} {identifier : List Char}

/-- A start tag that was moved off the end of a comment is not moved again. -/
theorem Fits.not_onCommentTail_clearOfTail (h : s.Fits g d) :
    onCommentTail g (s.clearOfTail g).document (s.clearOfTail g).start = false := by
  unfold Site.clearOfTail
  split
  · have hlt := Nat.lt_of_le_of_lt h.le h.stop_lt_length
    exact onCommentTail_insertBlank hlt
  · next htail => simpa using htail

/-- Tags are not seen by the search for comments. -/
theorem Fits.untagged_write (hg : g.Unmarked) (hs : s.Fits g d) {ns : List (Annotated g)}
    (hd : d.Shows ns) (hid : g.identifierFault? identifier = none) :
    (s.write g identifier).untagged g = s.document.untagged g := by
  rw [hs.write_eq hd hid, hs.document_eq hd, (Document.shows_withLines d _).untagged hg,
    (Document.shows_withLines d _).untagged hg]
  unfold placed
  split
  · exact Annotated.map_own_modify _ _ _
  · rw [Annotated.map_own_modify, Annotated.map_own_modify]

/-- The lines above the start tag are left as they are. -/
theorem isBlank_write_of_lt (hle : s.start ≤ s.stop) {i : Nat} (hi : i < s.start) :
    (s.write g identifier).isBlank i = s.document.isBlank i := by
  have hstart : s.start ≠ i := by omega
  have hstop : s.stop ≠ i := by omega
  unfold write
  simp only
  split <;> simp [Document.isBlank, Document.appendTo, hstart, hstop]

end Site

namespace Document

variable {d d' : Document} {start stop : Nat} {identifier : List Char}

/-- A range of lines is moved to lines that tags are not moved off. -/
theorem rests_site (g : Grammar) {d : Document} (hpos : start ≠ 0) (hle : start ≤ stop)
    (hlen : stop ≤ d.length) :
    (d.site g start stop).document.Rests g (d.site g start stop).start
      (d.site g start stop).stop := by
  have hfits : (d.site g start stop).Fits g d := site_fits g hpos hle hlen
  have htail : onCommentTail g (d.site g start stop).document (d.site g start stop).start =
      false :=
    (Site.clearOfComments_fits g (by omega) (by omega)).not_onCommentTail_clearOfTail
  refine ⟨?_, ?_, ?_⟩
  · rw [inside_iff, hfits.startFree]
    decide
  · rw [inside_iff, hfits.stopFree]
    decide
  · rw [← onCommentTail_iff, htail]
    decide

/-- Tags that are written on such lines leave them so. -/
theorem rests_write (hg : g.Unmarked) {s : Site} (hs : s.Fits g d) {ns : List (Annotated g)}
    (hd : d.Shows ns) (hid : g.identifierFault? identifier = none)
    (h : s.document.Rests g s.start s.stop) :
    (s.write g identifier).Rests g s.start s.stop :=
  h.congr (hs.untagged_write hg hd hid) fun _ hi => Site.isBlank_write_of_lt hs.le hi

/-! ## Section 3: Placements -/

/-- A request for the lines of a placement is granted there: the tags of any accepted
    identifier are written on just these lines of the new document. -/
theorem addTags_placement (hg : g.Unmarked) (hd : ∀ l ∈ d.lines, l.IsAnnotated g)
    {p : Placement} (h : d.addTags g identifier start stop = .ok (d', p)) {other : List Char}
    (hother : g.identifierFault? other = none) :
    d'.addTags g other p.startLine p.endLine =
      .ok ((Site.requested d' (p.startLine - 1) (p.endLine - 1)).write g other,
        { requestedStart := p.startLine
          requestedEnd   := p.endLine
          startLine      := p.startLine
          endLine        := p.endLine
          blankInserted  := false
          startShifted   := false
          endShifted     := false }) := by
  obtain ⟨ns, hns⟩ := exists_shows hd
  obtain ⟨hid, hpos, hle, hlen, hwrite, hplace⟩ := addTags_eq_ok h
  have hfits : (d.site g start stop).Fits g d := site_fits g (by omega) hle hlen
  have hrests := rests_write hg hfits hns hid (rests_site g (by omega) hle hlen)
  have hlength := hfits.length_write identifier
  -- how the lines were found does not matter any more
  generalize d.site g start stop = s at *
  subst hwrite hplace
  have horder := hfits.le
  have hlast := hfits.lt
  have hrange : ¬ (s.start + 1 = 0 ∨ s.stop + 1 < s.start + 1 ∨
      (s.write g identifier).length < s.stop + 1) := by omega
  unfold addTags
  rw [hother]
  simp only [if_neg hrange, hrests.site_eq, Nat.add_sub_cancel]
  rfl

/-- The first tags go around two comments, the start tag on a new line. More tags for these
    lines stand behind them. -/
theorem addTags_placement_around_comments :
    let d := parse "f(); /*-?|y|?*/
/* a
*/ g(); /* b
*/ h();
".toList
    ∃ d' p, d.addTags .standard ['t'] 3 3 = .ok (d', p) ∧ p = ⟨3, 3, 2, 5, true, true, true⟩ ∧
      (d'.addTags .standard ['u'] 2 5).map Prod.snd = .ok ⟨2, 5, 2, 5, false, false, false⟩ := by
  have hd : ∀ l ∈ (parse "f(); /*-?|y|?*/
/* a
*/ g(); /* b
*/ h();
".toList).lines,
      l.IsAnnotated .standard := by
    intro l hl
    rcases List.mem_cons.1 hl with rfl | hl
    · exact ⟨"f(); ".toList, [⟨['y'], .single, false⟩], by decide, by decide, by decide⟩
    · exact ⟨l.text, [], by revert l; decide, by simp, by simp⟩
  have hadd : (parse "f(); /*-?|y|?*/
/* a
*/ g(); /* b
*/ h();
".toList).addTags .standard
      ['t'] 3 3 = .ok (_, ⟨3, 3, 2, 5, true, true, true⟩) := rfl
  refine ⟨_, _, hadd, rfl, ?_⟩
  rw [addTags_placement (by decide) hd hadd (by decide)]
  rfl

end Document

end Marginalia
