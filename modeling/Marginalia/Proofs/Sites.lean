import Mathlib.Data.List.InsertIdx
import Marginalia.Placement
import Marginalia.Proofs.OpenComments

/-! # Where tags are placed

    Moving a range ends at lines at whose ends no comment is open:

    * **`crosses_chainTop`, `crosses_chainBottom`**: the walks over comments that follow
      each other end outside of them.
    * **`Site.Fits`**: what is needed of a place for tags.
    * **`Document.site_fits`**: every range of a document is moved to such a place. -/

namespace Marginalia

open Text Region

variable {g : Grammar}

/-! ## Section 1: The walks over comments -/

/-- The walk upwards does not go down, and stops below a line whose comment, if there is
    one, closes above. -/
theorem chainTop_spec {enclosing : Nat → Option Region}
    (hopen : ∀ i r, enclosing i = some r → r.opensAt ≤ i) {fuel top : Nat} (hfuel : top ≤ fuel) :
    chainTop enclosing fuel top ≤ top ∧
      ∀ j, chainTop enclosing fuel top = j + 1 → ∀ r, enclosing j = some r → r.closesAt ≤ j := by
  induction fuel generalizing top with
  | zero =>
    obtain rfl : top = 0 := by omega
    refine ⟨Nat.le_refl _, ?_⟩
    intro j hj
    simp [chainTop] at hj
  | succ fuel ih =>
    unfold chainTop
    split
    · next hzero =>
      refine ⟨Nat.le_refl _, ?_⟩
      intro j hj
      omega
    · next hpos =>
      split
      · next r hr =>
        split
        · next hlt =>
          refine ⟨Nat.le_refl _, ?_⟩
          intro j hj r' hr'
          obtain rfl : j = top - 1 := by omega
          rw [hr] at hr'
          obtain rfl := Option.some.inj hr'
          omega
        · have hle := hopen _ _ hr
          have hfuel' : r.opensAt ≤ fuel := by omega
          obtain ⟨htop, hstop⟩ := ih hfuel'
          exact ⟨by omega, hstop⟩
      · next hnone =>
        refine ⟨Nat.le_refl _, ?_⟩
        intro j hj r' hr'
        obtain rfl : j = top - 1 := by omega
        rw [hnone] at hr'
        exact absurd hr' (by simp)

/-- The walk downwards does not go up, and stops in the document on a line whose comment
    does not go on below. -/
theorem chainBottom_spec {enclosing : Nat → Option Region} {n : Nat}
    (hclose : ∀ i r, enclosing i = some r → r.closesAt < n) {fuel bottom : Nat}
    (hlt : bottom < n) (hfuel : n ≤ bottom + fuel) :
    bottom ≤ chainBottom enclosing fuel bottom ∧ chainBottom enclosing fuel bottom < n ∧
      ∀ r, enclosing (chainBottom enclosing fuel bottom) = some r →
        r.closesAt ≤ chainBottom enclosing fuel bottom := by
  induction fuel generalizing bottom with
  | zero => omega
  | succ fuel ih =>
    unfold chainBottom
    split
    · next r hr =>
      split
      · next hmore =>
        obtain ⟨hle, hlt', hstop⟩ := ih (hclose _ _ hr) (by omega)
        exact ⟨by omega, hlt', hstop⟩
      · next hdone =>
        refine ⟨Nat.le_refl _, hlt, ?_⟩
        intro r' hr'
        rw [hr] at hr'
        obtain rfl := Option.some.inj hr'
        omega
    · next hnone =>
      refine ⟨Nat.le_refl _, hlt, ?_⟩
      intro r hr
      rw [hnone] at hr
      exact absurd hr (by simp)

/-- Nothing crosses into the line after one whose comment does not go on below. -/
theorem crosses_succ_eq_false {texts : List (List Char)} {i : Nat}
    (h : ∀ r, enclosing g texts i = some r → r.closesAt ≤ i) :
    crosses g false texts (i + 1) = false := by
  rw [← Bool.not_eq_true, crosses_succ_iff]
  intro hex
  obtain ⟨r, hr, hlt⟩ := hex
  have := h r hr
  omega

/-- If the start tag collides, the comments that it is inside of begin on or above its
    line, and nothing crosses into their first line. If not, it is outside. -/
theorem startCollision?_spec (texts : List (List Char)) (line : Nat) :
    match startCollision? (enclosing g texts) line with
    | some o => o ≤ line ∧ crosses g false texts o = false
    | none   => crosses g false texts (line + 1) = false := by
  have hopen : ∀ i r, enclosing g texts i = some r → r.opensAt ≤ i :=
    fun i r hr => (enclosing_bounds hr).1
  unfold startCollision?
  cases hr : enclosing g texts line with
  | none =>
    apply crosses_succ_eq_false
    intro r hr'
    rw [hr] at hr'
    exact absurd hr' (by simp)
  | some r =>
    simp only [Option.bind_eq_bind, Option.bind_some]
    by_cases hc : r.closesAt = line
    · rw [if_pos hc]
      apply crosses_succ_eq_false
      intro r' hr'
      rw [hr] at hr'
      obtain rfl := Option.some.inj hr'
      omega
    · rw [if_neg hc]
      have hle := hopen _ _ hr
      obtain ⟨htop, hstop⟩ := chainTop_spec hopen (Nat.le_refl r.opensAt)
      refine ⟨by omega, ?_⟩
      cases htop' : chainTop (enclosing g texts) r.opensAt r.opensAt with
      | zero =>
        rw [crosses_zero]
        rfl
      | succ j => exact crosses_succ_eq_false (hstop j htop')

/-- If the end tag collides, the comments that it is inside of end on or below its line
    in the document, and nothing crosses into the line after them. If not, it is
    outside. -/
theorem endCollision?_spec (texts : List (List Char)) {line : Nat} (hline : line < texts.length) :
    let stop := (endCollision? (enclosing g texts) texts.length line).getD line
    line ≤ stop ∧ stop < texts.length ∧ crosses g false texts (stop + 1) = false := by
  have hclose : ∀ i r, enclosing g texts i = some r → r.closesAt < texts.length :=
    fun i r hr => (enclosing_bounds hr).2.2
  unfold endCollision?
  cases hr : enclosing g texts line with
  | none =>
    refine ⟨Nat.le_refl _, hline, ?_⟩
    apply crosses_succ_eq_false
    intro r hr'
    exact absurd (hr.symm.trans hr') (by simp)
  | some r =>
    simp only [Option.bind_eq_bind, Option.bind_some]
    have hle := (enclosing_bounds hr).2.1
    by_cases hc : r.closesAt = line
    · rw [if_pos hc]
      refine ⟨Nat.le_refl _, hline, ?_⟩
      apply crosses_succ_eq_false
      intro r' hr'
      obtain rfl := Option.some.inj (hr.symm.trans hr')
      exact Nat.le_of_eq hc
    · rw [if_neg hc]
      have hfuel : texts.length ≤ r.closesAt + texts.length := Nat.le_add_left _ _
      obtain ⟨hbottom, hlt, hstop⟩ := chainBottom_spec hclose (hclose _ _ hr) hfuel
      exact ⟨Nat.le_trans hle hbottom, hlt, crosses_succ_eq_false hstop⟩

/-! ## Section 2: Places for tags -/

namespace Document

@[simp] theorem length_untagged (g : Grammar) (d : Document) :
    (d.untagged g).length = d.length := by
  simp [untagged, texts, length]

theorem untagged_insertBlank (g : Grammar) (d : Document) (i : Nat) :
    (d.insertBlank i).untagged g = (d.untagged g).insertIdx i [] := by
  simp only [untagged, texts, insertBlank, List.map_insertIdx]
  rfl

end Document

namespace Site

/-- The lines of the site are lines of the document, or of the document with one empty
    line for the start tag, and no comment is open at their ends that closes later. -/
structure Fits (g : Grammar) (d : Document) (s : Site) : Prop where
  document  : s.document = if s.blankInserted then d.insertBlank s.start else d
  start_le  : s.blankInserted = true → s.start ≤ d.length
  le        : s.start ≤ s.stop
  lt        : s.stop < d.length + if s.blankInserted then 1 else 0
  startFree : crosses g false (s.document.untagged g) (s.start + 1) = false
  stopFree  : crosses g false (s.document.untagged g) (s.stop + 1) = false

/-- Below the last line is only room for a line that is inserted there. -/
theorem Fits.below {d : Document} {s : Site} (h : s.Fits g d) (hstart : d.length ≤ s.start) :
    s.blankInserted = true ∧ s.start = d.length ∧ s.stop = d.length := by
  have hle := h.le
  have hlt := h.lt
  have hb : s.blankInserted = true := by
    by_contra hno
    rw [if_neg hno] at hlt
    omega
  rw [hb, if_pos rfl] at hlt
  exact ⟨hb, by omega, by omega⟩

/-- Widening a range moves it to where it fits. -/
theorem clearOfComments_fits (g : Grammar) {d : Document} {start stop : Nat}
    (hle : start ≤ stop) (hlt : stop < d.length) :
    ((requested d start stop).clearOfComments g).Fits g d := by
  have hstop : stop < (d.untagged g).length := by
    rw [Document.length_untagged]
    exact hlt
  obtain ⟨hclose, hlast, hfree⟩ := endCollision?_spec (g := g) (d.untagged g) hstop
  have hstart := startCollision?_spec (g := g) (d.untagged g) start
  unfold clearOfComments requested
  simp only
  generalize (endCollision? (enclosing g (d.untagged g)) (d.untagged g).length stop).isSome =
    shifted at *
  generalize (endCollision? (enclosing g (d.untagged g)) (d.untagged g).length stop).getD stop =
    stop' at *
  rw [Document.length_untagged] at hlast
  cases hs : startCollision? (enclosing g (d.untagged g)) start with
  | none =>
    rw [hs] at hstart
    exact ⟨rfl, by simp, by simp only; omega, by simpa using hlast, hstart, hfree⟩
  | some o =>
    rw [hs] at hstart
    obtain ⟨ho, hcross⟩ := hstart
    simp only
    split
    · next hblank =>
      -- the blank line above the comments is used
      obtain ⟨k, rfl⟩ : ∃ k, o = k + 1 := ⟨o - 1, by omega⟩
      exact ⟨rfl, by simp, by simp only; omega, by simpa using hlast, by simpa using hcross, hfree⟩
    · -- a new line is inserted between the comments and what is above them
      have hlen : o ≤ (d.untagged g).length := by
        rw [Document.length_untagged]
        omega
      refine ⟨rfl, ?_, ?_, ?_, ?_, ?_⟩
      · intro _
        show o ≤ d.length
        omega
      · show o ≤ stop' + 1
        omega
      · simpa using hlast
      · simp only [Document.untagged_insertBlank]
        rw [crosses_insertIdx_of_ge _ hlen (Nat.le_refl o)]
        exact hcross
      · simp only [Document.untagged_insertBlank]
        rw [crosses_insertIdx_of_ge _ hlen (by omega)]
        exact hfree

/-- A line that was inserted closes no comment. -/
theorem onCommentTail_insertBlank {d : Document} {i : Nat} (hi : i ≤ d.length) :
    onCommentTail g (d.insertBlank i) i = false := by
  have hlen : i ≤ (d.untagged g).length := by
    rw [Document.length_untagged]
    exact hi
  have htext : ((d.insertBlank i).untagged g)[i]? = some [] := by
    rw [Document.untagged_insertBlank, List.getElem?_insertIdx_self, if_pos hlen]
  have hnone : afterLast? g.closer [] = none :=
    afterLast?_eq_none_iff.2 (Grammar.not_occursIn_closer_nil g)
  unfold onCommentTail
  simp only [htext, Option.bind_some, hnone, Option.any_none, Bool.and_false]
  split <;> rfl

/-- Moving the start tag off the end of a comment keeps a range where it fits. -/
theorem Fits.clearOfTail {d : Document} {s : Site} (h : s.Fits g d) :
    (s.clearOfTail g).Fits g d := by
  unfold Site.clearOfTail
  split
  · next htail =>
    -- the start tag has no line of its own yet, because an empty line closes nothing
    have hno : s.blankInserted = false := by
      by_contra hyes
      rw [Bool.not_eq_false] at hyes
      have hdoc := h.document
      rw [hyes, if_pos rfl] at hdoc
      rw [hdoc, onCommentTail_insertBlank (h.start_le hyes)] at htail
      exact absurd htail (by decide)
    have hdoc : s.document = d := by
      have := h.document
      rwa [hno] at this
    have hlt : s.stop < d.length := by
      have := h.lt
      rwa [hno] at this
    have hle := h.le
    have hlen : s.start + 1 ≤ (d.untagged g).length := by
      rw [Document.length_untagged]
      omega
    have hstart := h.startFree
    have hstop := h.stopFree
    rw [hdoc] at hstart hstop
    refine ⟨?_, ?_, ?_, ?_, ?_, ?_⟩
    · simp [hdoc]
    · intro _
      show s.start + 1 ≤ d.length
      omega
    · show s.start + 1 ≤ s.stop + 1
      omega
    · simpa using hlt
    · simp only [hdoc, Document.untagged_insertBlank]
      rw [crosses_insertIdx_of_ge _ hlen (Nat.le_refl _)]
      exact hstart
    · simp only [hdoc, Document.untagged_insertBlank]
      rw [crosses_insertIdx_of_ge _ hlen (by omega)]
      exact hstop
  · exact h

end Site

/-- No line is inserted above the only line of a document. -/
theorem Document.pos_of_blankInserted_site (g : Grammar) {d : Document} {start stop : Nat}
    (h : (d.site g start stop).blankInserted = true) :
    0 < (d.site g start stop).start ∨ 1 < d.length := by
  by_cases hcollide : startCollision? (Region.enclosing g (d.untagged g)) (start - 1) = none
  · -- the line was inserted below the end of a comment
    have hno : ((Site.requested d (start - 1) (stop - 1)).clearOfComments g).blankInserted =
        false := by
      simp only [Site.clearOfComments, Site.requested, hcollide]
    unfold Document.site Site.clearOfTail at h ⊢
    split at h
    · exact .inl (by simp [*])
    · exact absurd (hno.symm.trans h) (by decide)
  · -- a comment over several lines was in the way
    right
    obtain ⟨r, hr⟩ : ∃ r, Region.enclosing g (d.untagged g) (start - 1) = some r := by
      apply Option.ne_none_iff_exists'.1
      intro hnone
      simp [startCollision?, hnone] at hcollide
    have hbounds := enclosing_bounds hr
    rw [length_untagged] at hbounds
    have hne : r.closesAt ≠ start - 1 := by
      intro heq
      simp [startCollision?, hr, heq] at hcollide
    omega

/-- A range of lines of a document is moved to where it fits. -/
theorem Document.site_fits (g : Grammar) {d : Document} {start stop : Nat} (hpos : start ≠ 0)
    (hle : start ≤ stop) (hlen : stop ≤ d.length) : (d.site g start stop).Fits g d :=
  (Site.clearOfComments_fits g (by omega) (by omega)).clearOfTail

end Marginalia
