import Mathlib.Data.List.InsertIdx
import Marginalia.Proofs.Annotated
import Marginalia.Proofs.Sites

/-! # Adding tags, edit by edit

    What adding tags does to annotated lines is made up of two kinds of edits: a tag that
    asks for nothing is put on a line that is there, or a new line is inserted with a tag
    that asks to remove it.

    * **`Edited`**: annotated lines after any number of such edits, with the numbers of
      tags and lines that were written.
    * **`Site.placed`**, **`Document.addTags_placed`**: the annotated lines with the tags
      that are written at a site.
    * **`Document.addTags_edited`**: adding tags edits the lines of a document as often as
      the placement says. -/

namespace Marginalia

open Text Region

/-- How many tags were written. -/
def Placement.tagCount (p : Placement) : Nat :=
  if p.isSingleLine then 1 else 2

/-- How many lines were inserted. -/
def Placement.blankCount (p : Placement) : Nat :=
  if p.blankInserted then 1 else 0

/-! ## Section 1: Edits -/

/-- The lines `ns` after some edits, with tags that satisfy `allowed`. The two numbers
    count the tags and the lines that were written. -/
inductive Edited {g : Grammar} (allowed : Tag → Prop) (ns : List (Annotated g)) :
    Nat → Nat → List (Annotated g) → Prop where
  | refl : Edited allowed ns 0 0 ns
  /-- A tag on a line at whose end no comment is open that closes later. -/
  | tag {tags blanks : Nat} {ms : List (Annotated g)} (before : Edited allowed ns tags blanks ms)
      {j : Nat} {t : Tag} (named : g.identifierFault? t.identifier = none) (allow : allowed t)
      (plain : t.cleanup = false) (lt : j < ms.length)
      (free : crosses g false (ms.map Annotated.own) (j + 1) = false) :
      Edited allowed ns (tags + 1) blanks (ms.modify j fun n => n.annotate t named)
  /-- A new line with a tag, where no comment is open that closes later. -/
  | line {tags blanks : Nat} {ms : List (Annotated g)} (before : Edited allowed ns tags blanks ms)
      {k : Nat} {t : Tag} (ending : LineEnding) (named : g.identifierFault? t.identifier = none)
      (allow : allowed t) (cleanup : t.cleanup = true) (le : k ≤ ms.length)
      (free : crosses g false (ms.map Annotated.own) k = false) :
      Edited allowed ns (tags + 1) (blanks + 1)
        (ms.insertIdx k ((Annotated.blank g ending).annotate t named))

namespace Edited

variable {g : Grammar} {allowed allowed' : Tag → Prop} {ns ms ls : List (Annotated g)}
  {tags blanks tags' blanks' : Nat}

theorem mono (h : Edited allowed ns tags blanks ms) (himp : ∀ t, allowed t → allowed' t) :
    Edited allowed' ns tags blanks ms := by
  induction h with
  | refl => exact .refl
  | tag _ named allow plain lt free ih => exact .tag ih named (himp _ allow) plain lt free
  | line _ ending named allow cleanup le free ih =>
    exact .line ih ending named (himp _ allow) cleanup le free

theorem trans (h : Edited allowed ns tags blanks ms)
    (h' : Edited allowed ms tags' blanks' ls) :
    Edited allowed ns (tags + tags') (blanks + blanks') ls := by
  induction h' with
  | refl => exact h
  | tag _ named allow plain lt free ih => exact .tag ih named allow plain lt free
  | line _ ending named allow cleanup le free ih =>
    exact .line ih ending named allow cleanup le free

end Edited

/-! ## Section 2: The edits of a document -/

/-- Changing an element and then all is changing all and then the element. -/
theorem modify_map_of_comm {α β : Type*} {φ : α → β} {f : α → α} {f' : β → β}
    (h : ∀ a, f' (φ a) = φ (f a)) (l : List α) (i : Nat) :
    (l.map φ).modify i f' = (l.modify i f).map φ := by
  induction l generalizing i with
  | nil => simp
  | cons a l ih =>
    cases i with
    | zero => simp [h]
    | succ i => simp [ih]

theorem modify_insertIdx_self {α : Type*} (f : α → α) (l : List α) (i : Nat) (a : α) :
    (l.insertIdx i a).modify i f = l.insertIdx i (f a) := by
  induction l generalizing i with
  | nil => cases i <;> simp
  | cons b l ih =>
    cases i with
    | zero => simp
    | succ i => simp [ih]

/-- An element is changed in one of two lists. -/
theorem modify_append {α : Type*} (f : α → α) (l m : List α) (i : Nat) :
    (l ++ m).modify i f =
      if i < l.length then l.modify i f ++ m else l ++ m.modify (i - l.length) f := by
  induction l generalizing i with
  | nil => simp
  | cons a l ih =>
    cases i with
    | zero => simp
    | succ i =>
      rw [List.cons_append, List.modify_succ_cons, ih, List.modify_succ_cons, List.length_cons,
        Nat.add_sub_add_right]
      by_cases hi : i < l.length
      · rw [if_pos hi, if_pos (Nat.succ_lt_succ hi), List.cons_append]
      · rw [if_neg hi, if_neg fun h => hi (Nat.lt_of_succ_lt_succ h), List.cons_append]

/-- Inserting an element into the first of two lists leaves the second as it is. -/
theorem insertIdx_append_of_le {α : Type*} {l : List α} {i : Nat} (hi : i ≤ l.length) (m : List α)
    (b : α) : (l ++ m).insertIdx i b = l.insertIdx i b ++ m := by
  induction l generalizing i with
  | nil =>
    obtain rfl : i = 0 := by simpa using hi
    rfl
  | cons c l ih =>
    cases i with
    | zero => rfl
    | succ i => simp [ih (by simpa using hi)]

namespace Annotated

variable {g : Grammar}

/-- Tags do not change what the lines themselves say. -/
@[simp] theorem map_own_modify (ns : List (Annotated g)) (j : Nat) {t : Tag}
    (ht : g.identifierFault? t.identifier = none) :
    (ns.modify j fun n => n.annotate t ht).map own = ns.map own := by
  have hcomm : ∀ n : Annotated g, id n.own = (n.annotate t ht).own := fun _ => rfl
  rw [← modify_map_of_comm hcomm, List.modify_id]

@[simp] theorem map_own_insertIdx (ns : List (Annotated g)) (k : Nat) {n : Annotated g}
    (hn : n.own = []) : (ns.insertIdx k n).map own = (ns.map own).insertIdx k [] := by
  rw [List.map_insertIdx, hn]

end Annotated

namespace Document

variable {g : Grammar}

theorem appendTo_withLines (d : Document) (ns : List (Annotated g)) (i : Nat) {t : Tag}
    (ht : g.identifierFault? t.identifier = none) :
    (d.withLines ns).appendTo i (t.render g) =
      d.withLines (ns.modify i fun n => n.annotate t ht) := by
  have hlines : (ns.map Annotated.line).modify i
        (fun l => { l with text := l.text ++ t.render g }) =
      (ns.modify i fun n => n.annotate t ht).map Annotated.line :=
    modify_map_of_comm (fun n => (n.line_annotate ht).symm) ns i
  unfold appendTo withLines
  simp only [hlines]

theorem insertBlank_withLines (d : Document) (ns : List (Annotated g)) (i : Nat) :
    (d.withLines ns).insertBlank i =
      d.withLines (ns.insertIdx i (.blank g ((d.withLines ns).endingAt i))) := by
  unfold insertBlank
  simp only [withLines, List.map_insertIdx]
  rfl

end Document

namespace Site

variable {g : Grammar} {identifier : List Char}

/-- The annotated lines of a document, with an empty line for the start tag if the site
    has one. -/
def opened (s : Site) (ending : LineEnding) (ns : List (Annotated g)) : List (Annotated g) :=
  if s.blankInserted then ns.insertIdx s.start (.blank g ending) else ns

/-- The annotated lines of a document with the tags that are written at a site. -/
def placed (s : Site) (ending : LineEnding) (hid : g.identifierFault? identifier = none)
    (ns : List (Annotated g)) : List (Annotated g) :=
  if s.start = s.stop then
    (s.opened ending ns).modify s.start fun n =>
      n.annotate ⟨identifier, .single, s.blankInserted⟩ hid
  else
    ((s.opened ending ns).modify s.stop fun n =>
      n.annotate ⟨identifier, .finish, false⟩ hid).modify s.start fun n =>
        n.annotate ⟨identifier, .start, s.blankInserted⟩ hid

/-- The document of a site has the annotated lines, with an empty one for the start tag if
    the site has one. -/
theorem Fits.document_eq {d : Document} {s : Site} (hs : s.Fits g d) {ns : List (Annotated g)}
    (hd : d.Shows ns) : s.document = d.withLines (s.opened (d.endingAt s.start) ns) := by
  rw [hs.document]
  unfold opened
  split
  · have hinsert := Document.insertBlank_withLines d ns s.start
    rw [hd.withLines_eq] at hinsert
    exact hinsert
  · exact hd.withLines_eq.symm

/-- Writing tags at a site puts them on the annotated lines. -/
theorem Fits.write_eq {d : Document} {s : Site} (hs : s.Fits g d) {ns : List (Annotated g)}
    (hd : d.Shows ns) (hid : g.identifierFault? identifier = none) :
    s.write g identifier = d.withLines (s.placed (d.endingAt s.start) hid ns) := by
  unfold write placed
  rw [hs.document_eq hd]
  by_cases heq : s.start = s.stop
  · simp only [if_pos heq]
    exact Document.appendTo_withLines d _ _ hid
  · -- the end tag is written first, and the start tag after it
    simp only [if_neg heq]
    rw [Document.appendTo_withLines d _ s.stop hid]
    exact Document.appendTo_withLines d _ _ hid

/-- Tags on lines that are there are edits. -/
theorem Fits.placed_edited_of_not_inserted (hg : g.Unmarked) {d : Document}
    {ns : List (Annotated g)} (hd : d.Shows ns) {s : Site} (hs : s.Fits g d)
    (hb : s.blankInserted = false) (ending : LineEnding)
    (hid : g.identifierFault? identifier = none) :
    Edited (fun t => t.identifier = identifier) ns (if s.start = s.stop then 1 else 2) 0
      (s.placed ending hid ns) := by
  have hlt := hs.lt
  have hle := hs.le
  have hfreeStart := hs.startFree
  have hfreeStop := hs.stopFree
  have hdoc := hs.document
  rw [hb, if_neg (by simp)] at hlt hdoc
  rw [hd.length] at hlt
  rw [hdoc, hd.untagged hg] at hfreeStart hfreeStop
  unfold placed opened
  simp only [hb, Bool.false_eq_true, if_false]
  by_cases heq : s.start = s.stop
  · -- one tag is enough
    rw [if_pos heq, if_pos heq]
    exact .tag .refl hid rfl rfl (by omega) hfreeStart
  · rw [if_neg heq, if_neg heq]
    let ms := ns.modify s.stop fun n => n.annotate ⟨identifier, .finish, false⟩ hid
    have hms : Edited (fun t => t.identifier = identifier) ns 1 0 ms :=
      .tag .refl hid rfl rfl (by omega) hfreeStop
    refine .tag hms hid rfl rfl ?_ ?_
    · rw [List.length_modify]
      omega
    · rw [Annotated.map_own_modify]
      exact hfreeStart

/-- Tags after a line was inserted for the first of them are edits. -/
theorem Fits.placed_edited_of_inserted (hg : g.Unmarked) {d : Document}
    {ns : List (Annotated g)} (hd : d.Shows ns) {s : Site} (hs : s.Fits g d)
    (hb : s.blankInserted = true) (ending : LineEnding)
    (hid : g.identifierFault? identifier = none) :
    Edited (fun t => t.identifier = identifier) ns (if s.start = s.stop then 1 else 2) 1
      (s.placed ending hid ns) := by
  have hlt := hs.lt
  have hle := hs.le
  have hk := hs.start_le hb
  have hfreeStart := hs.startFree
  have hfreeStop := hs.stopFree
  have hdoc := hs.document
  rw [hb, if_pos rfl] at hlt hdoc
  rw [hd.length] at hlt hk
  rw [hdoc, Document.untagged_insertBlank, hd.untagged hg] at hfreeStart hfreeStop
  -- below the empty line is what was below the line above it
  rw [crosses_insertIdx_of_ge _ (by simpa using hk) (Nat.le_refl _)] at hfreeStart
  unfold placed opened
  rw [hb, if_pos rfl]
  by_cases heq : s.start = s.stop
  · rw [if_pos heq, if_pos heq, modify_insertIdx_self]
    exact .line .refl ending hid rfl rfl hk hfreeStart
  · -- the end tag is written first, which makes no difference
    rw [if_neg heq, if_neg heq, List.modify_modify_ne _ _ _ (Ne.symm heq), modify_insertIdx_self]
    let ms := ns.insertIdx s.start
      ((Annotated.blank g ending).annotate ⟨identifier, .start, true⟩ hid)
    have hms : Edited (fun t => t.identifier = identifier) ns 1 1 ms :=
      .line .refl ending hid rfl rfl hk hfreeStart
    refine .tag hms hid rfl rfl ?_ ?_
    · rw [List.length_insertIdx_of_le_length hk]
      omega
    · rw [Annotated.map_own_insertIdx _ _ (Annotated.own_annotate _ _)]
      exact hfreeStop

end Site

namespace Document

variable {g : Grammar}

/-- What is known of a request that succeeds. -/
theorem addTags_eq_ok {d d' : Document} {identifier : List Char} {start stop : Nat}
    {p : Placement} (h : d.addTags g identifier start stop = .ok (d', p)) :
    g.identifierFault? identifier = none ∧ 0 < start ∧ start ≤ stop ∧ stop ≤ d.length ∧
      d' = (d.site g start stop).write g identifier ∧
      p = { requestedStart := start
            requestedEnd   := stop
            startLine      := (d.site g start stop).start + 1
            endLine        := (d.site g start stop).stop + 1
            blankInserted  := (d.site g start stop).blankInserted
            startShifted   := (d.site g start stop).startShifted
            endShifted     := (d.site g start stop).endShifted } := by
  unfold addTags at h
  split at h
  · exact absurd h (by simp)
  · next hid =>
    split at h
    · exact absurd h (by simp)
    · next hrange =>
      obtain ⟨hdoc, hplace⟩ := Prod.mk.inj (Except.ok.inj h)
      exact ⟨hid, by omega, by omega, by omega, hdoc.symm, hplace.symm⟩

theorem names_of_addTags {d d' : Document} {identifier : List Char} {start stop : Nat}
    {p : Placement} (h : d.addTags g identifier start stop = .ok (d', p)) :
    g.Names identifier :=
  Grammar.names_of_identifierFault?_eq_none (addTags_eq_ok h).1

/-- Adding tags puts them where the placement says, and edits the lines of a document as
    often as it says. -/
theorem addTags_placed (hg : g.Unmarked) {d d' : Document} {ns : List (Annotated g)}
    (hd : d.Shows ns) {identifier : List Char} {start stop : Nat} {p : Placement}
    (h : d.addTags g identifier start stop = .ok (d', p)) :
    ∃ (s : Site) (hid : g.identifierFault? identifier = none), s.Fits g d ∧
      p.startLine = s.start + 1 ∧ p.endLine = s.stop + 1 ∧ p.blankInserted = s.blankInserted ∧
      d' = d.withLines (s.placed (d.endingAt s.start) hid ns) ∧
      Edited (fun t => t.identifier = identifier) ns p.tagCount p.blankCount
        (s.placed (d.endingAt s.start) hid ns) := by
  obtain ⟨hid, hpos, hle, hlen, rfl, rfl⟩ := addTags_eq_ok h
  have hs : (d.site g start stop).Fits g d := site_fits g (by omega) hle hlen
  refine ⟨d.site g start stop, hid, hs, rfl, rfl, rfl, hs.write_eq hd hid, ?_⟩
  unfold Placement.tagCount Placement.blankCount Placement.isSingleLine
  simp only [beq_iff_eq, Nat.add_right_cancel_iff]
  cases hb : (d.site g start stop).blankInserted with
  | false => exact hs.placed_edited_of_not_inserted hg hd hb _ hid
  | true => exact hs.placed_edited_of_inserted hg hd hb _ hid

/-- Adding tags edits the lines of a document as often as the placement says. -/
theorem addTags_edited (hg : g.Unmarked) {d d' : Document} {ns : List (Annotated g)}
    (hd : d.Shows ns) {identifier : List Char} {start stop : Nat} {p : Placement}
    (h : d.addTags g identifier start stop = .ok (d', p)) :
    ∃ ms, d' = d.withLines ms ∧
      Edited (fun t => t.identifier = identifier) ns p.tagCount p.blankCount ms := by
  obtain ⟨s, hid, -, -, -, -, hlines, hedited⟩ := addTags_placed hg hd h
  exact ⟨_, hlines, hedited⟩

end Document

end Marginalia
