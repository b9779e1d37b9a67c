import Marginalia.Proofs.Padding
import Marginalia.Proofs.RoundTrip

/-! # Documents that were written and read again

    What is read back is the document that was written, but for its last line if no
    terminator follows that. Such a line is not written at all if it is empty, and it is
    taken to end like the line above it.

    * **`Document.Mirrors`**: two documents that differ in this way only. They are written
      as the same text, and all edits of lines that both have preserve it.
    * **`Document.mirrors_parse_render`**: every document without an unstable line is
      mirrored by what is read back.
    * **`Document.lines_parse_render`**: when exactly the lines are the same.
    * **`Document.parse_inverse_render`**: reading and writing, either after the other. -/

namespace Marginalia

open Text

namespace Document

variable {g : Grammar} {d d' : Document}

/-! ## Section 1: Mirrored documents -/

/-- The documents differ only in the last line, which no terminator follows: it may have
    another one of its own in `d'`, or may be missing there if it is empty. -/
inductive Mirrors (d d' : Document) : Prop where
  | same (lines : d.lines = d'.lines) (terminated : d.lines ≠ [] → d.terminated = d'.terminated)
  | ending (ls : List Line) (x : List Char) (e e' : LineEnding) (lines : d.lines = ls ++ [⟨x, e⟩])
      (lines' : d'.lines = ls ++ [⟨x, e'⟩]) (terminated : d.terminated = false)
      (terminated' : d'.terminated = false)
  | empty (e : LineEnding) (lines : d.lines = d'.lines ++ [⟨[], e⟩])
      (terminated : d.terminated = false) (terminated' : d'.lines ≠ [] → d'.terminated = true)

/-- The last line is empty, and no terminator follows it. -/
def EndsEmpty (d : Document) : Prop :=
  d.terminated = false ∧ d.texts.getLast? = some []

instance (d : Document) : Decidable d.EndsEmpty :=
  inferInstanceAs (Decidable (_ ∧ _))

theorem endsEmpty_concat {ls : List Line} {x : List Char} {e : LineEnding}
    (hlines : d.lines = ls ++ [⟨x, e⟩]) (hend : d.terminated = false) : d.EndsEmpty ↔ x = [] := by
  simp [EndsEmpty, texts, hlines, hend]

namespace Mirrors

theorem pads (h : d.Mirrors d') : d.Pads d' := by
  cases h with
  | same lines _ => exact pads_of_texts (k := 0) (by simp [texts, lines])
  | ending ls x e e' lines lines' _ _ => exact pads_of_texts (k := 0) (by simp [texts, lines, lines'])
  | empty e lines _ _ => exact pads_of_texts (k := 1) (by simp [texts, lines])

theorem length_eq (h : d.Mirrors d') (hend : ¬ d.EndsEmpty) : d.length = d'.length := by
  cases h with
  | same lines _ => simp [length, lines]
  | ending ls x e e' lines lines' _ _ => simp [length, lines, lines']
  | empty e lines terminated _ => exact absurd ((endsEmpty_concat lines terminated).2 rfl) hend

/-- An empty last line is not read back. -/
theorem exists_empty (h : d.Mirrors d') (hd' : ¬ d'.EndsEmpty) (hend : d.EndsEmpty) :
    ∃ e, d.lines = d'.lines ++ [⟨[], e⟩] := by
  cases h with
  | same lines terminated =>
    have hne : d.lines ≠ [] := by
      intro hnil
      simpa [texts, hnil] using hend.2
    refine absurd ⟨terminated hne ▸ hend.1, ?_⟩ hd'
    rw [texts, ← lines]
    exact hend.2
  | ending ls x e e' lines lines' terminated terminated' =>
    have hx := (endsEmpty_concat lines terminated).1 hend
    exact absurd ((endsEmpty_concat lines' terminated').2 hx) hd'
  | empty e lines _ _ => exact ⟨e, lines⟩

theorem length_eq_succ (h : d.Mirrors d') (hd' : ¬ d'.EndsEmpty) (hend : d.EndsEmpty) :
    d.length = d'.length + 1 := by
  obtain ⟨e, hlines⟩ := h.exists_empty hd' hend
  simp [length, hlines]

/-- The same text is written. -/
theorem render_eq (h : d.Mirrors d') : d.render = d'.render := by
  unfold render
  cases h with
  | same lines terminated =>
    by_cases hne : d.lines = []
    · rw [← lines, hne]
      rfl
    · rw [terminated hne, lines]
  | ending ls x e e' lines lines' terminated terminated' =>
    rw [terminated, terminated', lines, lines', renderLines_false_append, renderLines_false_append]
  | empty e lines terminated terminated' =>
    rw [terminated, lines, renderLines_false_append, List.append_nil]
    by_cases hne : d'.lines = []
    · rw [hne]
      rfl
    · rw [terminated' hne, renderLines_true]

end Mirrors

/-! ## Section 2: Edits of mirrored documents -/

/-- A line that is inserted ends like the line above it, or the first one if there is none
    above it. -/
theorem endingOf_pred {i : Nat} (hpos : 0 < d.length) (hi : i ≤ d.length) :
    d.endingOf (i - 1) = some (d.endingAt i) := by
  obtain ⟨l, hl⟩ : ∃ l, d.lines[i - 1]? = some l :=
    ⟨_, List.getElem?_eq_getElem (show i - 1 < d.lines.length by unfold length at *; omega)⟩
  have hending : d.endingOf (i - 1) = some l.ending := by
    rw [endingOf, hl]
    rfl
  unfold endingAt
  cases i with
  | zero =>
    have hfirst : d.endingOf 0 = some l.ending := hending
    rw [if_pos rfl, hfirst]
    rfl
  | succ i =>
    rw [hending]
    rfl

theorem endingAt_congr {i : Nat} (hpos : 0 < d.length) (hi : i ≤ d.length) (hpos' : 0 < d'.length)
    (hi' : i ≤ d'.length) (h : d.lines[i - 1]? = d'.lines[i - 1]?) :
    d.endingAt i = d'.endingAt i := by
  have hsame : d.endingOf (i - 1) = d'.endingOf (i - 1) := by
    unfold endingOf
    rw [h]
  rw [endingOf_pred hpos hi, endingOf_pred hpos' hi'] at hsame
  exact Option.some.inj hsame

namespace Mirrors

/-- A line that does not take its terminator from the last one is inserted. -/
theorem insertBlank (h : d.Mirrors d') {i : Nat} (hpos : 0 < d'.length) (hi : i ≤ d'.length)
    (hend : d.lines = d'.lines ∨ i < d.length ∧ (0 < i ∨ 1 < d.length)) :
    (d.insertBlank i).Mirrors (d'.insertBlank i) := by
  have hle := h.pads.length_le
  have hcongr := endingAt_congr (i := i) (Nat.lt_of_lt_of_le hpos hle) (Nat.le_trans hi hle) hpos hi
  by_cases hsame : d.lines = d'.lines
  · -- whatever the last line is, it is the same in both
    have hne : d.lines ≠ [] := by
      intro hnil
      rw [hnil] at hsame
      simp [length, ← hsame] at hpos
    have hlines : (d.insertBlank i).lines = (d'.insertBlank i).lines := by
      unfold Document.insertBlank
      rw [hcongr (by rw [hsame]), hsame]
    cases h with
    | same _ terminated => exact .same hlines fun _ => terminated hne
    | ending ls x e e' lines lines' terminated terminated' =>
      exact .same hlines fun _ => terminated.trans terminated'.symm
    | empty e lines _ _ =>
      rw [lines] at hsame
      simp at hsame
  · obtain ⟨hlt, habove⟩ := hend.resolve_left hsame
    unfold Document.insertBlank
    cases h with
    | same lines _ => exact absurd lines hsame
    | ending ls x e e' lines lines' terminated terminated' =>
      have hlen : i ≤ ls.length := by simpa [length, lines, Nat.lt_succ_iff] using hlt
      have hbefore : i - 1 < ls.length := by
        simp only [length, lines, List.length_append, List.length_singleton] at habove
        omega
      have hending := hcongr (by
        rw [lines, lines', List.getElem?_append_left hbefore, List.getElem?_append_left hbefore])
      refine .ending (ls.insertIdx i ⟨[], d.endingAt i⟩) x e e' ?_ ?_ terminated terminated'
      · rw [lines, insertIdx_append_of_le hlen]
      · rw [← hending, lines', insertIdx_append_of_le hlen]
    | empty e lines terminated terminated' =>
      have hlines : d'.lines ≠ [] := by
        intro hnil
        simp [length, hnil] at hpos
      have hbefore : i - 1 < d'.lines.length := by
        unfold length at hpos hi
        omega
      have hending := hcongr (by rw [lines, List.getElem?_append_left hbefore])
      refine .empty e ?_ terminated fun _ => terminated' hlines
      rw [← hending, lines, insertIdx_append_of_le hi]

/-- A text is appended to a line that both documents have. -/
theorem appendTo (h : d.Mirrors d') {i : Nat} (hi : i < d'.length) (text : List Char) :
    (d.appendTo i text).Mirrors (d'.appendTo i text) := by
  have hlines : d'.lines ≠ [] := by
    intro hnil
    simp [length, hnil] at hi
  unfold Document.appendTo
  cases h with
  | same lines terminated => exact .same (by rw [lines]) fun _ => terminated (lines ▸ hlines)
  | ending ls x e e' lines lines' terminated terminated' =>
    rw [lines, lines', modify_append, modify_append]
    split
    · exact .ending _ x e e' rfl rfl terminated terminated'
    · next hge =>
      -- the last line keeps its terminator
      have hlast : i - ls.length = 0 := by
        simp only [length, lines', List.length_append, List.length_singleton] at hi
        omega
      rw [hlast]
      exact .ending ls (x ++ text) e e' rfl rfl terminated terminated'
  | empty e lines terminated terminated' =>
    rw [lines, modify_append, if_pos (show i < d'.lines.length from hi)]
    exact .empty e rfl terminated fun _ => terminated' hlines

end Mirrors

@[simp] theorem length_appendTo (d : Document) (i : Nat) (text : List Char) :
    (d.appendTo i text).length = d.length :=
  List.length_modify ..

end Document

namespace Line

variable {g : Grammar} {sel : Selector} {l : Line}

/-- What becomes of a line depends on its text, and it keeps its terminator. -/
theorem exists_strip (g : Grammar) (sel : Selector) (x : List Char) :
    ∃ (y : Option (List Char)) (n : Nat), ∀ e,
      Line.strip g sel ⟨x, e⟩ = (y.map fun text => ⟨text, e⟩, n) := by
  by_cases hnone : (Piece.sightings (sel.pieces g x)).isEmpty = true
  · exact ⟨some x, 0, fun e => by simp [strip, hnone]⟩
  · by_cases hdrop : ((Piece.sightings (sel.pieces g x)).any Sighting.cleanup &&
        allBlank (Piece.untagged (sel.pieces g x))) = true
    · refine ⟨none, (Piece.sightings (sel.pieces g x)).length, fun e => ?_⟩
      simp only [strip, if_neg hnone, if_pos hdrop, Option.map_none]
    · refine ⟨some (Piece.untagged (sel.pieces g x)), (Piece.sightings (sel.pieces g x)).length,
        fun e => ?_⟩
      simp only [strip, if_neg hnone, if_neg hdrop, Option.map_some]

theorem strip_of_no_sightings (h : Piece.sightings (sel.pieces g l.text) = []) :
    l.strip g sel = (some l, 0) := by
  simp [strip, h]

theorem snd_strip (l : Line) (g : Grammar) (sel : Selector) :
    (l.strip g sel).2 = (Piece.sightings (sel.pieces g l.text)).length := by
  simp only [strip]
  split
  · next hnone => simp [List.isEmpty_iff.1 hnone]
  · split <;> rfl

/-- A line that is left has its own text, or what is left of that. -/
theorem text_of_strip {m : Line} (h : (l.strip g sel).1 = some m) :
    m.text = l.text ∨ m.text = Piece.untagged (sel.pieces g l.text) := by
  simp only [strip] at h
  split at h
  · exact .inl (congrArg Line.text (Option.some.inj h).symm)
  · split at h
    · exact absurd h (by simp)
    · exact .inr (congrArg Line.text (Option.some.inj h).symm)

end Line

namespace Document

variable {g : Grammar} {d d' : Document}

theorem lines_remove (g : Grammar) (sel : Selector) (d : Document) :
    (d.remove g sel).1.lines = d.lines.filterMap fun l => (l.strip g sel).1 := by
  simp only [Document.remove, List.filterMap_map]
  rfl

theorem tagsRemoved_remove (g : Grammar) (sel : Selector) (d : Document) :
    (d.remove g sel).2.tagsRemoved = total (d.lines.map fun l => (l.strip g sel).2) := by
  simp only [Document.remove, List.map_map]
  rfl

/-- Where no tag was removed, nothing was. -/
theorem remove_eq_self {sel : Selector} (h : (d.remove g sel).2.tagsRemoved = 0) :
    (d.remove g sel).1 = d := by
  rw [tagsRemoved_remove] at h
  have hstrip : ∀ l ∈ d.lines, (l.strip g sel).1 = some l := by
    intro l hl
    have hnone := total_eq_zero_iff.1 h (l.strip g sel).2 (List.mem_map_of_mem hl)
    rw [Line.snd_strip, List.length_eq_zero_iff] at hnone
    rw [Line.strip_of_no_sightings hnone]
  have hlines : (d.remove g sel).1.lines = d.lines := by
    rw [lines_remove]
    conv_rhs => rw [← List.filterMap_some (l := d.lines)]
    exact List.filterMap_congr hstrip
  exact congrArg (fun lines => { d with lines }) hlines

/-- Tags are removed, none of which is sighted in an empty last line. -/
theorem Mirrors.remove (h : d.Mirrors d') {sel : Selector}
    (hend : d.EndsEmpty → Piece.sightings (sel.pieces g []) = []) :
    (d.remove g sel).1.Mirrors (d'.remove g sel).1 ∧
      (d.remove g sel).2 = (d'.remove g sel).2 := by
  unfold Document.remove
  cases h with
  | same lines terminated =>
    -- if a line is left, there was one
    simp only [lines, and_true]
    refine .same rfl fun hne => terminated ?_
    intro hnil
    rw [← lines, hnil] at hne
    exact hne rfl
  | ending ls x e e' lines lines' terminated terminated' =>
    obtain ⟨y, n, hstrip⟩ := Line.exists_strip g sel x
    simp only [lines, lines', List.map_append, List.map_singleton, List.filterMap_append, hstrip,
      List.length_append, List.length_singleton]
    -- without the last line, the documents are the same
    cases y with
    | none => exact ⟨.same rfl fun _ => terminated.trans terminated'.symm, rfl⟩
    | some text => exact ⟨.ending _ text e e' rfl rfl terminated terminated', rfl⟩
  | empty e lines terminated terminated' =>
    have hstrip : Line.strip g sel ⟨[], e⟩ = (some ⟨[], e⟩, 0) :=
      Line.strip_of_no_sightings (hend ((endsEmpty_concat lines terminated).2 rfl))
    simp only [lines, List.map_append, List.map_singleton, List.filterMap_append, hstrip]
    refine ⟨.empty e rfl terminated fun hne => terminated' ?_, ?_⟩
    · intro hnil
      rw [hnil] at hne
      exact hne rfl
    · simp

end Document

/-- Tags are written on the same lines, above the terminator of the last one. -/
theorem Site.Pads.write {g : Grammar} {d d' : Document} {s s' : Site} (h : s.Pads s')
    (hs : s.Fits g d) (hs' : s'.Fits g d') (hd : d.Mirrors d') (hpos : 0 < d'.length)
    (hend : s.blankInserted = true →
      d.lines = d'.lines ∨ s.start < d.length ∧ (0 < s.start ∨ 1 < d.length))
    (identifier : List Char) : (s.write g identifier).Mirrors (s'.write g identifier) := by
  have hdoc : s.document.Mirrors s'.document := by
    have hle := hs'.start_le
    rw [hs.document, hs'.document, ← h.blankInserted, ← h.start]
    rw [← h.blankInserted, ← h.start] at hle
    split
    · next hblank => exact hd.insertBlank hpos (hle hblank) (hend hblank)
    · exact hd
  have hstop := hs'.stop_lt_length
  have hstart := Nat.lt_of_le_of_lt hs'.le hstop
  unfold Site.write
  simp only [h.start, h.stop, h.blankInserted]
  split
  · exact hdoc.appendTo hstart _
  · exact (hdoc.appendTo hstop _).appendTo (by simpa using hstart) _

namespace Document

variable {g : Grammar} {d d' : Document}

theorem addTags_of_fault {identifier : List Char} {fault : Grammar.IdentifierFault}
    (hid : g.identifierFault? identifier = some fault) (start stop : Nat) :
    d.addTags g identifier start stop = .error (.identifier identifier fault) := by
  unfold addTags
  rw [hid]

theorem addTags_of_no_range {identifier : List Char} {start stop : Nat}
    (hid : g.identifierFault? identifier = none)
    (hrange : start = 0 ∨ stop < start ∨ d.length < stop) :
    d.addTags g identifier start stop = .error (.range start stop d.length) := by
  unfold addTags
  rw [hid]
  exact if_pos hrange

/-- Adding tags succeeds for a range of lines of the document. -/
theorem addTags_of_range {identifier : List Char} {start stop : Nat}
    (hid : g.identifierFault? identifier = none) (hpos : start ≠ 0) (hle : start ≤ stop)
    (hlen : stop ≤ d.length) :
    d.addTags g identifier start stop =
      .ok ((d.site g start stop).write g identifier,
        { requestedStart := start
          requestedEnd   := stop
          startLine      := (d.site g start stop).start + 1
          endLine        := (d.site g start stop).stop + 1
          blankInserted  := (d.site g start stop).blankInserted
          startShifted   := (d.site g start stop).startShifted
          endShifted     := (d.site g start stop).endShifted }) := by
  unfold addTags
  rw [hid]
  exact if_neg (by omega)

/-- The tags for a range that both documents have are placed and written alike, unless they
    are put below the last line. -/
theorem Mirrors.addTags (h : d.Mirrors d') {identifier : List Char} {start stop : Nat}
    (hid : g.identifierFault? identifier = none) (hpos : start ≠ 0) (hle : start ≤ stop)
    (hlen : stop ≤ d'.length)
    (hend : d.length ≤ (d.site g start stop).start → d.lines = d'.lines) :
    ∃ p, d.addTags g identifier start stop =
        .ok ((d.site g start stop).write g identifier, p) ∧
      d'.addTags g identifier start stop =
        .ok ((d'.site g start stop).write g identifier, p) ∧
      ((d.site g start stop).write g identifier).Mirrors
        ((d'.site g start stop).write g identifier) := by
  have hlen' := Nat.le_trans hlen h.pads.length_le
  have hpads := h.pads.site (g := g) hpos hle hlen
  refine ⟨_, addTags_of_range hid hpos hle hlen', ?_, ?_⟩
  · rw [addTags_of_range hid hpos hle hlen, hpads.start, hpads.stop, hpads.blankInserted,
      hpads.startShifted, hpads.endShifted]
  · refine hpads.write (site_fits g hpos hle hlen') (site_fits g hpos hle hlen) h (by omega) ?_ _
    intro hblank
    by_cases hbelow : d.length ≤ (d.site g start stop).start
    · exact .inl (hend hbelow)
    · exact .inr ⟨Nat.lt_of_not_le hbelow, pos_of_blankInserted_site g hblank⟩

/-- Whether the last line is terminated does not change where tags are written. -/
theorem terminated_write {s : Site} (hs : s.Fits g d) {identifier : List Char} :
    (s.write g identifier).terminated = d.terminated := by
  have hdoc : s.document.terminated = d.terminated := by
    rw [hs.document]
    split <;> rfl
  unfold Site.write
  simp only
  split
  · exact hdoc
  · exact hdoc

theorem terminated_of_addTags {identifier : List Char} {start stop : Nat} {p : Placement}
    (h : d.addTags g identifier start stop = .ok (d', p)) : d'.terminated = d.terminated := by
  obtain ⟨-, hpos, hle, hlen, rfl, -⟩ := addTags_eq_ok h
  exact terminated_write (site_fits g (Nat.ne_of_gt hpos) hle hlen)

/-- What is put below a last line without a terminator makes its terminator visible. -/
theorem render_write_below {s : Site} (hs : s.Fits g d) (hbelow : d.length ≤ s.start)
    {ls : List Line} {x : List Char} {e : LineEnding} (hlines : d.lines = ls ++ [⟨x, e⟩])
    (hend : d.terminated = false) (identifier : List Char) :
    (s.write g identifier).render = (ls.flatMap Line.render ++ x) ++ e.text ++
      Tag.render g ⟨identifier, .single, true⟩ := by
  obtain ⟨hblank, hstart, hstop⟩ := hs.below hbelow
  have hlen : d.lines.length = d.length := rfl
  have hdoc : s.document = d.insertBlank d.length := by
    rw [hs.document, if_pos hblank, hstart]
  have hrest : (s.write g identifier).lines =
      d.lines ++ [⟨Tag.render g ⟨identifier, .single, true⟩, d.endingAt d.length⟩] := by
    unfold Site.write
    simp only [hstart, hstop, hblank, if_true, hdoc, appendTo, insertBlank]
    rw [modify_insertIdx_self, ← hlen, List.insertIdx_length_self]
    rfl
  have hopen : (s.write g identifier).terminated = false := (terminated_write hs).trans hend
  unfold render
  rw [hopen, hrest, renderLines_false_append, hlines]
  simp [Line.render]

/-- Where a tag is put below the last line, the documents are written as the same text only
    if their last lines are the same. -/
theorem Mirrors.lines_eq_of_render_write_eq (h : d.Mirrors d') (hlen : d.length = d'.length)
    {s s' : Site} (hs : s.Fits g d) (hs' : s'.Fits g d') (hstart : s.start = s'.start)
    (hbelow : d.length ≤ s.start) {identifier : List Char}
    (hrender : (s.write g identifier).render = (s'.write g identifier).render) :
    d.lines = d'.lines := by
  cases h with
  | same lines _ => exact lines
  | ending ls x e e' lines lines' terminated terminated' =>
    rw [render_write_below hs hbelow lines terminated,
      render_write_below hs' (hlen ▸ hstart ▸ hbelow) lines' terminated'] at hrender
    have htext := List.append_cancel_left (List.append_cancel_right hrender)
    have hsame : e = e' := by
      cases e <;> cases e' <;> simp [LineEnding.text] at htext ⊢
    rw [lines, lines', hsame]
  | empty e lines _ _ =>
    simp [length, lines] at hlen

/-! ## Section 3: Line feeds -/

end Document

theorem TagPattern.mem_of_mem_untagged_cut {p : TagPattern} {skip : Nat} {ended : Bool}
    {prev : Option Char} {s : List Char} {c : Char}
    (h : c ∈ Piece.untagged (p.cut skip ended prev s)) : c ∈ s := by
  have hcons : ∀ {b : Char} {s : List Char} {ps : List Piece}, (c ∈ Piece.untagged ps → c ∈ s) →
      c ∈ Piece.untagged (.plain b :: ps) → c ∈ b :: s := by
    intro b s ps ih h
    rcases List.mem_cons.1 h with rfl | h
    · exact List.mem_cons_self
    · exact List.mem_cons_of_mem b (ih h)
  fun_induction TagPattern.cut p skip ended prev s with
  | case1 prev t ht => simp [Piece.untagged] at h
  | case2 ended prev t ht hended => simp [Piece.untagged, Piece.plain?] at h
  | case3 => simp [Piece.untagged] at h
  | case4 => simp [Piece.untagged] at h
  | case5 ended prev skip b s ih => exact List.mem_cons_of_mem b (ih h)
  | case6 prev b s t ht hempty ih => exact hcons ih h
  | case7 ended prev b s t ht hempty hended ih => exact hcons ih h
  | case8 ended prev b s t ht hempty ih => exact List.mem_cons_of_mem b (ih h)
  | case9 ended prev b s hnone ih => exact hcons ih h

theorem Selector.mem_of_mem_untagged_pieces {g : Grammar} {sel : Selector} {s : List Char}
    {c : Char} (h : c ∈ Piece.untagged (sel.pieces g s)) : c ∈ s := by
  cases sel with
  | any => exact Piece.mem_of_mem_untagged_cut h
  | exactly identifier => exact Piece.mem_of_mem_untagged_cut h
  | pattern p => exact TagPattern.mem_of_mem_untagged_cut h

namespace Document

variable {g : Grammar} {d d' : Document}

/-- No line holds a line feed. -/
def OneLine (d : Document) : Prop :=
  ∀ l ∈ d.lines, '\n' ∉ l.text

namespace OneLine

theorem insertBlank (h : d.OneLine) (i : Nat) : (d.insertBlank i).OneLine := by
  intro l hl
  rcases List.mem_cons.1 (List.insertIdx_subset_cons _ _ _ hl) with rfl | hl
  · exact List.not_mem_nil
  · exact h l hl

theorem appendTo (h : d.OneLine) (i : Nat) {text : List Char} (ht : '\n' ∉ text) :
    (d.appendTo i text).OneLine := by
  intro l hl
  obtain ⟨j, hj, rfl⟩ := List.mem_iff_getElem.1 hl
  simp only [Document.appendTo, List.getElem_modify]
  have hmem :=
    h _ (List.getElem_mem (l := d.lines) (n := j) (by simpa [Document.appendTo] using hj))
  split
  · rw [List.mem_append, not_or]
    exact ⟨hmem, ht⟩
  · exact hmem

theorem remove (h : d.OneLine) (g : Grammar) (sel : Selector) : (d.remove g sel).1.OneLine := by
  intro m hm
  rw [lines_remove] at hm
  obtain ⟨l, hl, hm⟩ := List.mem_filterMap.1 hm
  rcases Line.text_of_strip hm with htext | htext
  · rw [htext]
    exact h l hl
  · rw [htext]
    exact fun hmem => h l hl (Selector.mem_of_mem_untagged_pieces hmem)

/-- Tags are written on the lines that there are. -/
theorem addTags (h : d.OneLine) {identifier : List Char} {start stop : Nat} {p : Placement}
    (hadd : d.addTags g identifier start stop = .ok (d', p)) : d'.OneLine := by
  have hname := names_of_addTags hadd
  obtain ⟨-, hpos, hle, hlen, rfl, -⟩ := addTags_eq_ok hadd
  have htag : ∀ role cleanup, '\n' ∉ Tag.render g ⟨identifier, role, cleanup⟩ := by
    intro role cleanup hmem
    exact absurd (Tag.oneLine_render (t := ⟨identifier, role, cleanup⟩) hname _ hmem) (by decide)
  have hdoc : (d.site g start stop).document.OneLine := by
    rw [(site_fits g (by omega) hle hlen).document]
    split
    · exact h.insertBlank _
    · exact h
  unfold Site.write
  simp only
  split
  · exact hdoc.appendTo _ (htag _ _)
  · exact (hdoc.appendTo _ (htag _ _)).appendTo _ (htag _ _)

end OneLine

/-! ## Section 4: Reading back -/

/-- The lines that are written with their terminators. -/
def completeLines (d : Document) : List Line :=
  if d.terminated then d.lines else d.lines.dropLast

/-- No carriage return goes over into the terminator of its line. -/
def KeepsReturns (d : Document) : Prop :=
  ∀ l ∈ d.completeLines, l.Stable

instance (d : Document) : Decidable d.KeepsReturns :=
  inferInstanceAs (Decidable (∀ l ∈ d.completeLines, l.Stable))

/-- The last line has the terminator that it is taken to have if none follows it: that of
    the line above it, or a line feed. -/
def EndsAlike (d : Document) : Prop :=
  d.terminated = true ∨ ∀ l ∈ d.lines.getLast?,
    l.ending = (d.lines.dropLast.getLast?.map Line.ending).getD .lf

instance (d : Document) : Decidable d.EndsAlike :=
  inferInstanceAs (Decidable (_ ∨ _))

theorem oneLine_parse (text : List Char) : (parse text).OneLine := by
  obtain ⟨complete, rest, guess, h⟩ := exists_reads text
  exact h.newline_not_mem

theorem not_endsEmpty_parse (text : List Char) : ¬ (parse text).EndsEmpty := by
  obtain ⟨complete, rest, guess, h⟩ := exists_reads text
  rintro ⟨hopen, hlast⟩
  rw [h.terminated] at hopen
  rw [texts, h.lines] at hlast
  cases rest with
  | nil =>
    obtain rfl : complete = [] := by simpa using hopen
    simp at hlast
  | cons c rest => simp at hlast

theorem endsAlike_concat {ls : List Line} {l : Line} (hlines : d.lines = ls ++ [l])
    (hend : d.terminated = false) :
    d.EndsAlike ↔ l.ending = (ls.getLast?.map Line.ending).getD .lf := by
  simp [EndsAlike, hlines, hend]

theorem endsAlike_parse (text : List Char) : (parse text).EndsAlike := by
  cases hsplit : splitBodies [] text with
  | mk bodies rest =>
    by_cases hrest : rest = []
    · -- what follows the last line feed is no line
      subst hrest
      cases bodies <;> simp [EndsAlike, parse, hsplit]
    · have hlines : (parse text).lines = bodies.map Line.ofBody ++
          [⟨rest, ((bodies.map Line.ofBody).getLast?.map Line.ending).getD
            (prevailingEnding (bodies.map Line.ofBody))⟩] := by
        simp [parse, hsplit, hrest]
      have hend : (parse text).terminated = false := by simp [parse, hsplit, hrest]
      rw [endsAlike_concat hlines hend]
      rcases List.eq_nil_or_concat' (bodies.map Line.ofBody) with hnil | ⟨ls, l, hconcat⟩
      · rw [hnil]
        rfl
      · simp [hconcat]

/-- Where the lines that are written with their terminators are stable, what is read back
    mirrors what was written. -/
theorem mirrors_parse_render (hline : d.OneLine) (hstable : d.KeepsReturns) :
    d.Mirrors (parse d.render) := by
  cases hend : d.terminated with
  | true =>
    have hrender : d.render = d.lines.flatMap Line.render ++ [] := by
      unfold render
      rw [hend, renderLines_true, List.append_nil]
    unfold KeepsReturns completeLines at hstable
    rw [if_pos hend] at hstable
    obtain ⟨guess, h⟩ := reads_flatMap_render hline hstable (show '\n' ∉ ([] : List Char) by simp)
    rw [← hrender] at h
    refine .same (by rw [h.lines]; simp) fun hne => ?_
    rw [h.terminated, hend]
    simpa using hne
  | false =>
    rcases List.eq_nil_or_concat' d.lines with hnil | ⟨ls, ⟨x, e⟩, hlines⟩
    · -- there is nothing to write
      have hrender : d.render = [] := by
        unfold render
        rw [hnil]
        rfl
      refine .same ?_ fun hne => absurd hnil hne
      rw [hrender, hnil]
      rfl
    · have hrender : d.render = ls.flatMap Line.render ++ x := by
        unfold render
        rw [hend, hlines, renderLines_false_append]
      unfold KeepsReturns completeLines at hstable
      rw [hend, if_neg Bool.false_ne_true, hlines, List.dropLast_concat] at hstable
      unfold OneLine at hline
      rw [hlines] at hline
      obtain ⟨guess, h⟩ := reads_flatMap_render (fun l hl => hline l (List.mem_append_left _ hl))
        hstable (hline ⟨x, e⟩ (by simp))
      rw [← hrender] at h
      by_cases hx : x = []
      · -- nothing follows the last line feed, so no line is read there
        subst hx
        refine .empty e ?_ hend fun hne => ?_
        · rw [h.lines, hlines]
          simp
        · rw [h.lines] at hne
          rw [h.terminated]
          simpa using hne
      · -- the terminator of what follows it is guessed
        refine .ending ls x e guess hlines ?_ hend ?_
        · rw [h.lines]
          simp [hx]
        · rw [h.terminated]
          simp [hx]

/-- A last line that is not empty is read back with its terminator exactly if it is the one
    that it is taken to have. -/
theorem lines_parse_render (hline : d.OneLine) (hstable : d.KeepsReturns) (hend : ¬ d.EndsEmpty) :
    d.lines = (parse d.render).lines ↔ d.EndsAlike := by
  have halike := endsAlike_parse d.render
  cases mirrors_parse_render hline hstable with
  | same lines terminated =>
    refine ⟨fun _ => ?_, fun _ => lines⟩
    by_cases hnil : d.lines = []
    · simp [EndsAlike, hnil]
    · unfold EndsAlike at halike ⊢
      rwa [lines, terminated hnil]
  | ending ls x e e' lines lines' terminated terminated' =>
    rw [endsAlike_concat lines' terminated'] at halike
    rw [endsAlike_concat lines terminated, lines, lines', ← halike]
    simp
  | empty e lines terminated _ => exact absurd ((endsEmpty_concat lines terminated).2 rfl) hend

/-! ## Section 5: Texts and documents -/

/-- The lines are split where they can be: no line goes on behind a line feed, no carriage
    return stands in front of a terminator without one, and what follows the last terminator
    is a line only if something follows it. -/
structure IsSplit (d : Document) : Prop where
  oneLine  : ∀ l ∈ d.lines, '\n' ∉ l.text
  returns  : ∀ l ∈ d.completeLines, l.ending = .lf → l.text.getLast? ≠ some '\r'
  lastLine : d.terminated = false → d.texts.getLast? ≠ some []

theorem isSplit_iff : d.IsSplit ↔ d.OneLine ∧ d.KeepsReturns ∧ ¬ d.EndsEmpty := by
  constructor
  · rintro ⟨honeLine, hreturns, hlast⟩
    exact ⟨honeLine, fun l hl => Line.stable_iff.2 (hreturns l hl), fun hend => hlast hend.1 hend.2⟩
  · rintro ⟨honeLine, hstable, hend⟩
    exact ⟨honeLine, fun l hl => Line.stable_iff.1 (hstable l hl),
      fun hopen hlast => hend ⟨hopen, hlast⟩⟩

/-- All lines that were read up to their terminators are stable. -/
theorem keepsReturns_parse (text : List Char) : (parse text).KeepsReturns := by
  obtain ⟨complete, rest, guess, h⟩ := exists_reads text
  have hcomplete : (parse text).completeLines = complete := by
    rw [completeLines, h.lines, h.terminated]
    -- what follows the last terminator is the only line without one
    cases rest with
    | nil => cases complete <;> simp
    | cons c rest => simp
  rw [KeepsReturns, hcomplete]
  exact h.stable

theorem isSplit_parse (text : List Char) : (parse text).IsSplit :=
  isSplit_iff.2 ⟨oneLine_parse text, keepsReturns_parse text, not_endsEmpty_parse text⟩

/-- Only the terminator of a last line that has none is not mirrored. -/
theorem Mirrors.agree (h : d.Mirrors d') (hne : d.lines ≠ []) (hend : ¬ d.EndsEmpty) :
    d'.texts = d.texts ∧ d'.completeLines = d.completeLines ∧ d'.terminated = d.terminated := by
  cases h with
  | same lines terminated => simp [texts, completeLines, lines, terminated hne]
  | ending ls x e e' lines lines' terminated terminated' =>
    simp [texts, completeLines, lines, lines', terminated, terminated']
  | empty e lines terminated _ => exact absurd ((endsEmpty_concat lines terminated).2 rfl) hend

/-- Reading splits every text into lines, each with a terminator, from which it is written
    again. Lines that are split, with or without a terminator behind the last one, are read
    from what was written with all the terminators that were. -/
theorem parse_inverse_render :
    (∀ text, (parse text).render = text ∧ (parse text).IsSplit ∧
        ∀ i, ((parse text).endingOf i).isSome = ((parse text).texts[i]?).isSome) ∧
      ∀ d : Document, d.lines ≠ [] → d.IsSplit →
        (parse d.render).texts = d.texts ∧ (parse d.render).completeLines = d.completeLines ∧
          (parse d.render).terminated = d.terminated := by
  refine ⟨fun text => ⟨render_parse text, isSplit_parse text, fun i => ?_⟩, fun d hne hsplit => ?_⟩
  · simp [endingOf, texts]
  · obtain ⟨honeLine, hstable, hend⟩ := isSplit_iff.1 hsplit
    exact (mirrors_parse_render honeLine hstable).agree hne hend

/-- Carriage returns in front of both terminators and behind the last of them. -/
theorem parse_inverse_render_returns :
    let d : Document := ⟨[⟨['a', '\r'], .crlf⟩, ⟨[], .lf⟩, ⟨['b', '\r'], .lf⟩], .lf, false⟩
    d.render = "a\r\r\n\nb\r".toList ∧ d.lines ≠ [] ∧ d.IsSplit ∧
      (parse d.render).texts = d.texts ∧ (parse d.render).completeLines = d.completeLines ∧
        (parse d.render).terminated = d.terminated := by
  intro d
  have hne : d.lines ≠ [] := by decide
  have hsplit : d.IsSplit := ⟨by decide, by decide, by decide⟩
  exact ⟨by decide, hne, hsplit, parse_inverse_render.2 d hne hsplit⟩

end Document

end Marginalia
