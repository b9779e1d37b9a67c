import Marginalia.Proofs.Rereading

/-! # What adding tags does to a text

    Nothing of a text is lost or moved when tags are added to it. What is written is the old
    text with the tags in it, and with one more terminator if a line was inserted:

    * **`Document.textTo`**: a document down to the end of a line.
    * **`Document.render_appendTo`**, **`Document.render_appendTo_pair`**: the text around
      what is appended to one line, and to two.
    * **`Document.render_insertBlank`**: the terminator of a line that is inserted.
    * **`Document.render_addTags`**: the text around the tags of a placement. -/

namespace Marginalia

variable {g : Grammar}

namespace Document

variable {d : Document}

/-! ## Section 1: One line of a document -/

/-- The text of a document down to the end of line `i`, whose terminator is left out. -/
def textTo (d : Document) (i : Nat) : List Char :=
  (d.lines.take i).flatMap Line.render ++ (d.lines[i]?.map Line.text).getD []

/-- What follows the text of a line: its terminator, and the lines below. The last line of
    all has its terminator only if asked for. -/
def renderBelow (terminated : Bool) (e : LineEnding) (below : List Line) : List Char :=
  (if below.isEmpty && !terminated then [] else e.text) ++ renderLines terminated below

theorem renderLines_cons (terminated : Bool) (l : Line) (below : List Line) :
    renderLines terminated (l :: below) = l.text ++ renderBelow terminated l.ending below := by
  cases below with
  | nil => cases terminated <;> simp [renderLines, renderBelow, Line.render]
  | cons m below => simp [renderLines, renderBelow, Line.render]

/-- All lines above others are written with their terminators. -/
theorem renderLines_append_of_ne_nil (terminated : Bool) (above : List Line) {below : List Line}
    (hne : below ≠ []) :
    renderLines terminated (above ++ below) =
      above.flatMap Line.render ++ renderLines terminated below := by
  induction above with
  | nil => rfl
  | cons l above ih =>
    obtain ⟨m, ms, hms⟩ := List.exists_cons_of_ne_nil
      (show above ++ below ≠ [] from List.append_ne_nil_of_right_ne_nil above hne)
    rw [List.cons_append, hms, renderLines, ← hms, ih, List.flatMap_cons, List.append_assoc]

theorem renderLines_append_cons (terminated : Bool) (above : List Line) (l : Line)
    (below : List Line) :
    renderLines terminated (above ++ l :: below) =
      above.flatMap Line.render ++ l.text ++ renderBelow terminated l.ending below := by
  rw [renderLines_append_of_ne_nil terminated above (List.cons_ne_nil l below), renderLines_cons,
    List.append_assoc]

/-- A list, split at one of its elements. -/
theorem exists_eq_append_cons {α : Type*} {ls : List α} {i : Nat} (hi : i < ls.length) :
    ∃ above l below, ls = above ++ l :: below ∧ above.length = i := by
  refine ⟨ls.take i, ls[i], ls.drop (i + 1), ?_, ?_⟩
  · rw [← List.drop_eq_getElem_cons hi, List.take_append_drop]
  · exact List.length_take_of_le (Nat.le_of_lt hi)

section
variable {above below : List Line} {l : Line}

theorem textTo_eq (h : d.lines = above ++ l :: below) :
    d.textTo above.length = above.flatMap Line.render ++ l.text := by
  unfold textTo
  rw [h, List.take_left, List.getElem?_append_right (Nat.le_refl _), Nat.sub_self]
  rfl

theorem lines_appendTo (h : d.lines = above ++ l :: below) (text : List Char) :
    (d.appendTo above.length text).lines =
      above ++ { l with text := l.text ++ text } :: below := by
  unfold appendTo
  rw [h, modify_append, if_neg (Nat.lt_irrefl _), Nat.sub_self]
  rfl

theorem lines_insertBlank (h : d.lines = above ++ below) :
    (d.insertBlank above.length).lines = above ++ ⟨[], d.endingAt above.length⟩ :: below := by
  unfold insertBlank
  rw [h, insertIdx_append_of_le (Nat.le_refl _), List.insertIdx_length_self, List.append_assoc]
  rfl

end

/-! ## Section 2: Tags on the lines of a document -/

/-- A text is appended to a line, and all that stands behind it stays. -/
theorem render_appendTo {i : Nat} (hi : i < d.length) :
    ∃ rest, d.render = d.textTo i ++ rest ∧ ∀ x,
      (d.appendTo i x).render = d.textTo i ++ x ++ rest ∧
        (d.appendTo i x).textTo i = d.textTo i ++ x := by
  obtain ⟨above, l, below, hlines, rfl⟩ := exists_eq_append_cons hi
  refine ⟨renderBelow d.terminated l.ending below, ?_, fun x => ?_⟩
  · rw [render, textTo_eq hlines, hlines, renderLines_append_cons]
  · have hlines' := lines_appendTo hlines x
    rw [textTo_eq hlines, textTo_eq hlines', List.append_assoc _ l.text x]
    refine ⟨?_, rfl⟩
    show renderLines d.terminated (d.appendTo above.length x).lines = _
    rw [hlines', renderLines_append_cons]

/-- Texts are appended to two lines: the terminator of the upper one and all that stands
    between it and the lower text stays, and so does what stands behind. -/
theorem render_appendTo_pair {i j : Nat} (hij : i < j) (hj : j < d.length) :
    ∃ e b rest, d.endingOf i = some e ∧ d.render = d.textTo i ++ (e.text ++ b) ++ rest ∧
      ∀ x y, let d' := (d.appendTo j y).appendTo i x
        d'.render = d.textTo i ++ x ++ (e.text ++ b) ++ y ++ rest ∧
          d'.textTo i = d.textTo i ++ x ∧
            d'.textTo j = d.textTo i ++ x ++ (e.text ++ b) ++ y := by
  obtain ⟨upper, m, below, hupper, rfl⟩ := exists_eq_append_cons hj
  obtain ⟨above, l, mid, rfl, rfl⟩ := exists_eq_append_cons hij
  have hlines : d.lines = above ++ l :: (mid ++ m :: below) := by simp [hupper]
  refine ⟨l.ending, mid.flatMap Line.render ++ m.text, renderBelow d.terminated m.ending below,
    ?_, ?_, fun x y => ?_⟩
  · simp [endingOf, hlines]
  · rw [render, textTo_eq hlines, hupper, renderLines_append_cons]
    simp [Line.render]
  · have hlower := (lines_appendTo hupper y).trans (List.append_assoc ..)
    have hboth := lines_appendTo hlower x
    -- the same lines, seen from the lower text
    have hboth' := hboth.trans
      (List.append_assoc above ({ l with text := l.text ++ x } :: mid) _).symm
    have hlen : (above ++ { l with text := l.text ++ x } :: mid).length =
        (above ++ l :: mid).length := by simp
    have hlast := textTo_eq hboth'
    rw [hlen] at hlast
    rw [textTo_eq hlines]
    refine ⟨?_, ?_, ?_⟩
    · rw [render, hboth', renderLines_append_cons]
      simp [Line.render, appendTo]
    · rw [textTo_eq hboth, List.append_assoc]
    · rw [hlast]
      simp [Line.render]

/-! ## Section 3: A line that is inserted -/

/-- One terminator is written for a line that is inserted: behind the empty line, or in
    front of it if the line above was the last and had none. -/
theorem render_insertBlank {i : Nat} (hpos : 0 < d.length) (hi : i ≤ d.length) :
    ∃ a before after c, d.render = a ++ c ∧
      (d.insertBlank i).render = a ++ before ++ after ++ c ∧
      (d.insertBlank i).textTo i = a ++ before ∧
      before ++ after = (d.endingAt i).text ∧
      (before = [] ∨ i = d.length ∧ after = []) := by
  obtain ⟨above, below, hlines, rfl⟩ : ∃ above below, d.lines = above ++ below ∧
      above.length = i :=
    ⟨_, _, (List.take_append_drop i d.lines).symm, List.length_take_of_le hi⟩
  have hblank := lines_insertBlank hlines
  have hto : (d.insertBlank above.length).textTo above.length =
      above.flatMap Line.render := by
    rw [textTo_eq hblank, List.append_nil]
  have hrender : (d.insertBlank above.length).render = above.flatMap Line.render ++
      renderBelow d.terminated (d.endingAt above.length) below := by
    rw [render, hblank, renderLines_append_cons, List.append_nil]
    rfl
  rw [hto, hrender, render, hlines]
  by_cases hbelow : below = []
  · subst hbelow
    rw [List.append_nil] at hlines ⊢
    cases hend : d.terminated with
    | true =>
      refine ⟨above.flatMap Line.render, [], (d.endingAt above.length).text, [], ?_⟩
      simp [renderLines_true, renderBelow, renderLines]
    | false =>
      -- the last line gets its terminator, and the empty line has none
      obtain ⟨ls, l, rfl⟩ : ∃ ls l, above = ls ++ [l] := by
        refine (List.eq_nil_or_concat' above).resolve_left ?_
        intro hnil
        rw [length, hlines, hnil] at hpos
        exact absurd hpos (Nat.lt_irrefl 0)
      have hending : d.endingAt (ls ++ [l]).length = l.ending := by
        have hpred := endingOf_pred hpos hi
        rw [endingOf, hlines] at hpred
        simpa using hpred.symm
      refine ⟨ls.flatMap Line.render ++ l.text, l.ending.text, [], [], ?_⟩
      rw [hending, renderLines_false_append]
      simp [renderBelow, renderLines, Line.render, length, hlines]
  · refine ⟨above.flatMap Line.render, [], (d.endingAt above.length).text,
      renderLines d.terminated below, ?_⟩
    rw [renderLines_append_of_ne_nil _ _ hbelow]
    simp [renderBelow, hbelow]

/-- The line that was inserted has the terminator that was written for it. -/
theorem endingOf_insertBlank {i : Nat} (hi : i ≤ d.length) :
    (d.insertBlank i).endingOf i = some (d.endingAt i) := by
  have hself : (d.lines.insertIdx i ⟨[], d.endingAt i⟩)[i]? = some ⟨[], d.endingAt i⟩ := by
    rw [List.getElem?_insertIdx_self, if_pos (show i ≤ d.lines.length from hi)]
  rw [endingOf, insertBlank, hself]
  rfl

end Document

/-! ## Section 4: Adding tags -/

namespace Site

open Document

variable {d : Document} {s : Site}

/-- The document that tags are written in, and the text that it was made from: where a line
    was inserted, there is one more terminator. -/
theorem Fits.render_document (hs : s.Fits g d) (hpos : 0 < d.length) :
    ∃ a before after c, d.render = a ++ c ∧
      s.document.render = a ++ before ++ after ++ c ∧
      s.document.textTo s.start = a ++ before ∧
      (before = [] ∨ s.start = s.stop ∧ after = []) ∧
      if s.blankInserted then before ++ after = (d.endingAt s.start).text
      else before = [] ∧ after = [] := by
  have hdoc := hs.document
  cases hblank : s.blankInserted with
  | false =>
    rw [hblank, if_neg Bool.false_ne_true] at hdoc
    have hstart : s.start < d.length := by
      have hlt := hs.lt
      have hle := hs.le
      rw [hblank, if_neg Bool.false_ne_true] at hlt
      omega
    obtain ⟨rest, hrender, -⟩ := render_appendTo hstart
    exact ⟨d.textTo s.start, [], [], rest, by simp [hrender], by simp [hdoc, hrender],
      by simp [hdoc], .inl rfl, by simp⟩
  | true =>
    rw [hblank, if_pos rfl] at hdoc
    obtain ⟨a, before, after, c, htext, hrender, hto, hending, hbefore⟩ :=
      render_insertBlank hpos (hs.start_le hblank)
    refine ⟨a, before, after, c, htext, hdoc ▸ hrender, hdoc ▸ hto, ?_, by simpa using hending⟩
    refine hbefore.imp_right fun h => ⟨?_, h.2⟩
    obtain ⟨-, hstart, hstop⟩ := hs.below (Nat.le_of_eq h.1.symm)
    exact hstart.trans hstop.symm

/-- The line that was inserted ends in the terminator that was written for it. -/
theorem Fits.ending_eq (hs : s.Fits g d) (hblank : s.blankInserted = true) {e : LineEnding}
    (hend : s.document.endingOf s.start = some e) : e = d.endingAt s.start := by
  have hdoc := hs.document
  rw [hblank, if_pos rfl] at hdoc
  rw [hdoc, endingOf_insertBlank (hs.start_le hblank)] at hend
  exact (Option.some.inj hend).symm

/-- A start tag on a line of its own, and an end tag if that is not the same, leave the
    text around them as it is. -/
theorem Fits.render_write (hs : s.Fits g d) (hpos : 0 < d.length) (identifier : List Char) :
    let first := Tag.render g ⟨identifier, if s.start = s.stop then .single else .start,
      s.blankInserted⟩
    let last := if s.start = s.stop then [] else Tag.render g ⟨identifier, .finish, false⟩
    let d' := s.write g identifier
    ∃ a before after b c, d.render = a ++ b ++ c ∧
      d'.render = a ++ before ++ first ++ after ++ b ++ last ++ c ∧
      d'.textTo s.start = a ++ before ++ first ∧
      (s.start ≠ s.stop → d'.textTo s.stop = a ++ before ++ first ++ after ++ b ++ last) ∧
      (before = [] ∨ after = []) ∧
      if s.blankInserted then before ++ after = (d.endingAt s.start).text
      else before = [] ∧ after = [] := by
  intro first last d'
  obtain ⟨a, before, after, c, htext, hrender, hto, hbefore, hending⟩ := hs.render_document hpos
  have hstop : s.stop < s.document.length := hs.stop_lt_length
  by_cases hsame : s.start = s.stop
  · obtain ⟨rest, hsplit, happend⟩ := render_appendTo (hsame ▸ hstop)
    obtain ⟨hwrite, hline⟩ := happend first
    have hd' : d' = s.document.appendTo s.start first := by
      simp only [d', write, if_pos hsame, first]
    have hrest : rest = after ++ c := by
      rw [hsplit, hto] at hrender
      simpa using hrender
    refine ⟨a, before, after, [], c, by simpa using htext, ?_, ?_, fun h => absurd hsame h,
      hbefore.imp_right And.right, hending⟩
    · rw [hd', hwrite, hto, hrest]
      simp [last, if_pos hsame]
    · rw [hd', hline, hto]
  · -- the start tag's line is not the last
    obtain rfl : before = [] := hbefore.resolve_right fun h => hsame h.1
    obtain ⟨e, b, rest, hend, hsplit, happend⟩ :=
      render_appendTo_pair (Nat.lt_of_le_of_ne hs.le hsame) hstop
    obtain ⟨hwrite, hline, hline'⟩ := happend first last
    have hd' : d' = (s.document.appendTo s.stop last).appendTo s.start first := by
      simp only [d', write, if_neg hsame, first, last]
    -- if it was inserted, its terminator is the one that was written with it
    obtain ⟨b', hb'⟩ : ∃ b', e.text ++ b = after ++ b' := by
      cases hblank : s.blankInserted with
      | false =>
        rw [hblank, if_neg Bool.false_ne_true] at hending
        exact ⟨e.text ++ b, by simp [hending.2]⟩
      | true =>
        rw [hblank, if_pos rfl] at hending
        exact ⟨b, by rw [hs.ending_eq hblank hend, ← hending, List.nil_append]⟩
    have hc : c = b' ++ rest := by
      rw [hsplit, hto, hb'] at hrender
      simpa using hrender.symm
    rw [hto, hb'] at hwrite hline'
    rw [hto] at hline
    refine ⟨a, [], after, b', rest, by simp [htext, hc], ?_, ?_, fun _ => ?_, .inl rfl, hending⟩
    · rw [hd', hwrite]
      simp
    · rw [hd', hline]
    · rw [hd', hline']
      simp

/-- The line that was inserted holds the start tag alone. -/
theorem Fits.texts_write (hs : s.Fits g d) (hblank : s.blankInserted = true)
    (identifier : List Char) :
    (s.write g identifier).texts[s.start]? =
      some (Tag.render g ⟨identifier, if s.start = s.stop then .single else .start, true⟩) := by
  have hle := hs.start_le hblank
  have hdoc := hs.document
  rw [hblank, if_pos rfl] at hdoc
  have hself : (d.lines.insertIdx s.start ⟨[], d.endingAt s.start⟩)[s.start]? =
      some ⟨[], d.endingAt s.start⟩ := by
    rw [List.getElem?_insertIdx_self, if_pos (show s.start ≤ d.lines.length from hle)]
  by_cases hsame : s.start = s.stop
  · simp only [write, if_pos hsame, texts, appendTo, insertBlank, hdoc, hblank]
    simp [hself]
  · simp only [write, if_neg hsame, texts, appendTo, insertBlank, hdoc, hblank]
    simp [hself, Ne.symm hsame]

theorem Fits.length_write (hs : s.Fits g d) (identifier : List Char) :
    (s.write g identifier).length = d.length + if s.blankInserted then 1 else 0 := by
  have hwrite : (s.write g identifier).length = s.document.length := by
    unfold write
    simp only
    split <;> simp
  rw [hwrite, hs.document]
  cases hblank : s.blankInserted with
  | false => rfl
  | true => exact length_insertBlank (hs.start_le hblank)

end Site

namespace Document

/-- Adding tags inserts them in the text, and a terminator if it inserted a line: nothing
    else of the text changes. -/
theorem render_addTags {text : List Char} {d' : Document} {identifier : List Char}
    {start stop : Nat} {p : Placement}
    (h : (parse text).addTags g identifier start stop = .ok (d', p)) :
    let single := p.startLine = p.endLine
    let first := Tag.render g ⟨identifier, if single then .single else .start, p.blankInserted⟩
    let last := if single then [] else Tag.render g ⟨identifier, .finish, false⟩
    (0 < p.startLine ∧ p.startLine ≤ p.endLine ∧ p.endLine ≤ d'.length ∧
      d'.length = (parse text).length + if p.blankInserted then 1 else 0) ∧
    ∃ a before after b c, text = a ++ b ++ c ∧
      d'.render = a ++ before ++ first ++ after ++ b ++ last ++ c ∧
      d'.textTo (p.startLine - 1) = a ++ before ++ first ∧
      (¬ single → d'.textTo (p.endLine - 1) = a ++ before ++ first ++ after ++ b ++ last) ∧
      (before = [] ∨ after = []) ∧
      if p.blankInserted then
        d'.texts[p.startLine - 1]? = some first ∧
          ∃ e, (parse text).endingOf (if p.startLine = 1 then 0 else p.startLine - 2) = some e ∧
            before ++ after = e.text
      else before = [] ∧ after = [] := by
  obtain ⟨-, hpos, hle, hlen, hwrite, hplace⟩ := addTags_eq_ok h
  have hs : ((parse text).site g start stop).Fits g (parse text) :=
    site_fits g (Nat.ne_of_gt hpos) hle hlen
  have hlength := hs.length_write identifier
  generalize (parse text).site g start stop = s at *
  subst hwrite hplace
  have hsome : 0 < (parse text).length := by omega
  have hstop := hs.lt
  simp only [Nat.add_right_cancel_iff, Nat.add_sub_cancel]
  refine ⟨⟨Nat.succ_pos _, Nat.succ_le_succ hs.le, by omega, hlength⟩, ?_⟩
  obtain ⟨a, before, after, b, c, htext, hrender, hfirst, hlast, hone, hending⟩ :=
    hs.render_write hsome identifier
  rw [render_parse] at htext
  refine ⟨a, before, after, b, c, htext, hrender, hfirst, hlast, hone, ?_⟩
  cases hblank : s.blankInserted with
  | false => simpa [hblank] using hending
  | true =>
    have hpred := endingOf_pred hsome (hs.start_le hblank)
    have habove : (if s.start + 1 = 1 then 0 else s.start + 1 - 2) = s.start - 1 := by
      split <;> omega
    rw [hblank, if_pos rfl] at hending
    rw [if_pos rfl, habove]
    exact ⟨hs.texts_write hblank identifier, _, hpred, hending⟩

/-- A tag for the last line of a comment, which no terminator follows: the new line takes
    the one that ends the line above. -/
theorem render_addTags_unterminated :
    let text := "f();\r\n/* a\r\n*/".toList
    let p : Placement := ⟨3, 3, 4, 4, true, true, false⟩
    ∃ d', (parse text).addTags .standard ['t'] 3 3 = .ok (d', p) ∧
      ∃ a before after b c, text = a ++ b ++ c ∧
        d'.render = a ++ before ++ "/*-?|t|?~*/".toList ++ after ++ b ++ [] ++ c ∧
        (before = [] ∨ after = []) ∧ before ++ after = "\r\n".toList := by
  intro text p
  have hrun : ((parse text).addTags .standard ['t'] 3 3).map Prod.snd = .ok p := by
    decide +kernel
  cases hadd : (parse text).addTags .standard ['t'] 3 3 with
  | error fault =>
    rw [hadd] at hrun
    exact absurd hrun (by simp [Except.map])
  | ok r =>
    obtain ⟨d', p'⟩ := r
    rw [hadd] at hrun
    obtain rfl : p' = p := Except.ok.inj hrun
    obtain ⟨-, a, before, after, b, c, htext, hrender, -, -, hone, hinserted⟩ :=
      render_addTags hadd
    rw [if_pos rfl] at hinserted
    obtain ⟨-, e, hguess, hending⟩ := hinserted
    have hcrlf : (parse text).endingOf (if p.startLine = 1 then 0 else p.startLine - 2) =
        some .crlf := by decide +kernel
    rw [hcrlf] at hguess
    obtain rfl := Option.some.inj hguess
    exact ⟨d', rfl, a, before, after, b, c, htext, hrender, hone, hending⟩

end Document

end Marginalia
