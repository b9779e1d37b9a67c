import Marginalia.Proofs.Rereading

/-! # Carriage returns that are read as terminators

    A line that ends with a line feed, and has a carriage return at the end of its text, is
    read back with the carriage return in its terminator. Somebody who kept the document still
    has it in the text. Both find the same tags and put tags on the same lines. What is
    written in the end is not always the same.

    * **`Document.reread`**: the document with the terminators that are read back.
    * **`Document.render_eq_iff`**: when two documents are written as the same text.
    * **`Line.StripsAlike`**: tags are removed from a line in the same way, wherever its
      carriage return belongs to. Only a pattern can tell.
    * **`Document.render_remove_reread_iff`**: tags are removed from both.
    * **`Site.bases`**: the lines whose ends decide how tags are written.
    * **`Document.render_write_reread_iff`**: tags are written on both. -/

namespace Marginalia

open Text

/-! ## Section 1: Lines -/

namespace Line

variable {g : Grammar} {sel : Selector} {l : Line}

theorem exists_of_not_stable (h : ¬ l.Stable) :
    ∃ y, l = ⟨y ++ ['\r'], .lf⟩ ∧ ofBody l.body = ⟨y, .crlf⟩ := by
  rw [stable_iff, Classical.not_imp, not_not] at h
  obtain ⟨hending, hlast⟩ := h
  refine ⟨l.text.dropLast, ?_, ofBody_body_of_return hlast hending⟩
  rw [List.dropLast_append_getLast? _ hlast, ← hending]

theorem sameButReturn_ofBody_body (l : Line) : SameButReturn l.text (ofBody l.body).text := by
  by_cases h : l.Stable
  · exact .inl (congrArg text h).symm
  · obtain ⟨y, rfl, hread⟩ := exists_of_not_stable h
    rw [hread]
    exact .inr rfl

theorem ending_ofBody_body_iff : (ofBody l.body).ending = l.ending ↔ l.Stable := by
  refine ⟨fun hsame => ?_, fun h => congrArg ending h⟩
  by_contra h
  obtain ⟨y, rfl, hread⟩ := exists_of_not_stable h
  rw [hread] at hsame
  cases hsame

/-- A text is put behind the carriage return, or in front of it. -/
theorem body_append_iff {t : List Char} (hne : t ≠ []) (hhead : t.head? ≠ some '\r') (l : Line) :
    (⟨(ofBody l.body).text ++ t, (ofBody l.body).ending⟩ : Line).body =
      (⟨l.text ++ t, l.ending⟩ : Line).body ↔ l.Stable := by
  refine ⟨fun hsame => ?_, fun h => by rw [show ofBody l.body = l from h]⟩
  by_contra h
  obtain ⟨y, rfl, hread⟩ := exists_of_not_stable h
  -- the line that is read back goes on with the text, the other one with the carriage return
  obtain ⟨c, t, rfl⟩ := List.exists_cons_of_ne_nil hne
  rw [hread] at hsame
  simp only [body, List.append_assoc] at hsame
  obtain rfl := (List.cons.inj (List.append_cancel_left hsame)).1
  exact hhead rfl

theorem body_mk_inj {t : List Char} {e e' : LineEnding} :
    (⟨t, e⟩ : Line).body = (⟨t, e'⟩ : Line).body ↔ e = e' := by
  cases e <;> cases e' <;> simp [body]

/-- Tags are removed from a text in front of a carriage return, wherever that belongs to. -/
theorem exists_strip_return (hsel : sel.IsPlain) (g : Grammar) (y : List Char) :
    ∃ (o : Option (List Char)) (n : Nat),
      strip g sel ⟨y ++ ['\r'], .lf⟩ = (o.map fun t => ⟨t ++ ['\r'], .lf⟩, n) ∧
        strip g sel ⟨y, .crlf⟩ = (o.map fun t => ⟨t, .crlf⟩, n) := by
  have hsightings := Selector.sightings_pieces_eq hsel g (x := y ++ ['\r']) (.inr rfl)
  have huntagged := Selector.untagged_pieces_append_return hsel g y
  have hblank := SameButReturn.allBlank_eq
    (x := Piece.untagged (sel.pieces g y) ++ ['\r']) (.inr rfl)
  unfold strip
  simp only [hsightings, huntagged, hblank]
  split
  · exact ⟨some y, 0, rfl, rfl⟩
  · split
    · exact ⟨none, _, rfl, rfl⟩
    · exact ⟨some _, _, rfl, rfl⟩

/-- As many tags are removed from the line that is read back, and the same is written of what
    is left. -/
structure StripsAlike (g : Grammar) (sel : Selector) (l : Line) : Prop where
  count : ((ofBody l.body).strip g sel).2 = (l.strip g sel).2
  body  : ((ofBody l.body).strip g sel).1.map Line.body = (l.strip g sel).1.map Line.body

instance (g : Grammar) (sel : Selector) (l : Line) : Decidable (l.StripsAlike g sel) :=
  decidable_of_iff (_ ∧ _) ⟨fun ⟨count, body⟩ => ⟨count, body⟩,
    fun ⟨count, body⟩ => ⟨count, body⟩⟩

theorem stripsAlike_of_stable (h : l.Stable) (g : Grammar) (sel : Selector) :
    l.StripsAlike g sel := by
  constructor <;> rw [show ofBody l.body = l from h]

theorem stripsAlike_of_isPlain (hsel : sel.IsPlain) (g : Grammar) (l : Line) :
    l.StripsAlike g sel := by
  by_cases h : l.Stable
  · exact stripsAlike_of_stable h g sel
  · obtain ⟨y, rfl, hread⟩ := exists_of_not_stable h
    obtain ⟨o, n, hreturn, hterminator⟩ := exists_strip_return hsel g y
    constructor <;> rw [hread, hreturn, hterminator]
    cases o <;> rfl

theorem StripsAlike.isSome_eq (h : l.StripsAlike g sel) :
    ((ofBody l.body).strip g sel).1.isSome = (l.strip g sel).1.isSome := by
  have hbody := congrArg Option.isSome h.body
  rwa [Option.isSome_map, Option.isSome_map] at hbody

theorem ending_of_strip {m : Line} (h : (l.strip g sel).1 = some m) : m.ending = l.ending := by
  unfold strip at h
  simp only at h
  split at h
  · rw [← Option.some.inj h]
  · split at h
    · cases h
    · rw [← Option.some.inj h]

/-- Without its line feed, what is left of the line shows where the carriage return is. -/
theorem StripsAlike.text_eq_iff (hsel : l.StripsAlike g sel) {m m' : Line}
    (h : (l.strip g sel).1 = some m) (h' : ((ofBody l.body).strip g sel).1 = some m') :
    m'.text = m.text ↔ l.Stable := by
  have hbody : m'.body = m.body := by
    have hbody := hsel.body
    rwa [h, h', Option.map_some, Option.map_some, Option.some_inj] at hbody
  have hending := ending_of_strip h
  have hending' := ending_of_strip h'
  -- both are written as the same text, so that their texts and terminators differ together
  rw [← ending_ofBody_body_iff, ← hending, ← hending']
  obtain ⟨t, e⟩ := m
  obtain ⟨t', e'⟩ := m'
  constructor
  · intro hsame
    obtain rfl : t' = t := hsame
    exact body_mk_inj.1 hbody
  · intro hsame
    obtain rfl : e' = e := hsame
    cases e' with
    | lf => exact hbody
    | crlf => exact List.append_cancel_right hbody

end Line

/-! ## Section 2: Documents -/

namespace Document

variable {g : Grammar} {d d' : Document} {sel : Selector}

/-- The last line, if no terminator follows it. -/
def openLine (d : Document) : Option Line :=
  if d.terminated then none else d.lines.getLast?

/-- The document with the terminators that are read back. -/
def reread (d : Document) : Document :=
  { d with lines := d.completeLines.map (fun l => .ofBody l.body) ++ d.openLine.toList }

theorem lines_eq_append (d : Document) : d.lines = d.completeLines ++ d.openLine.toList := by
  unfold completeLines openLine
  split
  · simp
  · rcases List.eq_nil_or_concat' d.lines with hnil | ⟨ls, l, hlines⟩
    · simp [hnil]
    · simp [hlines]

theorem render_eq_append (d : Document) :
    d.render = d.completeLines.flatMap Line.render ++ (d.openLine.map Line.text).getD [] := by
  unfold render completeLines openLine
  cases d.terminated with
  | true => simp [renderLines_true]
  | false =>
    rcases List.eq_nil_or_concat' d.lines with hnil | ⟨ls, l, hlines⟩
    · rw [hnil]
      rfl
    · simp [hlines, renderLines_false_append]

/-- Some lines with their terminators, and perhaps one without. -/
theorem completeLines_and_openLine {C : List Line} {o : Option Line}
    (hlines : d.lines = C ++ o.toList) (hopen : d.terminated = true → o = none)
    (hnil : d.terminated = false → o = none → C = []) :
    d.completeLines = C ∧ d.openLine = o := by
  unfold completeLines openLine
  cases hterminated : d.terminated with
  | true => simp [hlines, hopen hterminated]
  | false =>
    cases o with
    | none => simp [hlines, hnil hterminated rfl]
    | some l => simp [hlines]

theorem openLine_of_terminated (h : d.terminated = true) : d.openLine = none :=
  if_pos h

theorem completeLines_eq_nil (h : d.terminated = false) (hopen : d.openLine = none) :
    d.completeLines = [] := by
  unfold openLine at hopen
  rw [h, if_neg Bool.false_ne_true, List.getLast?_eq_none_iff] at hopen
  simp [completeLines, hopen]

theorem completeLines_and_openLine_reread (d : Document) :
    d.reread.completeLines = d.completeLines.map (fun l => .ofBody l.body) ∧
      d.reread.openLine = d.openLine := by
  refine completeLines_and_openLine (d := d.reread) rfl (openLine_of_terminated (d := d)) ?_
  intro h hopen
  have hnil : d.completeLines = [] := completeLines_eq_nil h hopen
  rw [hnil]
  rfl

theorem completeLines_reread (d : Document) :
    d.reread.completeLines = d.completeLines.map fun l => .ofBody l.body :=
  d.completeLines_and_openLine_reread.1

theorem openLine_reread (d : Document) : d.reread.openLine = d.openLine :=
  d.completeLines_and_openLine_reread.2

theorem length_reread (d : Document) : d.reread.length = d.length := by
  unfold length
  rw [d.lines_eq_append]
  simp [reread]

/-- Both are written as the same text. -/
theorem render_reread (d : Document) : d.reread.render = d.render := by
  have hline : ∀ l : Line, (Line.ofBody l.body).render = l.render := by
    intro l
    rw [Line.render_eq_body, Line.render_eq_body, Line.body_ofBody]
  rw [render_eq_append, render_eq_append, completeLines_reread, openLine_reread, List.flatMap_map]
  simp only [hline]

theorem keepsReturns_reread (d : Document) : d.reread.KeepsReturns := by
  intro l hl
  rw [completeLines_reread] at hl
  obtain ⟨k, -, rfl⟩ := List.mem_map.1 hl
  exact Line.stable_ofBody _

theorem reread_eq_self (h : d.KeepsReturns) : d.reread = d := by
  have hsame : (d.completeLines.map fun l => Line.ofBody l.body) = d.completeLines := by
    conv_rhs => rw [← List.map_id d.completeLines]
    exact List.map_congr_left h
  unfold reread
  rw [hsame, ← lines_eq_append]

theorem OneLine.reread (h : d.OneLine) : d.reread.OneLine := by
  intro l hl hmem
  rcases List.mem_append.1 hl with hl | hl
  · obtain ⟨k, hk, rfl⟩ := List.mem_map.1 hl
    have hbody := Line.newline_not_mem_body
      (h k (d.lines_eq_append ▸ List.mem_append_left _ hk))
    rw [← Line.body_ofBody k.body] at hbody
    apply hbody
    unfold Line.body
    split
    · exact hmem
    · exact List.mem_append_left _ hmem
  · exact h l (d.lines_eq_append ▸ List.mem_append_right _ hl) hmem

theorem endsEmpty_iff_openLine (d : Document) :
    d.EndsEmpty ↔ d.openLine.map Line.text = some [] := by
  unfold EndsEmpty openLine texts
  cases d.terminated with
  | true => simp
  | false => simp [List.getLast?_map]

theorem endsEmpty_reread : d.reread.EndsEmpty ↔ d.EndsEmpty := by
  rw [endsEmpty_iff_openLine, endsEmpty_iff_openLine, openLine_reread]

/-- Tags are found and placed on the same lines. -/
theorem pads_reread (d : Document) : d.Pads d.reread := by
  refine ⟨d.texts, 0, by simp, ?_⟩
  unfold texts
  rw [d.lines_eq_append, List.forall₂_map_left_iff, List.forall₂_map_right_iff]
  unfold reread
  refine List.rel_append ?_ (List.forall₂_same.2 fun _ _ => .inl rfl)
  rw [List.forall₂_map_right_iff]
  exact List.forall₂_same.2 fun l _ => l.sameButReturn_ofBody_body

/-- Documents of the same shape are written as the same text if the same stands in front of
    each line feed, and behind the last one. -/
theorem render_eq_iff (hline : d.OneLine) (hline' : d'.OneLine)
    (hopen : d.openLine.isSome = d'.openLine.isSome) :
    d.render = d'.render ↔ d.completeLines.map Line.body = d'.completeLines.map Line.body ∧
      d.openLine.map Line.text = d'.openLine.map Line.text := by
  have hsplit : ∀ {d : Document}, d.OneLine → splitBodies [] d.render =
      (d.completeLines.map Line.body, (d.openLine.map Line.text).getD []) := by
    intro d hline
    rw [render_eq_append]
    unfold OneLine at hline
    rw [d.lines_eq_append] at hline
    refine splitBodies_flatMap_render (fun l hl => hline l (List.mem_append_left _ hl)) ?_
    cases ho : d.openLine with
    | none => simp
    | some l => exact hline l (by simp [ho])
  constructor
  · intro hsame
    have hparts := hsplit hline
    rw [hsame, hsplit hline'] at hparts
    obtain ⟨hbodies, hrest⟩ := Prod.mk.inj hparts
    refine ⟨hbodies.symm, ?_⟩
    cases ho : d.openLine with
    | none =>
      rw [ho] at hopen
      rw [Option.isNone_iff_eq_none.1 (Option.isSome_eq_false_iff.1 hopen.symm)]
    | some l =>
      rw [ho] at hopen hrest
      obtain ⟨l', hl'⟩ := Option.isSome_iff_exists.1 hopen.symm
      rw [hl'] at hrest ⊢
      exact congrArg some hrest.symm
  · intro hparts
    obtain ⟨hbodies, hrest⟩ := hparts
    have hflat : ∀ ls : List Line,
        ls.flatMap Line.render = (ls.map Line.body).flatMap (· ++ ['\n']) := by
      intro ls
      rw [List.flatMap_map]
      exact List.flatMap_congr fun l _ => l.render_eq_body
    rw [render_eq_append, render_eq_append, hflat, hflat, hbodies, hrest]

/-! ## Section 3: Removing tags -/

/-- The last line goes with its tags, and the one above it, which is the last one now and loses
    its terminator, has a carriage return in front of that. -/
def UncoversReturn (g : Grammar) (d : Document) (sel : Selector) : Prop :=
  (∃ l ∈ d.openLine, (l.strip g sel).1 = none) ∧
    ∃ l ∈ (d.completeLines.filter fun l => (l.strip g sel).1.isSome).getLast?, ¬ l.Stable

instance (g : Grammar) (d : Document) (sel : Selector) : Decidable (d.UncoversReturn g sel) :=
  inferInstanceAs (Decidable (_ ∧ _))

/-- Each line that can be read back otherwise is stripped alike then. -/
def StripsAlike (g : Grammar) (sel : Selector) (d : Document) : Prop :=
  ∀ l ∈ d.completeLines, l.StripsAlike g sel

instance (g : Grammar) (sel : Selector) (d : Document) : Decidable (d.StripsAlike g sel) :=
  inferInstanceAs (Decidable (∀ l ∈ d.completeLines, l.StripsAlike g sel))

theorem stripsAlike_of_keepsReturns (h : d.KeepsReturns) (g : Grammar) (sel : Selector) :
    d.StripsAlike g sel :=
  fun l hl => Line.stripsAlike_of_stable (h l hl) g sel

theorem stripsAlike_of_isPlain (hsel : sel.IsPlain) (g : Grammar) (d : Document) :
    d.StripsAlike g sel :=
  fun l _ => l.stripsAlike_of_isPlain hsel g

/-- What is left of some lines. -/
theorem map_body_filterMap_strip {ls : List Line} (h : ∀ l ∈ ls, l.StripsAlike g sel) :
    ((ls.map fun l => Line.ofBody l.body).filterMap fun l => (l.strip g sel).1).map Line.body =
      (ls.filterMap fun l => (l.strip g sel).1).map Line.body := by
  rw [List.filterMap_map, List.map_filterMap, List.map_filterMap]
  exact List.filterMap_congr fun l hl => (h l hl).body

theorem lines_remove_eq_append (g : Grammar) (d : Document) (sel : Selector) :
    (d.remove g sel).1.lines = (d.completeLines.filterMap fun l => (l.strip g sel).1) ++
      (d.openLine.bind fun l => (l.strip g sel).1).toList := by
  rw [lines_remove, d.lines_eq_append, List.filterMap_append]
  congr 1
  cases d.openLine with
  | none => rfl
  | some l =>
    simp only [Option.toList_some, Option.bind_some, List.filterMap_cons, List.filterMap_nil]
    cases (l.strip g sel).1 <;> rfl

/-- As many tags and lines are removed. -/
theorem snd_remove_reread (hsel : d.StripsAlike g sel) :
    (d.reread.remove g sel).2 = (d.remove g sel).2 := by
  have hlength : (d.reread.remove g sel).1.lines.length = (d.remove g sel).1.lines.length := by
    have hbodies := congrArg List.length (map_body_filterMap_strip hsel)
    rw [List.length_map, List.length_map] at hbodies
    rw [lines_remove_eq_append, lines_remove_eq_append, completeLines_reread, openLine_reread,
      List.length_append, List.length_append, hbodies]
  have hcounts : (d.reread.lines.map fun l => (l.strip g sel).2) =
      d.lines.map fun l => (l.strip g sel).2 := by
    rw [d.reread.lines_eq_append, d.lines_eq_append, completeLines_reread, openLine_reread,
      List.map_append, List.map_append, List.map_map]
    congr 1
    exact List.map_congr_left fun l hl => (hsel l hl).count
  have htags : (d.reread.remove g sel).2.tagsRemoved = (d.remove g sel).2.tagsRemoved := by
    rw [tagsRemoved_remove, tagsRemoved_remove, hcounts]
  have hgone : ∀ d : Document,
      (d.remove g sel).2.linesRemoved = d.length - (d.remove g sel).1.lines.length :=
    fun _ => rfl
  have hremoved : (d.reread.remove g sel).2.linesRemoved = (d.remove g sel).2.linesRemoved := by
    rw [hgone, hgone, hlength, length_reread]
  exact congrArg₂ Removal.mk htags hremoved

/-- What is left of the lines, if the last one is terminated or is left. -/
theorem remove_parts (h : d.terminated = true ∨
      (d.openLine.bind fun l => (l.strip g sel).1).isSome = true) :
    (d.remove g sel).1.completeLines = (d.completeLines.filterMap fun l => (l.strip g sel).1) ∧
      (d.remove g sel).1.openLine = d.openLine.bind fun l => (l.strip g sel).1 := by
  refine completeLines_and_openLine (lines_remove_eq_append g d sel) (fun hterminated => ?_) ?_
  · have hnone : d.openLine = none := openLine_of_terminated hterminated
    rw [hnone]
    rfl
  · intro hterminated hgone
    rcases h with h | h
    · exact absurd (hterminated.symm.trans h) (by decide)
    · rw [hgone] at h
      cases h

/-- What is left of the lines, if the last one has no terminator and goes: it is followed by the
    last one of the others. -/
theorem remove_parts_of_last {ls : List Line} {l m : Line} (hterminated : d.terminated = false)
    (hgone : d.openLine.bind (fun l => (l.strip g sel).1) = none)
    (hleft : (d.completeLines.filter fun l => (l.strip g sel).1.isSome) = ls ++ [l])
    (hl : (l.strip g sel).1 = some m) :
    (d.remove g sel).1.completeLines = ls.filterMap (fun l => (l.strip g sel).1) ∧
      (d.remove g sel).1.openLine = some m := by
  have hfilter : (d.completeLines.filterMap fun l => (l.strip g sel).1) =
      (d.completeLines.filter fun l => (l.strip g sel).1.isSome).filterMap
        fun l => (l.strip g sel).1 := by
    rw [List.filterMap_filter]
    refine List.filterMap_congr fun l _ => ?_
    cases (l.strip g sel).1 <;> rfl
  refine completeLines_and_openLine ?_ (fun h => ?_) (by simp)
  · rw [lines_remove_eq_append, hgone, hfilter, hleft, List.filterMap_append]
    simp [hl]
  · exact absurd (hterminated.symm.trans h) (by decide)

/-- The last line that is left is written without its terminator in both documents. -/
theorem render_remove_reread_iff_stable (hsel : d.StripsAlike g sel) (hline : d.OneLine)
    {ls : List Line} {l : Line} (hterminated : d.terminated = false)
    (hgone : d.openLine.bind (fun l => (l.strip g sel).1) = none)
    (hleft : (d.completeLines.filter fun l => (l.strip g sel).1.isSome) = ls ++ [l]) :
    (d.reread.remove g sel).1.render = (d.remove g sel).1.render ↔ l.Stable := by
  have hmem : ∀ k ∈ ls ++ [l], k ∈ d.completeLines ∧ (k.strip g sel).1.isSome = true :=
    fun k hk => List.mem_filter.1 (hleft ▸ hk)
  obtain ⟨hl, hkept⟩ := hmem l (by simp)
  have hls : ∀ k ∈ ls, k.StripsAlike g sel :=
    fun k hk => hsel k (hmem k (List.mem_append_left _ hk)).1
  obtain ⟨m, hm⟩ := Option.isSome_iff_exists.1 hkept
  obtain ⟨m', hm'⟩ := Option.isSome_iff_exists.1 ((hsel l hl).isSome_eq.trans hkept)
  have hleft' : (d.reread.completeLines.filter fun l => (l.strip g sel).1.isSome) =
      (ls.map fun l => Line.ofBody l.body) ++ [Line.ofBody l.body] := by
    have hfilter := List.filter_congr fun k hk => (hsel k hk).isSome_eq
    rw [completeLines_reread, List.filter_map]
    simp only [Function.comp_def, hfilter, hleft, List.map_append, List.map_singleton]
  obtain ⟨hcomplete, hlast⟩ := remove_parts_of_last hterminated hgone hleft hm
  obtain ⟨hcomplete', hlast'⟩ :=
    remove_parts_of_last (d := d.reread) hterminated (d.openLine_reread ▸ hgone) hleft' hm'
  rw [render_eq_iff (hline.reread.remove g sel) (hline.remove g sel) (by rw [hlast, hlast']; rfl),
    hcomplete, hcomplete', hlast, hlast', ← (hsel l hl).text_eq_iff hm hm']
  simp only [map_body_filterMap_strip hls, true_and, Option.map_some, Option.some.injEq]

/-- Tags are removed in the same way, unless a carriage return comes to stand at the end of the
    text. -/
theorem render_remove_reread_iff (hsel : d.StripsAlike g sel) (hline : d.OneLine) :
    (d.reread.remove g sel).1.render = (d.remove g sel).1.render ↔ ¬ d.UncoversReturn g sel := by
  have hbodies := map_body_filterMap_strip hsel
  by_cases hlast : d.terminated = true ∨ (d.openLine.bind fun l => (l.strip g sel).1).isSome = true
  · -- all that is left is followed by what followed it before
    have hlast' : d.reread.terminated = true ∨
        (d.reread.openLine.bind fun l => (l.strip g sel).1).isSome = true := by
      rwa [openLine_reread]
    obtain ⟨hcomplete, hopen⟩ := remove_parts hlast
    obtain ⟨hcomplete', hopen'⟩ := remove_parts hlast'
    rw [completeLines_reread] at hcomplete'
    rw [openLine_reread] at hopen'
    refine iff_of_true ?_ ?_
    · rw [render_eq_iff (hline.reread.remove g sel) (hline.remove g sel) (by rw [hopen, hopen']),
        hcomplete, hcomplete', hopen, hopen']
      exact ⟨hbodies, rfl⟩
    · intro huncovers
      obtain ⟨⟨l, hl, hgone⟩, -⟩ := huncovers
      rcases hlast with hterminated | hkept
      · rw [openLine_of_terminated hterminated] at hl
        cases hl
      · rw [Option.mem_def.1 hl, Option.bind_some, hgone] at hkept
        cases hkept
  · rw [not_or, Bool.not_eq_true, Bool.not_eq_true, Option.isSome_eq_false_iff,
      Option.isNone_iff_eq_none] at hlast
    obtain ⟨hterminated, hgone⟩ := hlast
    rcases List.eq_nil_or_concat' (d.completeLines.filter fun l => (l.strip g sel).1.isSome) with
      hnil | ⟨ls, l, hleft⟩
    · -- no line is left
      have hnone : (d.completeLines.filterMap fun l => (l.strip g sel).1) = [] := by
        rw [List.filterMap_eq_nil_iff]
        intro l hl
        have hgone := List.filter_eq_nil_iff.1 hnil l hl
        rwa [Bool.not_eq_true, Option.isSome_eq_false_iff, Option.isNone_iff_eq_none] at hgone
      have hlines : (d.remove g sel).1.lines = [] := by
        rw [lines_remove_eq_append, hgone, hnone]
        rfl
      have hlines' : (d.reread.remove g sel).1.lines = [] := by
        rw [lines_remove_eq_append, openLine_reread, hgone, completeLines_reread,
          List.map_eq_nil_iff.1 (hbodies.trans (by rw [hnone]; rfl))]
        rfl
      refine iff_of_true ?_ ?_
      · unfold render
        rw [hlines, hlines']
        rfl
      · intro huncovers
        obtain ⟨-, l, hl, -⟩ := huncovers
        rw [hnil] at hl
        cases hl
    · -- the last line that is left has lost its terminator
      rw [render_remove_reread_iff_stable hsel hline hterminated hgone hleft]
      unfold UncoversReturn
      rw [hleft, List.getLast?_concat]
      constructor
      · intro hstable huncovers
        obtain ⟨-, k, hk, hunstable⟩ := huncovers
        obtain rfl := Option.some.inj hk
        exact hunstable hstable
      · intro hcovered
        by_contra hunstable
        refine hcovered ⟨?_, l, rfl, hunstable⟩
        cases hopen : d.openLine with
        | none =>
          rw [completeLines_eq_nil hterminated hopen] at hleft
          simp at hleft
        | some k => exact ⟨k, rfl, by rwa [hopen] at hgone⟩

end Document

/-! ## Section 4: Writing tags -/

theorem Tag.head?_render_ne_return (g : Grammar) (t : Tag) : (t.render g).head? ≠ some '\r' := by
  obtain ⟨c, opener, hopener⟩ := List.exists_cons_of_ne_nil g.opener_ne_nil
  have hreturn := g.return_not_mem_opener
  have hhead : (t.render g).head? = some c := by
    rw [Tag.render_eq, Grammar.headText, hopener]
    simp
  rw [hhead]
  rintro ⟨⟩
  exact hreturn (hopener ▸ List.mem_cons_self)

namespace Site

variable {g : Grammar} {d : Document} {s s' : Site} {identifier : List Char}

/-- The lines of the document before whose ends decide how the tags are written: those that
    they are put on, and if there is a new one, that from which it takes its terminator. -/
def bases (s : Site) : List Nat :=
  if s.blankInserted then [s.start - 1, s.stop - 1] else [s.start, s.stop]

/-- The tag that is put on a line. -/
def tagOn (g : Grammar) (identifier : List Char) (s : Site) (i : Nat) : List Char :=
  if i = s.start then
    Tag.render g ⟨identifier, if s.start = s.stop then .single else .start, s.blankInserted⟩
  else if i = s.stop then Tag.render g ⟨identifier, .finish, false⟩ else []

/-- A line with its tag. -/
def tagged (g : Grammar) (identifier : List Char) (s : Site) (i : Nat) (l : Line) : Line :=
  ⟨l.text ++ s.tagOn g identifier i, l.ending⟩

theorem tagOn_eq_nil {i : Nat} (hstart : i ≠ s.start) (hstop : i ≠ s.stop) :
    s.tagOn g identifier i = [] := by
  rw [tagOn, if_neg hstart, if_neg hstop]

theorem tagOn_ne_nil (g : Grammar) (identifier : List Char) {i : Nat}
    (h : i = s.start ∨ i = s.stop) :
    s.tagOn g identifier i ≠ [] ∧ (s.tagOn g identifier i).head? ≠ some '\r' := by
  unfold tagOn
  split
  · exact ⟨Tag.render_ne_nil g _, Tag.head?_render_ne_return g _⟩
  · next hstart =>
    rw [if_pos (h.resolve_left hstart)]
    exact ⟨Tag.render_ne_nil g _, Tag.head?_render_ne_return g _⟩

theorem lines_write (g : Grammar) (identifier : List Char) (s : Site) :
    (s.write g identifier).lines = s.document.lines.mapIdx (s.tagged g identifier) := by
  apply List.ext_getElem?
  intro i
  unfold write tagged tagOn Document.appendTo
  simp only [List.getElem?_mapIdx]
  split
  · next hsame =>
    simp only [List.getElem?_modify, hsame]
    cases s.document.lines[i]? with
    | none => rfl
    | some l =>
      by_cases hi : i = s.stop
      · simp [hi]
      · simp [hi, Ne.symm hi]
  · next hother =>
    simp only [List.getElem?_modify]
    cases s.document.lines[i]? with
    | none => rfl
    | some l =>
      by_cases hi : i = s.start
      · simp [hi, Ne.symm hother]
      · by_cases hj : i = s.stop
        · simp [hj, hother, Ne.symm hother]
        · simp [hi, hj, Ne.symm hi, Ne.symm hj]

/-- The carriage return can be seen if a tag is put behind it, or in its place. -/
theorem body_tagged_ofBody_iff (i : Nat) (l : Line) :
    (s.tagged g identifier i (.ofBody l.body)).body = (s.tagged g identifier i l).body ↔
      (i = s.start ∨ i = s.stop → l.Stable) := by
  unfold tagged
  by_cases hi : i = s.start ∨ i = s.stop
  · obtain ⟨hne, hhead⟩ := tagOn_ne_nil g identifier hi
    rw [Line.body_append_iff hne hhead]
    simp [hi]
  · obtain ⟨hstart, hstop⟩ := not_or.1 hi
    rw [tagOn_eq_nil hstart hstop, List.append_nil, List.append_nil]
    exact iff_of_true (Line.body_ofBody l.body) fun h => absurd h hi

theorem Pads.tagged_eq (h : s.Pads s') (g : Grammar) (identifier : List Char) :
    s'.tagged g identifier = s.tagged g identifier := by
  funext i l
  unfold tagged tagOn
  rw [h.start, h.stop, h.blankInserted]

/-- The lines with tags on them. -/
theorem write_parts {C : List Line} {o : Option Line} (identifier : List Char) (hs : s.Fits g d)
    (hlines : s.document.lines = C ++ o.toList) (hopen : d.terminated = true → o = none)
    (hnil : d.terminated = false → o = none → C = []) :
    (s.write g identifier).completeLines = C.mapIdx (s.tagged g identifier) ∧
      (s.write g identifier).openLine = o.map (s.tagged g identifier C.length) := by
  refine Document.completeLines_and_openLine ?_ (fun h => ?_) (fun h ho => ?_)
  · rw [lines_write, hlines, List.mapIdx_append]
    cases o <;> simp
  · rw [hopen (Document.terminated_write hs ▸ h)]
    rfl
  · rw [hnil (Document.terminated_write hs ▸ h) (Option.map_eq_none_iff.1 ho), List.mapIdx_nil]

end Site

theorem map_body_mapIdx_eq_iff {f : Nat → Line → Line} {C C' : List Line}
    (hlen : C'.length = C.length) :
    (C'.mapIdx f).map Line.body = (C.mapIdx f).map Line.body ↔
      ∀ i l l', C[i]? = some l → C'[i]? = some l' → (f i l').body = (f i l).body := by
  constructor
  · intro h i l l' hl hl'
    have hi := congrArg (·[i]?) h
    simpa [hl, hl'] using hi
  · intro h
    apply List.ext_getElem?
    intro i
    rw [List.getElem?_map, List.getElem?_map, List.getElem?_mapIdx, List.getElem?_mapIdx]
    cases hl : C[i]? with
    | none =>
      have hnone : C'[i]? = none := by
        rw [List.getElem?_eq_none_iff] at hl ⊢
        omega
      rw [hnone]
    | some l =>
      obtain ⟨hi, -⟩ := List.getElem?_eq_some_iff.1 hl
      have hl' : C'[i]? = some C'[i] := List.getElem?_eq_getElem (hlen ▸ hi)
      rw [hl']
      exact congrArg some (h i l _ hl hl')

namespace Document

variable {g : Grammar} {d : Document} {s s' : Site} {identifier : List Char}

/-- Tags are put on the lines that there are. -/
theorem render_write_reread_iff_of_not_inserted (h : s.Pads s') (hs : s.Fits g d)
    (hs' : s'.Fits g d.reread) (he : (s.write g identifier).OneLine)
    (he' : (s'.write g identifier).OneLine) (hblank : s.blankInserted = false) :
    (s'.write g identifier).render = (s.write g identifier).render ↔
      ∀ i, i = s.start ∨ i = s.stop → ∀ l ∈ d.completeLines[i]?, l.Stable := by
  have hdoc : s.document = d := by rw [hs.document, if_neg (by simp [hblank])]
  have hdoc' : s'.document = d.reread := by
    rw [hs'.document, if_neg (by simp [← h.blankInserted, hblank])]
  obtain ⟨hcomplete, hopen⟩ := Site.write_parts identifier hs
    (hdoc ▸ d.lines_eq_append) openLine_of_terminated completeLines_eq_nil
  obtain ⟨hcomplete', hopen'⟩ := Site.write_parts identifier hs'
    (hdoc' ▸ d.reread.lines_eq_append) openLine_of_terminated completeLines_eq_nil
  rw [completeLines_reread, h.tagged_eq] at hcomplete'
  rw [completeLines_reread, openLine_reread, h.tagged_eq, List.length_map] at hopen'
  rw [render_eq_iff he' he (by rw [hopen, hopen']), hcomplete, hcomplete', hopen, hopen',
    and_iff_left rfl, map_body_mapIdx_eq_iff (by simp)]
  simp only [List.getElem?_map, Option.map_eq_some_iff]
  constructor
  · intro hsame i hi l hl
    exact Site.body_tagged_ofBody_iff i l |>.1 (hsame i l _ hl ⟨l, hl, rfl⟩) hi
  · intro hstable i l l' hl hl'
    obtain ⟨k, hk, rfl⟩ := hl'
    obtain rfl := Option.some.inj (hl.symm.trans hk)
    exact (Site.body_tagged_ofBody_iff i l).2 fun hi => hstable i hi l hl

/-- A new line has the same terminator if the line that it comes from is read back as it is. -/
theorem endingAt_reread_iff {i : Nat} (hpos : 0 < d.length) (hi : i ≤ d.length) :
    d.reread.endingAt i = d.endingAt i ↔ ∀ l ∈ d.completeLines[i - 1]?, l.Stable := by
  have hending := endingOf_pred hpos hi
  have hending' := endingOf_pred (d := d.reread) (i := i) (by rwa [length_reread])
    (by rwa [length_reread])
  rw [← Option.some_inj, ← hending, ← hending']
  unfold endingOf
  rw [d.reread.lines_eq_append, d.lines_eq_append, completeLines_reread, openLine_reread,
    List.getElem?_append, List.getElem?_append, List.length_map]
  split
  · next hlt =>
    rw [List.getElem?_map, List.getElem?_eq_getElem hlt]
    simp [Line.ending_ofBody_body_iff]
  · next hge =>
    rw [List.getElem?_eq_none (Nat.le_of_not_lt hge)]
    simp

/-- A line is inserted for a tag, above the last line or below one with a terminator. -/
theorem render_write_reread_iff_of_inserted (h : s.Pads s') (hs : s.Fits g d)
    (hs' : s'.Fits g d.reread) (he : (s.write g identifier).OneLine)
    (he' : (s'.write g identifier).OneLine) (hpos : 0 < d.length)
    (hblank : s.blankInserted = true) (hle : s.start ≤ d.completeLines.length) :
    (s'.write g identifier).render = (s.write g identifier).render ↔
      d.reread.endingAt s.start = d.endingAt s.start ∧
        (s.start < s.stop → ∀ l ∈ d.completeLines[s.stop - 1]?, l.Stable) := by
  have hlines : s.document.lines =
      d.completeLines.insertIdx s.start ⟨[], d.endingAt s.start⟩ ++ d.openLine.toList := by
    rw [hs.document, if_pos hblank, insertBlank]
    simp only
    rw [d.lines_eq_append, insertIdx_append_of_le hle]
  have hlines' : s'.document.lines =
      d.reread.completeLines.insertIdx s.start ⟨[], d.reread.endingAt s.start⟩ ++
        d.reread.openLine.toList := by
    rw [hs'.document, ← h.blankInserted, ← h.start, if_pos hblank, insertBlank]
    simp only
    rw [d.reread.lines_eq_append, insertIdx_append_of_le]
    rw [completeLines_reread, List.length_map]
    exact hle
  have hsomeLine : d.terminated = false → d.openLine ≠ none := by
    intro hterminated hopen
    have hlen := congrArg List.length d.lines_eq_append
    rw [completeLines_eq_nil hterminated hopen, hopen] at hlen
    exact Nat.lt_irrefl _ (Nat.lt_of_lt_of_eq hpos hlen)
  obtain ⟨hcomplete, hopen⟩ := Site.write_parts identifier hs hlines
    openLine_of_terminated fun hterminated hnone => absurd hnone (hsomeLine hterminated)
  obtain ⟨hcomplete', hopen'⟩ := Site.write_parts identifier hs' hlines'
    openLine_of_terminated fun hterminated hnone =>
      absurd (d.openLine_reread ▸ hnone) (hsomeLine hterminated)
  have hlen : (d.reread.completeLines.insertIdx s.start ⟨[], d.reread.endingAt s.start⟩).length =
      (d.completeLines.insertIdx s.start ⟨[], d.endingAt s.start⟩).length := by
    rw [completeLines_reread, List.length_insertIdx, List.length_insertIdx, List.length_map]
  rw [h.tagged_eq] at hcomplete'
  rw [openLine_reread, h.tagged_eq, hlen] at hopen'
  rw [render_eq_iff he' he (by rw [hopen, hopen']), hcomplete, hcomplete', hopen, hopen',
    and_iff_left rfl, map_body_mapIdx_eq_iff hlen]
  simp only [completeLines_reread, List.getElem?_insertIdx, List.length_map, List.getElem?_map]
  have hread : ∀ {o : Option Line} {l l' : Line}, o = some l →
      o.map (fun l => Line.ofBody l.body) = some l' → l' = .ofBody l.body := by
    rintro o l l' rfl hl'
    exact (Option.some.inj hl').symm
  constructor
  · intro hsame
    refine ⟨?_, fun hlt l hl => ?_⟩
    · have hnew := hsame s.start _ _ (by simp [hle]; rfl) (by simp [hle]; rfl)
      exact Line.body_mk_inj.1 hnew
    · have hno : ¬ s.stop < s.start := by omega
      have hne : s.stop ≠ s.start := by omega
      refine (Site.body_tagged_ofBody_iff s.stop l).1 (hsame s.stop l _ ?_ ?_) (.inr rfl)
      · rw [if_neg hno, if_neg hne]
        exact hl
      · rw [if_neg hno, if_neg hne, Option.mem_def.1 hl]
        rfl
  · intro hboth i l l' hl hl'
    obtain ⟨hending, hstable⟩ := hboth
    have hstop := hs.le
    -- the line is above the new one, or it is the new one, or it is below
    rcases Nat.lt_trichotomy i s.start with hlt | heq | hgt
    · rw [if_pos hlt] at hl hl'
      obtain rfl := hread hl hl'
      exact (Site.body_tagged_ofBody_iff i l).2 fun hi => by omega
    · rw [if_neg (by omega), if_pos heq, if_pos (by rw [heq]; exact hle)] at hl hl'
      obtain rfl := Option.some.inj hl
      obtain rfl := Option.some.inj hl'
      rw [hending]
    · rw [if_neg (by omega), if_neg (by omega)] at hl hl'
      obtain rfl := hread hl hl'
      refine (Site.body_tagged_ofBody_iff i l).2 fun hi => ?_
      obtain rfl := hi.resolve_left (by omega)
      exact hstable hgt l hl

theorem lines_insertBlank_below {i : Nat} (h : d.lines.length = i) :
    (d.insertBlank i).lines = d.lines ++ [⟨[], d.endingAt i⟩] := by
  rw [insertBlank, ← h, List.insertIdx_length_self]

/-- A line that is inserted below a last line without a terminator is far from all others. -/
theorem render_write_reread_of_below (h : s.Pads s') (hs : s.Fits g d)
    (hs' : s'.Fits g d.reread) (he : (s.write g identifier).OneLine)
    (he' : (s'.write g identifier).OneLine) (hblank : s.blankInserted = true)
    (hlt : d.completeLines.length < s.start) :
    (s'.write g identifier).render = (s.write g identifier).render := by
  obtain ⟨x, hx⟩ : ∃ x, d.openLine = some x := by
    have hle := hs.start_le hblank
    unfold length at hle
    rw [d.lines_eq_append] at hle
    cases hopen : d.openLine with
    | some x => exact ⟨x, rfl⟩
    | none =>
      rw [hopen] at hle
      simp at hle
      omega
  have hlines : d.lines = d.completeLines ++ [x] := by
    rw [d.lines_eq_append, hx]
    rfl
  have hlines' : d.reread.lines = d.completeLines.map (fun l => .ofBody l.body) ++ [x] := by
    rw [d.reread.lines_eq_append, completeLines_reread, openLine_reread, hx]
    rfl
  have hstart : d.lines.length = s.start := by
    have hle := hs.start_le hblank
    unfold length at hle
    rw [hlines, List.length_append, List.length_singleton] at hle ⊢
    omega
  have hopen : d.terminated ≠ true := fun hterminated => by
    rw [openLine_of_terminated hterminated] at hx
    cases hx
  have hdoc : s.document.lines =
      (d.completeLines ++ [x]) ++ (some ⟨[], d.endingAt s.start⟩ : Option Line).toList := by
    rw [hs.document, if_pos hblank, lines_insertBlank_below hstart, hlines]
    rfl
  have hdoc' : s'.document.lines =
      (d.completeLines.map (fun l => .ofBody l.body) ++ [x]) ++
        (some ⟨[], d.reread.endingAt s.start⟩ : Option Line).toList := by
    rw [hs'.document, ← h.blankInserted, ← h.start, if_pos hblank,
      lines_insertBlank_below (d.length_reread.trans hstart), hlines']
    rfl
  obtain ⟨hcomplete, hlast⟩ := Site.write_parts identifier hs hdoc
    (fun h => absurd h hopen) (by simp)
  obtain ⟨hcomplete', hlast'⟩ := Site.write_parts identifier hs' hdoc'
    (fun h => absurd h hopen) (by simp)
  have hlen : (d.completeLines.map (fun l => Line.ofBody l.body) ++ [x]).length =
      (d.completeLines ++ [x]).length := by simp
  have hbodies : (d.completeLines.map (fun l => Line.ofBody l.body) ++ [x]).map Line.body =
      (d.completeLines ++ [x]).map Line.body := by
    simp [Line.body_ofBody]
  rw [h.tagged_eq] at hcomplete' hlast'
  rw [hlen] at hlast'
  rw [render_eq_iff he' he (by rw [hlast, hlast']; rfl), hcomplete, hcomplete', hlast, hlast',
    map_body_mapIdx_eq_iff hlen]
  refine ⟨?_, rfl⟩
  -- the tag is below all of these lines
  intro i l l' hl hl'
  have hi : i < s.start := by
    obtain ⟨hi, -⟩ := List.getElem?_eq_some_iff.1 hl
    rwa [← hlines, hstart] at hi
  have hstop := hs.le
  have hsame := congrArg (·[i]?) hbodies
  simp only [List.getElem?_map, hl, hl', Option.map_some, Option.some.injEq] at hsame
  unfold Site.tagged
  rw [Site.tagOn_eq_nil (by omega) (by omega), List.append_nil, List.append_nil]
  exact hsame

/-- Tags are written in the same way, unless one is put behind a carriage return at the end of a
    line, or on a new line that takes its terminator from such a line. -/
theorem render_write_reread_iff (h : s.Pads s') (hs : s.Fits g d) (hs' : s'.Fits g d.reread)
    (he : (s.write g identifier).OneLine) (he' : (s'.write g identifier).OneLine)
    (hpos : 0 < d.length) :
    (s'.write g identifier).render = (s.write g identifier).render ↔
      ∀ i ∈ s.bases, ∀ l ∈ d.completeLines[i]?, l.Stable := by
  unfold Site.bases
  cases hblank : s.blankInserted with
  | false =>
    rw [render_write_reread_iff_of_not_inserted h hs hs' he he' hblank]
    simp
  | true =>
    have hstop := hs.le
    rcases Nat.lt_or_ge d.completeLines.length s.start with hlt | hle
    · -- the lines above the new one are not looked at
      have hnone : ∀ i, d.completeLines.length ≤ i → d.completeLines[i]? = none :=
        fun i hi => List.getElem?_eq_none hi
      refine iff_of_true (render_write_reread_of_below h hs hs' he he' hblank hlt) ?_
      simp [hnone (s.start - 1) (by omega), hnone (s.stop - 1) (by omega)]
    · rw [render_write_reread_iff_of_inserted h hs hs' he he' hpos hblank hle,
        endingAt_reread_iff hpos (hs.start_le hblank)]
      simp only [if_true, List.forall_mem_cons, List.not_mem_nil, false_implies, implies_true,
        and_true]
      refine and_congr_right fun hstable => ⟨fun hlast => ?_, fun hlast _ => hlast⟩
      rcases Nat.lt_or_ge s.start s.stop with hlt | hge
      · exact hlast hlt
      · rwa [show s.stop - 1 = s.start - 1 by omega]

end Document

end Marginalia
