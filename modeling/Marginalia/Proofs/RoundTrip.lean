import Marginalia.Proofs.Reading
import Marginalia.Proofs.Undo

/-! # Taking tags back after they were written

    Between an addition and the removal of its tags a document may be written and read
    again. The lines that are read are those that were written, but for two things: what
    follows the last line feed takes its terminator from the line above, and a carriage
    return at the end of a line goes over into the terminator (`Line.Stable`).

    * **`Annotated.stable_line_of_tags`**: neither happens to the text of a tagged line.
    * **`Site.placed_concat`, `Site.placed_below`**: what becomes of the last line.
    * **`Placement.LosesReturn`**: the one case in which a character is lost. The text
      ends in a carriage return, and a line that is ended by a line feed is added below.
    * **`Document.render_removeTags_parse_render`**: in all other cases taking the tags
      back gives the text that was there before. -/

namespace Marginalia

open Text

/-! ## Section 1: Tagged lines in a text -/

namespace Tag

variable {g : Grammar}

theorem oneLine_render {t : Tag} (ht : g.Names t.identifier) :
    ∀ c ∈ t.render g, isLineBreak c = false := by
  obtain ⟨hb, hs, hc⟩ := g.marks_oneLine
  have hd := g.delimiters_oneLine
  simp only [List.mem_append] at hd
  have hj : isLineBreak joiner = false := by decide
  intro c hmem
  simp only [render, head, tail, List.mem_append, List.mem_cons, List.not_mem_nil,
    or_false, List.mem_ite_nil_right] at hmem
  rcases hmem with ((h | rfl | ⟨-, rfl⟩ | rfl) | h) | rfl | ⟨-, rfl⟩ | ⟨-, rfl⟩ | h
  · exact hd c (.inl h)
  · exact hj
  · exact hb
  · exact hs
  · exact ht.oneLine c h
  · exact hs
  · exact hb
  · exact hc
  · exact hd c (.inr h)

theorem oneLine_renderAll {ts : List Tag} (hts : ∀ t ∈ ts, g.Names t.identifier) :
    ∀ c ∈ renderAll g ts, isLineBreak c = false := by
  intro c hc
  obtain ⟨t, ht, hc⟩ := List.mem_flatMap.1 hc
  exact oneLine_render (hts t ht) c hc

end Tag

namespace Annotated

variable {g : Grammar}

/-- Tags bring no line feed to a line. -/
theorem newline_not_mem_text {n : Annotated g} (h : '\n' ∉ n.own) : '\n' ∉ n.text := by
  intro hmem
  rcases List.mem_append.1 hmem with hmem | hmem
  · exact h hmem
  · exact absurd (Tag.oneLine_renderAll n.names _ hmem) (by decide)

theorem renderAll_tags_ne_nil {n : Annotated g} (h : n.tags ≠ []) :
    Tag.renderAll g n.tags ≠ [] := by
  obtain ⟨t, ts, hts⟩ := List.exists_cons_of_ne_nil h
  rw [hts, Tag.renderAll_cons]
  exact List.append_ne_nil_of_left_ne_nil (Tag.render_ne_nil g t) _

/-- A tagged line ends with a tag, and not with a carriage return. -/
theorem stable_line_of_tags {n : Annotated g} (h : n.tags ≠ []) : n.line.Stable := by
  rw [Line.stable_iff]
  intro _ hlast
  have hne := renderAll_tags_ne_nil h
  have hlast' : (Tag.renderAll g n.tags).getLast? = some '\r' := by
    have htext : n.line.text = n.own ++ Tag.renderAll g n.tags := rfl
    rw [htext, List.getLast?_append_of_ne_nil _ hne] at hlast
    exact hlast
  exact absurd (Tag.oneLine_renderAll n.names _ (List.mem_of_getLast? hlast')) (by decide)

/-- The line with another terminator. -/
def withEnding (e : LineEnding) (n : Annotated g) : Annotated g :=
  { n with ending := e }

@[simp] theorem text_withEnding (e : LineEnding) (n : Annotated g) :
    (n.withEnding e).text = n.text := rfl

theorem strip?_withEnding (p : Tag → Bool) (e : LineEnding) (n : Annotated g) :
    (n.withEnding e).strip? p = (n.strip? p).map (withEnding e) := by
  have hwithout : (n.withEnding e).without p = (n.without p).withEnding e := rfl
  unfold strip?
  rw [hwithout, text_withEnding, apply_ite (Option.map (withEnding e))]
  rfl

end Annotated

/-! ## Section 2: The last line -/

/-- Changing an element of a list changes the last one only at its own index. -/
theorem exists_modify_concat {α : Type*} (f : α → α) (l : List α) (a : α) (i : Nat) :
    ∃ l' a', (l ++ [a]).modify i f = l' ++ [a'] ∧ l'.length = l.length ∧
      (a' = a ∨ i = l.length ∧ a' = f a) := by
  rw [modify_append]
  split
  · exact ⟨l.modify i f, a, rfl, List.length_modify .., .inl rfl⟩
  · by_cases hi : i = l.length
    · exact ⟨l, f a, by simp [hi], rfl, .inr ⟨hi, rfl⟩⟩
    · obtain ⟨j, hj⟩ : ∃ j, i - l.length = j + 1 := ⟨i - l.length - 1, by omega⟩
      exact ⟨l, a, by simp [hj], rfl, .inl rfl⟩

/-- The line `m` is the line `n`, perhaps with more tags, which ask for nothing. -/
structure Annotated.AddsQuietly {g : Grammar} (n m : Annotated g) : Prop where
  own  : m.own = n.own
  tags : ∀ t ∈ m.tags, t ∈ n.tags ∨ t.cleanup = false

namespace Annotated.AddsQuietly

variable {g : Grammar} {n m : Annotated g}

theorem refl (n : Annotated g) : AddsQuietly n n :=
  ⟨rfl, fun _ ht => .inl ht⟩

theorem annotate (h : AddsQuietly n m) {t : Tag} (ht : g.identifierFault? t.identifier = none)
    (hc : t.cleanup = false) : AddsQuietly n (m.annotate t ht) := by
  refine ⟨h.own, ?_⟩
  intro u hu
  rcases List.mem_append.1 hu with hu | hu
  · exact h.tags u hu
  · rw [List.mem_singleton.1 hu]
    exact .inr hc

/-- A tag that asks for nothing, or is written further up, does no more to the last
    line. -/
theorem modify_concat (h : AddsQuietly n m) (ls : List (Annotated g)) {i : Nat} {t : Tag}
    (ht : g.identifierFault? t.identifier = none) (hc : t.cleanup = true → i < ls.length) :
    ∃ ks k, (ls ++ [m]).modify i (fun n => n.annotate t ht) = ks ++ [k] ∧
      ks.length = ls.length ∧ AddsQuietly n k := by
  obtain ⟨ks, k, hmodify, hlen, hk⟩ :=
    exists_modify_concat (fun n : Annotated g => n.annotate t ht) ls m i
  refine ⟨ks, k, hmodify, hlen, ?_⟩
  rcases hk with rfl | ⟨hlast, rfl⟩
  · exact h
  · refine h.annotate ht ?_
    rw [← Bool.not_eq_true]
    intro hclean
    exact absurd (hc hclean) (by omega)

/-- A line that was given only tags that do not ask for it to go is kept without them. -/
theorem strip?_eq {p : Tag → Bool} (h : AddsQuietly n m) (hn : n.tags = []) :
    m.strip? p = some (m.without p) := by
  unfold Annotated.strip?
  rw [if_neg]
  intro hdrop
  rw [Bool.and_eq_true] at hdrop
  obtain ⟨t, ht, hclean⟩ := List.any_eq_true.1 hdrop.1
  rw [Bool.and_eq_true] at hclean
  rcases h.tags t ht with ht | hc
  · simp [hn] at ht
  · rw [hc] at hclean
    exact absurd hclean.2 (by decide)

end Annotated.AddsQuietly

namespace Site

variable {g : Grammar} {d : Document} {s : Site} {identifier : List Char}
  {ns : List (Annotated g)} {n : Annotated g}

/-- The last line stays the last one if the start tag is put on it or above, and what is
    written on it asks for nothing. -/
theorem placed_concat (hstart : s.start ≤ ns.length) (ending : LineEnding)
    (hid : g.identifierFault? identifier = none) :
    ∃ ms m, s.placed ending hid (ns ++ [n]) = ms ++ [m] ∧ n.AddsQuietly m := by
  -- a line that is inserted has its place above the last one
  obtain ⟨ls, hls, hlen⟩ : ∃ ls, s.opened ending (ns ++ [n]) = ls ++ [n] ∧
      (s.blankInserted = true → s.start < ls.length) := by
    unfold opened
    split
    · refine ⟨_, insertIdx_append_of_le hstart [n] _, ?_⟩
      intro _
      rw [List.length_insertIdx_of_le_length hstart]
      omega
    · next hno => exact ⟨ns, rfl, fun hb => absurd hb hno⟩
  have hquiet := Annotated.AddsQuietly.refl n
  unfold placed
  rw [hls]
  split
  · obtain ⟨ms, m, hms, -, hm⟩ :=
      hquiet.modify_concat ls (t := ⟨identifier, .single, s.blankInserted⟩) hid hlen
    exact ⟨ms, m, hms, hm⟩
  · obtain ⟨ks, k, hks, hlen', hk⟩ :=
      hquiet.modify_concat ls (t := ⟨identifier, .finish, false⟩) hid (by simp)
    obtain ⟨ms, m, hms, -, hm⟩ :=
      hk.modify_concat ks (i := s.start) (t := ⟨identifier, .start, s.blankInserted⟩) hid
        (hlen' ▸ hlen)
    exact ⟨ms, m, by rw [hks, hms], hm⟩

/-- Below the last line is only room for a line with one tag. -/
theorem placed_below (hs : s.Fits g d) (hd : d.Shows ns) (hstart : ns.length ≤ s.start)
    (ending : LineEnding) (hid : g.identifierFault? identifier = none) :
    s.placed ending hid ns =
      ns ++ [(Annotated.blank g ending).annotate ⟨identifier, .single, true⟩ hid] := by
  obtain ⟨hb, hstart', hstop⟩ := hs.below (hd.length ▸ hstart)
  have hsame : s.start = s.stop := hstart'.trans hstop.symm
  rw [hd.length] at hstart'
  unfold placed opened
  rw [if_pos hsame, hb, if_pos rfl, modify_insertIdx_self, hstart', List.insertIdx_length_self]

end Site

/-! ## Section 3: What is read back -/

/-- Nothing is written into the texts of lines but empty ones. -/
theorem Edited.forall_own {g : Grammar} {allowed : Tag → Prop} {ns ms : List (Annotated g)}
    {tags blanks : Nat} (h : Edited allowed ns tags blanks ms) {P : List Char → Prop}
    (hnil : P []) (hns : ∀ o ∈ ns.map Annotated.own, P o) : ∀ o ∈ ms.map Annotated.own, P o := by
  induction h with
  | refl => exact hns
  | tag before named allow plain lt free ih =>
    rw [Annotated.map_own_modify]
    exact ih
  | line before ending named allow cleanup le free ih =>
    rw [Annotated.map_own_insertIdx _ _ (Annotated.own_annotate _ _)]
    intro o ho
    rcases List.mem_cons.1 (List.insertIdx_subset_cons _ _ _ ho) with rfl | ho
    · exact hnil
    · exact ih o ho

/-- Lines that are stable without some tags are stable with them. -/
theorem Annotated.stable_of_filterMap_strip? {g : Grammar} {p : Tag → Bool}
    {ns ms : List (Annotated g)} (h : ms.filterMap (strip? p) = ns)
    (hns : ∀ n ∈ ns, n.line.Stable) : ∀ m ∈ ms, m.line.Stable := by
  intro m hm
  by_cases htags : m.tags = []
  · -- a line without tags is left as it is
    apply hns
    rw [← h, List.mem_filterMap]
    exact ⟨m, hm, strip?_eq_self (by simp [htags])⟩
  · exact stable_line_of_tags htags

/-- The text ends in a carriage return, and the start tag was put on a new line below,
    which made a line feed follow it. -/
def Placement.LosesReturn (p : Placement) (text : List Char) : Prop :=
  let d := Document.parse text
  text.getLast? = some '\r' ∧ d.length < p.startLine ∧ d.endingOf (d.length - 1) = some .lf

instance (p : Placement) (text : List Char) : Decidable (p.LosesReturn text) :=
  inferInstanceAs (Decidable (_ ∧ _ ∧ _))

namespace Document

variable {g : Grammar} {text identifier : List Char} {d d' : Document}
  {ns ms : List (Annotated g)}

/-- Removing the tags of an identifier from annotated lines. -/
theorem Shows.removeTags_eq (hg : g.Unmarked) (hsep : g.separator ∉ identifier)
    (hd : d.Shows ms)
    (hstrip : ms.filterMap (Annotated.strip? fun t => t.identifier = identifier) = ns) :
    d.removeTags g identifier =
      (d.withLines ns,
        { tagsRemoved  := (ms.flatMap Annotated.tags).countP fun t => t.identifier = identifier
          linesRemoved := ms.length - ns.length }) := by
  unfold removeTags
  rw [remove_of_shows (Selector.selects_exactly hg hsep) hd, Annotated.total_countP, hstrip]

/-- The lines `ms` were written, and what is read back are the lines `ms'`, which have the
    same tags and are stripped to lines of the text `result`. -/
structure ReadsBack (p : Tag → Bool) (ns ms : List (Annotated g)) (written result : List Char)
    (ms' : List (Annotated g)) : Prop where
  shows  : (parse written).Shows ms'
  tags   : ms'.flatMap Annotated.tags = ms.flatMap Annotated.tags
  length : ms'.length = ms.length
  rest   : (ms'.filterMap (Annotated.strip? p)).length = ns.length
  render : ((parse written).withLines (ms'.filterMap (Annotated.strip? p))).render = result

section
variable {complete : List Line} {rest : List Char} {guess : LineEnding} {p : Tag → Bool}

/-- If the last line of the text is terminated, the lines are read as they were. -/
theorem readsBack_of_terminated (h : Reads text complete [] guess) (hne : complete ≠ [])
    (hd : (parse text).Shows ns) (hlen : ms.length ≠ 0)
    (hown : ∀ o ∈ ms.map Annotated.own, '\n' ∉ o)
    (hstrip : ms.filterMap (Annotated.strip? p) = ns) :
    ReadsBack p ns ms ((parse text).withLines ms).render text ms := by
  have hlines : ns.map Annotated.line = complete := by
    rw [← hd, h.lines]
    simp
  have hend : (parse text).terminated = true := by
    rw [h.terminated]
    simpa using hne
  have hstable := Annotated.stable_of_filterMap_strip? hstrip (by
    intro n hn
    apply h.stable
    rw [← hlines]
    exact List.mem_map_of_mem hn)
  have hwritten : ((parse text).withLines ms).render =
      (ms.map Annotated.line).flatMap Line.render ++ [] := by
    unfold render withLines
    rw [hend, renderLines_true, List.append_nil]
  have hline : ∀ l ∈ ms.map Annotated.line, '\n' ∉ l.text := by
    intro l hl
    obtain ⟨m, hm, rfl⟩ := List.mem_map.1 hl
    exact Annotated.newline_not_mem_text (hown _ (List.mem_map_of_mem hm))
  obtain ⟨guess', hread⟩ := reads_flatMap_render hline
    (by simpa using hstable) (show '\n' ∉ ([] : List Char) by simp)
  rw [hwritten]
  refine ⟨?_, rfl, rfl, by rw [hstrip], ?_⟩
  · unfold Shows
    rw [hread.lines]
    simp
  · rw [hstrip]
    unfold render withLines
    have hend' : (parse ((ms.map Annotated.line).flatMap Line.render ++ [])).terminated = true := by
      rw [hread.terminated]
      cases ms with
      | nil => exact absurd rfl hlen
      | cons m ms => rfl
    simp only [hend', hlines]
    rw [renderLines_true, h.text_eq, List.append_nil]

/-- The lines of a text that goes on behind its last line feed. -/
theorem lines_of_reads_concat {n : Annotated g} (h : Reads text complete rest guess)
    (hrest : rest ≠ []) (hd : (parse text).Shows (ns ++ [n])) (hn : n.tags = []) :
    ns.map Annotated.line = complete ∧ n.line = ⟨rest, guess⟩ ∧ n.own = rest := by
  have hlines : ns.map Annotated.line ++ [n.line] = complete ++ [⟨rest, guess⟩] := by
    have heq := hd.symm.trans h.lines
    simpa [hrest] using heq
  obtain ⟨hcomplete, hlast⟩ := List.append_inj' hlines rfl
  have hline : n.line = ⟨rest, guess⟩ := by simpa using hlast
  refine ⟨hcomplete, hline, ?_⟩
  have htext : n.line.text = n.own := by simp [Annotated.text, hn]
  rw [← htext, hline]

theorem render_withLines_concat {n : Annotated g} (hend : d.terminated = false) :
    (d.withLines (ns ++ [n])).render = (ns.map Annotated.line).flatMap Line.render ++ n.text := by
  unfold render withLines
  rw [hend, List.map_append]
  exact renderLines_false_append _ _

/-- Lines that were written without a terminator at the end are read as they were, but
    perhaps for the terminator of the last one. -/
theorem reads_render_concat {m : Annotated g} (hend : d.terminated = false)
    (hown : ∀ o ∈ (ms ++ [m]).map Annotated.own, '\n' ∉ o)
    (hstable : ∀ n ∈ ms, n.line.Stable) (hne : m.text ≠ []) :
    ∃ e, (parse (d.withLines (ms ++ [m])).render).Shows (ms ++ [m.withEnding e]) ∧
      (parse (d.withLines (ms ++ [m])).render).terminated = false := by
  have hline : ∀ n ∈ ms ++ [m], '\n' ∉ n.text := fun n hn =>
    Annotated.newline_not_mem_text (hown _ (List.mem_map_of_mem hn))
  have hmany : ∀ l ∈ ms.map Annotated.line, '\n' ∉ l.text := by
    intro l hl
    obtain ⟨n, hn, rfl⟩ := List.mem_map.1 hl
    exact hline n (List.mem_append_left _ hn)
  have hstable' : ∀ l ∈ ms.map Annotated.line, l.Stable := by
    intro l hl
    obtain ⟨n, hn, rfl⟩ := List.mem_map.1 hl
    exact hstable n hn
  have hlast : '\n' ∉ m.text := hline m (by simp)
  obtain ⟨e, hread⟩ := reads_flatMap_render hmany hstable' hlast
  rw [render_withLines_concat hend]
  refine ⟨e, ?_, ?_⟩
  · unfold Shows
    rw [hread.lines]
    simp [hne, Annotated.line, Annotated.withEnding]
    rfl
  · rw [hread.terminated]
    simp [hne]

/-- If the last line of the text is still the last one, its own text is read as it was. -/
theorem readsBack_of_last {n m : Annotated g} (h : Reads text complete rest guess)
    (hrest : rest ≠ []) (hd : (parse text).Shows (ns ++ [n])) (hn : n.tags = [])
    (hm : n.AddsQuietly m) (hown : ∀ o ∈ (ms ++ [m]).map Annotated.own, '\n' ∉ o)
    (hstrip : (ms ++ [m]).filterMap (Annotated.strip? p) = ns ++ [n]) :
    ∃ ms', ReadsBack p (ns ++ [n]) (ms ++ [m]) ((parse text).withLines (ms ++ [m])).render text
      ms' := by
  obtain ⟨hlines, -, hlast⟩ := lines_of_reads_concat h hrest hd hn
  have hend : (parse text).terminated = false := by
    rw [h.terminated]
    simp [hrest]
  -- the last line is not dropped, and so the other ones are stripped to the others
  have hkept := hm.strip?_eq (p := p) hn
  rw [List.filterMap_append, List.filterMap_cons, hkept] at hstrip
  obtain ⟨hothers, hsame⟩ := List.append_inj' hstrip rfl
  have hwithout : m.without p = n := by simpa using hsame
  have hstable := Annotated.stable_of_filterMap_strip? hothers (by
    intro k hk
    apply h.stable
    rw [← hlines]
    exact List.mem_map_of_mem hk)
  have hne : m.text ≠ [] := by
    apply List.append_ne_nil_of_left_ne_nil
    rw [hm.own, hlast]
    exact hrest
  obtain ⟨e, hshows, hend'⟩ := reads_render_concat hend hown hstable hne
  have hrest' : (ms ++ [m.withEnding e]).filterMap (Annotated.strip? p) =
      ns ++ [n.withEnding e] := by
    rw [List.filterMap_append, hothers, List.filterMap_cons, Annotated.strip?_withEnding, hkept,
      Option.map_some, hwithout]
    rfl
  refine ⟨ms ++ [m.withEnding e], hshows, ?_, ?_, ?_, ?_⟩
  · simp [Annotated.withEnding]
  · simp
  · rw [hrest']
    simp
  · have hown' : (n.withEnding e).text = rest := by
      rw [Annotated.text_withEnding, Annotated.text, hn, hlast]
      simp
    rw [hrest', render_withLines_concat hend', hlines, hown', h.text_eq]

/-- A line without tags is read back, if another one follows it, as a line without
    tags. -/
theorem exists_ofBody_body {n : Annotated g} (hn : n.tags = []) :
    ∃ n' : Annotated g, n'.line = .ofBody n.line.body ∧ n'.tags = [] ∧
      n'.own = if n.own.getLast? = some '\r' ∧ n.ending = .lf then n.own.dropLast else n.own := by
  have htext : n.line.text = n.own := by simp [Annotated.text, hn]
  by_cases hlost : n.own.getLast? = some '\r' ∧ n.ending = .lf
  · have hhead := Grammar.hasHead_eq_false_of_isInfix n.headless
      (List.dropLast_prefix n.own).isInfix
    refine ⟨⟨n.own.dropLast, [], .crlf, hhead, by simp⟩, ?_, rfl, by rw [if_pos hlost]⟩
    rw [Line.ofBody_body_of_return (htext ▸ hlost.1) hlost.2, htext]
    simp [Annotated.line, Annotated.text]
  · have hstable : n.line.Stable := by
      rw [Line.stable_iff, htext]
      exact fun hlf hlast => hlost ⟨hlast, hlf⟩
    exact ⟨n, hstable.symm, hn, by rw [if_neg hlost]⟩

/-- The lines of a text that goes on behind its last line feed, if that one is followed by
    another: all but the last one are read as they were. -/
theorem map_ofBody_body_concat {n n' : Annotated g} (h : Reads text complete rest guess)
    (hlines : ns.map Annotated.line = complete) (hn' : n'.line = .ofBody n.line.body) :
    ((ns ++ [n]).map Annotated.line).map (fun l => Line.ofBody l.body) =
      (ns ++ [n']).map Annotated.line := by
  have hstable : complete.map (fun l => Line.ofBody l.body) = complete := by
    conv_rhs => rw [← List.map_id complete]
    exact List.map_congr_left fun l hl => h.stable l hl
  rw [List.map_append, List.map_append, List.map_append, hlines, hstable, List.map_singleton,
    List.map_singleton, List.map_singleton, hn']

/-- A line that holds nothing but one tag goes with it, if the tag asks for that. -/
theorem filterMap_strip?_append_blank {t : Tag} (hnone : ns.flatMap Annotated.tags = [])
    (ht : g.identifierFault? t.identifier = none) (hc : t.cleanup = true) (hp : p t = true)
    (e e' : LineEnding) :
    (ns ++ [((Annotated.blank g e).annotate t ht).withEnding e']).filterMap
      (Annotated.strip? p) = ns := by
  have hkept : ns.filterMap (Annotated.strip? p) = ns :=
    Annotated.filterMap_strip?_eq_self (by simp [hnone])
  rw [List.filterMap_append, hkept, List.filterMap_cons, Annotated.strip?_withEnding,
    Annotated.strip?_annotate_blank ht hp hc]
  simp

/-- If a line was added below the last one, a carriage return at the end of that may be
    lost. -/
theorem readsBack_of_below {n : Annotated g} (h : Reads text complete rest guess)
    (hrest : rest ≠ []) (hd : (parse text).Shows (ns ++ [n]))
    (hnone : (ns ++ [n]).flatMap Annotated.tags = [])
    (hown : ∀ o ∈ (ns ++ [n]).map Annotated.own, '\n' ∉ o) {e : LineEnding} {t : Tag}
    (ht : g.identifierFault? t.identifier = none) (hc : t.cleanup = true) (hp : p t = true) :
    ∃ ms', ReadsBack p (ns ++ [n]) (ns ++ [n] ++ [(Annotated.blank g e).annotate t ht])
      ((parse text).withLines (ns ++ [n] ++ [(Annotated.blank g e).annotate t ht])).render
      (if text.getLast? = some '\r' ∧ guess = .lf then text.dropLast else text) ms' := by
  rw [List.flatMap_append, List.append_eq_nil_iff, List.flatMap_singleton] at hnone
  obtain ⟨hothers, hn⟩ := hnone
  obtain ⟨hlines, hline, hlast⟩ := lines_of_reads_concat h hrest hd hn
  have hguess : n.ending = guess := congrArg Line.ending hline
  obtain ⟨n', hbody, htags, hown'⟩ := exists_ofBody_body hn
  rw [hlast, hguess] at hown'
  have hend : (parse text).terminated = false := by
    rw [h.terminated]
    simp [hrest]
  have hne : ((Annotated.blank g e).annotate t ht).text ≠ [] := by
    apply List.append_ne_nil_of_right_ne_nil
    exact Annotated.renderAll_tags_ne_nil (by simp)
  have hbroken : ∀ l ∈ (ns ++ [n]).map Annotated.line, '\n' ∉ l.text := by
    intro l hl
    obtain ⟨m, hm, rfl⟩ := List.mem_map.1 hl
    exact Annotated.newline_not_mem_text (hown _ (List.mem_map_of_mem hm))
  have hbelow : '\n' ∉ ((Annotated.blank g e).annotate t ht).text :=
    Annotated.newline_not_mem_text (by simp)
  -- of the old lines, only the last one may be read in another way
  obtain ⟨e', hread⟩ := parse_flatMap_render hbroken hbelow
  rw [map_ofBody_body_concat h hlines hbody] at hread
  rw [render_withLines_concat hend]
  have hnone' : (ns ++ [n']).flatMap Annotated.tags = [] := by
    rw [List.flatMap_append, hothers]
    simp [htags]
  have hdropped := filterMap_strip?_append_blank (p := p) hnone' ht hc hp e e'
  refine ⟨ns ++ [n'] ++ [((Annotated.blank g e).annotate t ht).withEnding e'], ?_, ?_, ?_, ?_, ?_⟩
  · unfold Shows
    rw [hread.lines]
    simp [hne, Annotated.line, Annotated.withEnding]
    rfl
  · simp [htags, hn, Annotated.withEnding]
  · simp
  · rw [hdropped]
    simp
  · have hend' : (parse (((ns ++ [n]).map Annotated.line).flatMap Line.render ++
        ((Annotated.blank g e).annotate t ht).text)).terminated = false := by
      rw [hread.terminated]
      simp [hne]
    have htext : n'.text = n'.own := by simp [Annotated.text, htags]
    rw [hdropped, render_withLines_concat hend', hlines, htext, hown', h.text_eq,
      List.getLast?_append_of_ne_nil _ hrest]
    split
    · rw [List.dropLast_append_of_ne_nil hrest]
    · rfl

end

/-! ## Section 4: Adding, writing, reading and removing -/

section
variable {complete : List Line} {rest : List Char} {guess : LineEnding}

/-- No line feed stands in a line that was read. -/
theorem Reads.newline_not_mem_own (h : Reads text complete rest guess)
    (hd : (parse text).Shows ns) (hnone : ns.flatMap Annotated.tags = []) :
    ∀ o ∈ ns.map Annotated.own, '\n' ∉ o := by
  intro o ho
  obtain ⟨n, hn, rfl⟩ := List.mem_map.1 ho
  have htags : n.tags = [] := List.flatMap_eq_nil_iff.1 hnone n hn
  have hmem : n.line ∈ (parse text).lines := by
    rw [hd]
    exact List.mem_map_of_mem hn
  have hline := h.newline_not_mem n.line hmem
  simpa [Annotated.text, htags] using hline

/-- A text whose last line is terminated ends in a line feed. -/
theorem not_losesReturn_of_terminated (h : Reads text complete [] guess) (hne : complete ≠ [])
    (p : Placement) : ¬ p.LosesReturn text := by
  intro hlost
  obtain ⟨ls, l, rfl⟩ := (List.eq_nil_or_concat' complete).resolve_left hne
  have hlast := hlost.1
  rw [h.text_eq] at hlast
  simp [Line.render_eq_body] at hlast

/-- Below the last line, a carriage return is lost if that line ends in one and is taken to be
    terminated by a line feed alone. -/
theorem losesReturn_iff_of_below {n : Annotated g} {p : Placement}
    (h : Reads text complete rest guess) (hrest : rest ≠ [])
    (hd : (parse text).Shows (ns ++ [n])) (hn : n.tags = [])
    (hbelow : (parse text).length < p.startLine) :
    p.LosesReturn text ↔ text.getLast? = some '\r' ∧ guess = .lf := by
  have hline := (lines_of_reads_concat h hrest hd hn).2.1
  have hlen : (parse text).length = ns.length + 1 := by
    rw [hd.length]
    simp
  have hending : (parse text).endingOf ns.length = some guess := by
    have hlast : (parse text).lines[ns.length]? = some n.line := by
      rw [hd]
      simp
    rw [endingOf, hlast, hline]
    rfl
  unfold Placement.LosesReturn
  simp only [hbelow, true_and]
  rw [hlen, Nat.add_sub_cancel, hending, Option.some.injEq]

end

/-- What is read back after an addition, in each of the ways in which a text can end. -/
theorem exists_readsBack_of_addTags (hg : g.Unmarked)
    (hd : ∀ t ∈ (parse text).texts, g.hasHead t = false) {start stop : Nat} {p : Placement}
    (h : (parse text).addTags g identifier start stop = .ok (d', p)) :
    ∃ ns ms ms' : List (Annotated g), ns.flatMap Annotated.tags = [] ∧
      Edited (fun t => t.identifier = identifier) ns p.tagCount p.blankCount ms ∧
      ReadsBack (fun t => t.identifier = identifier) ns ms d'.render
        (if p.LosesReturn text then text.dropLast else text) ms' := by
  obtain ⟨ns, hns, hnone⟩ := exists_shows_of_headless hd
  obtain ⟨complete, rest, guess, hread⟩ := exists_reads text
  have hpos : 0 < (parse text).length := by
    have := addTags_eq_ok h
    omega
  obtain ⟨s, hid, hs, hstart, -, -, rfl, hedited⟩ := addTags_placed hg hns h
  have hstrip : (s.placed ((parse text).endingAt s.start) hid ns).filterMap
      (Annotated.strip? fun t => t.identifier = identifier) = ns := by
    rw [hedited.filterMap_strip? fun t ht => decide_eq_true ht]
    exact Annotated.filterMap_strip?_eq_self (by simp [hnone])
  have hfeeds := hread.newline_not_mem_own hns hnone
  have hfeeds' := hedited.forall_own (P := fun o => '\n' ∉ o) (by simp) hfeeds
  suffices hback : ∃ ms', ReadsBack (fun t => t.identifier = identifier) ns _ _ _ ms' from
    hback.elim fun ms' hms' => ⟨ns, _, ms', hnone, hedited, hms'⟩
  have hlines := hread.lines
  by_cases hrest : rest = []
  · -- the last line of the text is terminated
    subst hrest
    rw [List.isEmpty_nil, if_pos rfl, List.append_nil] at hlines
    have hne : complete ≠ [] := by
      rintro rfl
      simp [length, hlines] at hpos
    have hlen : (s.placed ((parse text).endingAt s.start) hid ns).length ≠ 0 := by
      rw [hedited.length, ← hns.length]
      omega
    rw [if_neg (not_losesReturn_of_terminated hread hne p)]
    exact ⟨_, readsBack_of_terminated hread hne hns hlen hfeeds' hstrip⟩
  · -- the last line of the text is what follows the last line feed
    have hne : ns ≠ [] := by
      rintro rfl
      rw [hns.length] at hpos
      exact absurd hpos (by simp)
    obtain ⟨ls, n, rfl⟩ := (List.eq_nil_or_concat' ns).resolve_left hne
    have hn : n.tags = [] := List.flatMap_eq_nil_iff.1 hnone n (by simp)
    have hlen : (parse text).length = ls.length + 1 := by
      rw [hns.length]
      simp
    by_cases hbelow : ls.length + 1 ≤ s.start
    · -- the start tag has a new line below the one that was last
      have hlost := losesReturn_iff_of_below (p := p) hread hrest hns hn (by omega)
      have hbelow' : (ls ++ [n]).length ≤ s.start := by simpa using hbelow
      rw [Site.placed_below hs hns hbelow' _ hid, if_congr hlost rfl rfl]
      exact readsBack_of_below hread hrest hns hnone hfeeds hid rfl (by simp)
    · -- the last line is still the last one
      have hkept : ¬ p.LosesReturn text := by
        intro hlost
        have hlt := hlost.2.1
        omega
      obtain ⟨ms, m, hplaced, hquiet⟩ :=
        Site.placed_concat (n := n) (by omega : s.start ≤ ls.length)
          ((parse text).endingAt s.start) hid
      rw [hplaced] at hfeeds' hstrip ⊢
      rw [if_neg hkept]
      exact readsBack_of_last hread hrest hns hn hquiet hfeeds' hstrip

/-- If the text is written after an addition and read again, taking the tags back gives the
    text as it was, but perhaps for a carriage return at its end. -/
theorem render_removeTags_parse_render (hg : g.Unmarked)
    (hd : ∀ t ∈ (parse text).texts, g.hasHead t = false) {start stop : Nat} {p : Placement}
    (h : (parse text).addTags g identifier start stop = .ok (d', p)) :
    ((parse d'.render).removeTags g identifier).1.render =
        (if p.LosesReturn text then text.dropLast else text) ∧
      ((parse d'.render).removeTags g identifier).2 =
        { tagsRemoved := p.tagCount, linesRemoved := p.blankCount } := by
  obtain ⟨ns, ms, ms', hnone, hedited, hback⟩ := exists_readsBack_of_addTags hg hd h
  have hsep : g.separator ∉ identifier := (names_of_addTags h).separator_not_mem
  rw [hback.shows.removeTags_eq hg hsep rfl]
  refine ⟨hback.render, ?_⟩
  have hcount := hedited.countP_tags_of_none
    (p := fun t => decide (t.identifier = identifier)) (fun t ht => decide_eq_true ht)
    (by simp [hnone])
  rw [hback.tags, hcount, hback.length, hback.rest, hedited.length, Nat.add_sub_cancel_left]

/-- The start tag is moved below the last line, which ends in a carriage return. -/
example :
    ((parse "x;\n/* a\n*/\r".toList).addTags .standard ['t'] 3 3).toOption.map
      (fun r => decide (r.2.LosesReturn "x;\n/* a\n*/\r".toList)) = some true := by decide

end Document

end Marginalia
