import Marginalia.Proofs.Edits

/-! # Taking tags back

    The lines that adding inserts are blank once their tags are gone, and so may be lines
    that were there before. The tags tell them apart: exactly the inserted lines carry one
    that asks to remove them.

    * **`Edited.filterMap_strip?`**: if the tags that were written are meant, removing
      leaves what it would have left before.
    * **`Document.clear_addAll`**: removing all tags undoes any number of additions.
    * **`Document.removeTags_addTags`**: removing the tags of a new identifier undoes one
      addition, among the tags of others. -/

namespace Marginalia

open Text

/-! ## Section 1: What was written -/

/-- An element that is inserted in a list, and what is on both sides of it. -/
theorem exists_of_insertIdx {α : Type*} {l : List α} {i : Nat} (a : α) (h : i ≤ l.length) :
    ∃ l₁ l₂, l = l₁ ++ l₂ ∧ l.insertIdx i a = l₁ ++ a :: l₂ := by
  induction l generalizing i with
  | nil =>
    obtain rfl : i = 0 := by simpa using h
    exact ⟨[], [], rfl, rfl⟩
  | cons b l ih =>
    cases i with
    | zero => exact ⟨[], b :: l, rfl, rfl⟩
    | succ i =>
      obtain ⟨l₁, l₂, rfl, hinsert⟩ := ih (by simpa using h)
      exact ⟨b :: l₁, l₂, rfl, by simp [hinsert]⟩

/-- The tags of some lines that satisfy a predicate, counted line by line. -/
theorem Annotated.total_countP {g : Grammar} (p : Tag → Bool) (ns : List (Annotated g)) :
    total (ns.map fun n => n.tags.countP p) = (ns.flatMap Annotated.tags).countP p := by
  induction ns with
  | nil => rfl
  | cons n ns ih => simp [ih]

namespace Edited

variable {g : Grammar} {allowed : Tag → Prop} {ns ms : List (Annotated g)} {tags blanks : Nat}

theorem length (h : Edited allowed ns tags blanks ms) : ms.length = ns.length + blanks := by
  induction h with
  | refl => rfl
  | tag _ _ _ _ _ _ ih => rw [List.length_modify, ih]
  | line _ _ _ _ _ le _ ih =>
    rw [List.length_insertIdx_of_le_length le, ih]
    omega

/-- The tags that were written are among the tags that satisfy `p`. -/
theorem countP_tags {p : Tag → Bool} (h : Edited allowed ns tags blanks ms)
    (hp : ∀ t, allowed t → p t = true) :
    (ms.flatMap Annotated.tags).countP p = (ns.flatMap Annotated.tags).countP p + tags := by
  induction h with
  | refl => rfl
  | @tag tags blanks ms before j t named allow plain lt free ih =>
    obtain ⟨ms₁, m, ms₂, hms, -, hmodify⟩ :=
      List.exists_of_modify (fun n : Annotated g => n.annotate t named) lt
    rw [hmodify]
    rw [hms] at ih
    simp only [List.flatMap_append, List.flatMap_cons, List.countP_append,
      Annotated.tags_annotate, List.countP_cons, List.countP_nil, hp t allow] at ih ⊢
    simp only [if_true]
    omega
  | @line tags blanks ms before k t ending named allow cleanup le free ih =>
    obtain ⟨ms₁, ms₂, hms, hinsert⟩ :=
      exists_of_insertIdx ((Annotated.blank g ending).annotate t named) le
    rw [hinsert]
    rw [hms] at ih
    simp only [List.flatMap_append, List.flatMap_cons, List.countP_append,
      Annotated.tags_annotate, Annotated.tags_blank, List.countP_cons, List.countP_nil,
      hp t allow] at ih ⊢
    simp only [if_true]
    omega

/-- Where no tag satisfied `p`, the tags that were written are all that do. -/
theorem countP_tags_of_none {p : Tag → Bool} (h : Edited allowed ns tags blanks ms)
    (hp : ∀ t, allowed t → p t = true) (hns : ∀ t ∈ ns.flatMap Annotated.tags, p t = false) :
    (ms.flatMap Annotated.tags).countP p = tags := by
  have hzero : (ns.flatMap Annotated.tags).countP p = 0 := by
    rw [List.countP_eq_zero]
    intro t ht
    simp [hns t ht]
  rw [h.countP_tags hp, hzero, Nat.zero_add]

/-- If the tags that were written are meant, removing leaves what it would have left
    before they were written. -/
theorem filterMap_strip? {p : Tag → Bool} (h : Edited allowed ns tags blanks ms)
    (hp : ∀ t, allowed t → p t = true) :
    ms.filterMap (Annotated.strip? p) = ns.filterMap (Annotated.strip? p) := by
  induction h with
  | refl => rfl
  | @tag tags blanks ms before j t named allow plain lt free ih =>
    -- the line is stripped of the tag and otherwise as before
    obtain ⟨ms₁, m, ms₂, hms, -, hmodify⟩ :=
      List.exists_of_modify (fun n : Annotated g => n.annotate t named) lt
    rw [hmodify, ← ih, hms, List.filterMap_append, List.filterMap_append, List.filterMap_cons,
      List.filterMap_cons, Annotated.strip?_annotate named (hp t allow) plain]
  | @line tags blanks ms before k t ending named allow cleanup le free ih =>
    -- the line goes with the tag
    obtain ⟨ms₁, ms₂, hms, hinsert⟩ :=
      exists_of_insertIdx ((Annotated.blank g ending).annotate t named) le
    rw [hinsert, ← ih, hms, List.filterMap_append, List.filterMap_append, List.filterMap_cons,
      Annotated.strip?_annotate_blank named (hp t allow) cleanup]

end Edited

namespace Document

variable {g : Grammar} {d d' : Document} {ns ms : List (Annotated g)}

/-- Removing the tags of a predicate takes back edits that wrote only such tags where
    there were none. -/
theorem remove_withLines_of_edited {sel : Selector} {p : Tag → Bool} (hsel : sel.Selects g p)
    (hd : d.Shows ns) (hns : ∀ t ∈ ns.flatMap Annotated.tags, p t = false)
    {allowed : Tag → Prop} (hp : ∀ t, allowed t → p t = true) {tags blanks : Nat}
    (h : Edited allowed ns tags blanks ms) :
    (d.withLines ms).remove g sel = (d, { tagsRemoved := tags, linesRemoved := blanks }) := by
  have hstrip := Annotated.filterMap_strip?_eq_self hns
  have hlines : (d.withLines ms).withLines ns = d := hd.withLines_eq
  rw [remove_of_shows hsel (shows_withLines d ms), Annotated.total_countP,
    h.countP_tags_of_none hp hns, h.filterMap_strip? hp, hstrip, h.length,
    Nat.add_sub_cancel_left, hlines]

end Document

/-! ## Section 2: Many additions -/

/-- A request to tag some lines. -/
structure Request where
  identifier : List Char
  start      : Nat
  stop       : Nat
deriving DecidableEq, Repr

namespace Document

variable {g : Grammar} {d : Document} {ns : List (Annotated g)}

/-- Tags lines request by request, and says where the tags of those that succeed ended
    up. A request that fails leaves the document as it is. -/
def addAll (g : Grammar) (d : Document) : List Request → Document × List Placement
  | [] => (d, [])
  | r :: rs =>
    match d.addTags g r.identifier r.start r.stop with
    | .error _    => d.addAll g rs
    | .ok (d', p) => ((d'.addAll g rs).1, p :: (d'.addAll g rs).2)

/-- Many additions write tags with the identifiers that were asked for, and as many tags
    and lines as the single placements say. -/
theorem addAll_edited (hg : g.Unmarked) (hd : d.Shows ns) (rs : List Request) :
    ∃ ms, (d.addAll g rs).1 = d.withLines ms ∧
      Edited (fun t => t.identifier ∈ rs.map Request.identifier) ns
        (total ((d.addAll g rs).2.map Placement.tagCount))
        ((d.addAll g rs).2.countP Placement.blankInserted) ms := by
  induction rs generalizing d ns with
  | nil => exact ⟨ns, hd.withLines_eq.symm, .refl⟩
  | cons r rs ih =>
    unfold addAll
    split
    · -- the request fails
      obtain ⟨ms, hms, hrest⟩ := ih hd
      exact ⟨ms, hms, hrest.mono fun _ ht => List.mem_cons_of_mem _ ht⟩
    · next d' p hadd =>
      obtain ⟨ms, rfl, hms⟩ := addTags_edited hg hd hadd
      obtain ⟨ls, hls, hrest⟩ := ih (shows_withLines d ms)
      refine ⟨ls, hls, ?_⟩
      have hfirst : Edited (fun t => t.identifier ∈ (r :: rs).map Request.identifier) ns
          p.tagCount p.blankCount ms := hms.mono fun t ht => by simp [ht]
      have hall := hfirst.trans (hrest.mono fun _ ht => List.mem_cons_of_mem _ ht)
      have hblanks : (p :: ((d.withLines ms).addAll g rs).2).countP Placement.blankInserted =
          p.blankCount + ((d.withLines ms).addAll g rs).2.countP Placement.blankInserted := by
        rw [List.countP_cons, Nat.add_comm]
        rfl
      rw [hblanks]
      exact hall

/-- A document without anything like a tag is shown by lines without tags. -/
theorem exists_shows_of_headless (h : ∀ t ∈ d.texts, g.hasHead t = false) :
    ∃ ns : List (Annotated g), d.Shows ns ∧ ns.flatMap Annotated.tags = [] := by
  refine ⟨d.lines.attach.map fun l =>
    ⟨l.1.text, [], l.1.ending, h l.1.text (List.mem_map_of_mem l.2), by simp⟩, ?_, ?_⟩
  · unfold Shows
    rw [List.map_map]
    conv_lhs => rw [← List.attach_map_subtype_val d.lines]
    apply List.map_congr_left
    intro l _
    simp [Annotated.line, Annotated.text]
  · rw [List.flatMap_eq_nil_iff]
    intro n hn
    obtain ⟨l, -, rfl⟩ := List.mem_map.1 hn
    rfl

/-- Removing all tags undoes any number of additions to a document without anything like
    a tag, and counts what they wrote. -/
theorem clear_addAll (hg : g.Unmarked) (hd : ∀ t ∈ d.texts, g.hasHead t = false)
    (rs : List Request) :
    (d.addAll g rs).1.clear g =
      (d, { tagsRemoved  := total ((d.addAll g rs).2.map Placement.tagCount)
            linesRemoved := (d.addAll g rs).2.countP Placement.blankInserted }) ∧
    ((d.addAll g rs).1.occurrences g).length =
      total ((d.addAll g rs).2.map Placement.tagCount) := by
  obtain ⟨ns, hns, hnone⟩ := exists_shows_of_headless hd
  obtain ⟨ms, hms, hedited⟩ := addAll_edited hg hns rs
  constructor
  · rw [hms]
    exact remove_withLines_of_edited (Selector.selects_any hg) hns (by simp [hnone])
      (fun _ _ => rfl) hedited
  · have hcount := hedited.countP_tags_of_none (p := fun _ => true) (fun _ _ => rfl)
      (by simp [hnone])
    have hlist := (shows_withLines d ms).countP_occurrences hg fun _ => true
    rw [hms, ← hcount, ← hlist, List.countP_true]

/-- The second request lands on the line that the first one inserts. -/
theorem clear_addAll_inserted_line :
    let d := parse "a\n/* b\nc */\n".toList
    (d.addAll .standard [⟨['x'], 2, 3⟩, ⟨['x'], 2, 2⟩]).1.clear .standard = (d, ⟨3, 1⟩) :=
  (clear_addAll (g := .standard) (d := parse "a\n/* b\nc */\n".toList) (by decide) (by decide)
    [⟨['x'], 2, 3⟩, ⟨['x'], 2, 2⟩]).1

end Document

/-! ## Section 3: One addition among other tags -/

namespace Document

variable {g : Grammar} {d d' : Document}

/-- Removing the tags of an identifier undoes an addition of tags with it, if no tag had
    it before. -/
theorem removeTags_addTags (hg : g.Unmarked) (hd : ∀ l ∈ d.lines, l.IsAnnotated g)
    {identifier : List Char} (hfresh : ∀ o ∈ d.occurrences g, o.tag.identifier ≠ identifier)
    {start stop : Nat} {p : Placement} (h : d.addTags g identifier start stop = .ok (d', p)) :
    d'.removeTags g identifier =
      (d, { tagsRemoved := p.tagCount, linesRemoved := p.blankCount }) ∧
    ((d'.occurrences g).filter fun o => o.tag.identifier = identifier).length = p.tagCount := by
  obtain ⟨ns, hns⟩ := exists_shows hd
  obtain ⟨ms, rfl, hedited⟩ := addTags_edited hg hns h
  have hp : ∀ t : Tag, t.identifier = identifier → decide (t.identifier = identifier) = true :=
    fun _ ht => decide_eq_true ht
  have hother : ∀ t ∈ ns.flatMap Annotated.tags, decide (t.identifier = identifier) = false := by
    intro t ht
    rw [← hns.map_tag_occurrences hg] at ht
    obtain ⟨o, ho, rfl⟩ := List.mem_map.1 ht
    exact decide_eq_false (hfresh o ho)
  -- the identifier was accepted, so that removing takes one tag at a time
  have hsep : g.separator ∉ identifier := (names_of_addTags h).separator_not_mem
  constructor
  · exact remove_withLines_of_edited (Selector.selects_exactly hg hsep) hns hother hp hedited
  · have hlist := (shows_withLines d ms).countP_occurrences hg
      fun t => decide (t.identifier = identifier)
    rw [← List.countP_eq_length_filter, hlist, hedited.countP_tags_of_none hp hother]

/-- The tag of another identifier stays on the line above the inserted one. -/
theorem removeTags_addTags_below_tag :
    let d := parse "a /*-?|y|?*/\n/* b\nc */\n".toList
    ∃ d' p, d.addTags .standard ['x'] 2 3 = .ok (d', p) ∧
      d'.removeTags .standard ['x'] = (d, ⟨2, 1⟩) := by
  have hd : ∀ l ∈ (parse "a /*-?|y|?*/\n/* b\nc */\n".toList).lines,
      l.IsAnnotated .standard := by
    intro l hl
    rcases List.mem_cons.1 hl with rfl | hl
    · exact ⟨['a', ' '], [⟨['y'], .single, false⟩], by decide, by decide, by decide⟩
    · exact ⟨l.text, [], by revert l; decide, by simp, by simp⟩
  have hadd : (parse "a /*-?|y|?*/\n/* b\nc */\n".toList).addTags .standard ['x'] 2 3 =
      .ok (_, _) := rfl
  exact ⟨_, _, hadd, (removeTags_addTags (by decide) hd (by decide) hadd).1⟩

end Document

end Marginalia
