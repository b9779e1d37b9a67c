import Mathlib.Data.List.Basic
import Marginalia.Tag.Sighting

/-! # What the acceptance of a grammar is good for

    A grammar is accepted for its marks and delimiters, and an identifier for its
    characters. This module turns both into facts about texts:

    * **`marks_ne`, `marks_ne_joiner`, `delimiters_visible`, `marks_oneLine`,
      `delimiters_oneLine`**: what every accepted grammar satisfies.
    * **`Unmarked`**: neither delimiter holds a mark. Not every accepted grammar is
      unmarked, but only the tags of those that are can be told apart for sure.
    * **`headText`, `tailText`**: the texts around an identifier, by the marks they
      hold. They can be recognised from the text they stand in (`headText_inj`,
      `tailText_inj`).
    * **`hasHead`**: whether a text holds something that looks like the head of a
      tag. -/

namespace Marginalia

open Text

namespace Grammar

variable {g : Grammar}

/-! ## Section 1: Accepted grammars -/

/-- A mark without a fault is not the joiner and not one of the other marks. -/
theorem markFault?_eq_none {s : Spelling} {m : Mark} {others : List Mark}
    (h : s.markFault? m others = none) :
    s.mark m ≠ joiner ∧ ∀ n ∈ others, s.mark n ≠ s.mark m := by
  unfold Spelling.markFault? at h
  simp only at h
  split at h
  · exact absurd h (by simp)
  split at h
  · exact absurd h (by simp)
  next hj =>
  refine ⟨hj, ?_⟩
  intro n hn
  have hf := Option.map_eq_none_iff.1 h
  simpa using List.find?_eq_none.1 hf n hn

/-- The parts that the acceptance of a grammar consists of. -/
theorem accepted_parts (g : Grammar) :
    g.markFault? .boundary [.separator, .cleanup] = none ∧
      g.markFault? .separator [.cleanup] = none ∧
      g.markFault? .cleanup [] = none ∧ g.delimiterFault? = none := by
  have h := g.accepted
  simpa only [Spelling.fault?, Option.or_eq_none_iff] using h

/-- The marks of an accepted grammar differ from each other. -/
theorem marks_ne (g : Grammar) :
    g.boundary ≠ g.separator ∧ g.boundary ≠ g.cleanup ∧ g.separator ≠ g.cleanup := by
  obtain ⟨hb, hs, _, _⟩ := g.accepted_parts
  have hb' := (markFault?_eq_none hb).2
  have hs' := (markFault?_eq_none hs).2
  exact ⟨(hb' .separator (by simp)).symm, (hb' .cleanup (by simp)).symm,
    (hs' .cleanup (by simp)).symm⟩

/-- No mark of an accepted grammar is the joiner. -/
theorem marks_ne_joiner (g : Grammar) :
    g.boundary ≠ joiner ∧ g.separator ≠ joiner ∧ g.cleanup ≠ joiner := by
  obtain ⟨hb, hs, hc, _⟩ := g.accepted_parts
  exact ⟨(markFault?_eq_none hb).1, (markFault?_eq_none hs).1, (markFault?_eq_none hc).1⟩

/-- The delimiters of an accepted grammar can be seen. -/
theorem delimiters_visible (g : Grammar) :
    allBlank g.opener = false ∧ allBlank g.closer = false := by
  have h := g.accepted_parts.2.2.2
  unfold Spelling.delimiterFault? at h
  split at h
  · exact absurd h (by simp)
  next hv =>
  simpa using hv

/-- The delimiters of an accepted grammar hold no line break. -/
theorem delimiters_oneLine (g : Grammar) : ∀ c ∈ g.opener ++ g.closer, isLineBreak c = false := by
  have h := g.accepted_parts.2.2.2
  unfold Spelling.delimiterFault? at h
  split at h
  · exact absurd h (by simp)
  split at h
  · exact absurd h (by simp)
  next hbreak =>
  simp only [Bool.or_eq_true, List.any_eq_true, not_or, not_exists, not_and,
    Bool.not_eq_true] at hbreak
  intro c hc
  rcases List.mem_append.1 hc with hc | hc
  · exact hbreak.1 c hc
  · exact hbreak.2 c hc

/-- A mark without a fault can be seen. -/
theorem oneLine_of_markFault? {s : Spelling} {m : Mark} {others : List Mark}
    (h : s.markFault? m others = none) : isLineBreak (s.mark m) = false := by
  unfold Spelling.markFault? at h
  simp only at h
  split at h
  · exact absurd h (by simp)
  next hvisible =>
  rw [← Bool.not_eq_true]
  intro hbreak
  apply hvisible
  simp only [isLineBreak, Bool.or_eq_true, beq_iff_eq] at hbreak
  rcases hbreak with hc | hc <;> rw [hc] <;> decide

/-- No mark of an accepted grammar is a line break. -/
theorem marks_oneLine (g : Grammar) :
    isLineBreak g.boundary = false ∧ isLineBreak g.separator = false ∧
      isLineBreak g.cleanup = false := by
  obtain ⟨hb, hs, hc, -⟩ := g.accepted_parts
  exact ⟨oneLine_of_markFault? hb, oneLine_of_markFault? hs, oneLine_of_markFault? hc⟩

theorem opener_ne_nil (g : Grammar) : g.opener ≠ [] := by
  intro h
  have hv := g.delimiters_visible.1
  rw [h] at hv
  simp at hv

theorem closer_ne_nil (g : Grammar) : g.closer ≠ [] := by
  intro h
  have hv := g.delimiters_visible.2
  rw [h] at hv
  simp at hv

/-- A blank text holds no opener. -/
theorem not_occursIn_opener_of_allBlank {s : List Char} (h : allBlank s = true) :
    occursIn g.opener s = false := by
  rw [← Bool.not_eq_true, occursIn_iff]
  intro hin
  obtain ⟨x, y, rfl⟩ := hin
  have hv := g.delimiters_visible.1
  simp [hv] at h

/-- A blank text holds no closer. -/
theorem not_occursIn_closer_of_allBlank {s : List Char} (h : allBlank s = true) :
    occursIn g.closer s = false := by
  rw [← Bool.not_eq_true, occursIn_iff]
  intro hin
  obtain ⟨x, y, rfl⟩ := hin
  have hv := g.delimiters_visible.2
  simp [hv] at h

/-! ## Section 2: Unmarked delimiters -/

/-- Neither delimiter holds one of the three marks. -/
def Unmarked (g : Grammar) : Prop :=
  ∀ c ∈ g.opener ++ g.closer, g.isMark c = false

instance (g : Grammar) : Decidable g.Unmarked :=
  decidable_of_iff ((g.opener ++ g.closer).all (fun c => !g.isMark c) = true) (by
    simp only [List.all_eq_true, Bool.not_eq_true']
    rfl)

theorem isMark_boundary (g : Grammar) : g.isMark g.boundary = true := by
  simp [isMark]

theorem isMark_separator (g : Grammar) : g.isMark g.separator = true := by
  simp [isMark]

theorem isMark_cleanup (g : Grammar) : g.isMark g.cleanup = true := by
  simp [isMark]

theorem Unmarked.not_mem_opener (hg : g.Unmarked) {c : Char} (hc : g.isMark c = true) :
    c ∉ g.opener := by
  intro hm
  have := hg c (List.mem_append_left _ hm)
  rw [hc] at this
  exact absurd this (by decide)

theorem Unmarked.not_mem_closer (hg : g.Unmarked) {c : Char} (hc : g.isMark c = true) :
    c ∉ g.closer := by
  intro hm
  have := hg c (List.mem_append_right _ hm)
  rw [hc] at this
  exact absurd this (by decide)

/-! ## Section 3: Accepted identifiers -/

/-- What an accepted identifier is like. -/
structure Names (g : Grammar) (identifier : List Char) : Prop where
  nonempty  : identifier ≠ []
  unmarked  : ∀ c ∈ identifier, g.isMark c = false
  oneLine   : ∀ c ∈ identifier, isLineBreak c = false
  noOpener  : ¬ g.opener <:+: identifier
  noCloser  : ¬ g.closer <:+: identifier

theorem names_of_identifierFault?_eq_none {identifier : List Char}
    (h : g.identifierFault? identifier = none) : g.Names identifier := by
  unfold identifierFault? at h
  split at h
  · exact absurd h (by simp)
  next hne =>
  split at h
  · exact absurd h (by simp)
  next hmark =>
  split at h
  · exact absurd h (by simp)
  next hline =>
  split at h
  · exact absurd h (by simp)
  next hopen =>
  split at h
  · exact absurd h (by simp)
  next hclose =>
  have hmark' : identifier.find? g.isMark = none := by
    cases hf : identifier.find? g.isMark with
    | none => rfl
    | some c => exact absurd hf (hmark c)
  refine ⟨?_, ?_, ?_, ?_, ?_⟩
  · simpa using hne
  · intro c hc
    simpa using List.find?_eq_none.1 hmark' c hc
  · intro c hc
    simpa using fun hb => hline (List.any_eq_true.2 ⟨c, hc, hb⟩)
  · rw [← occursIn_iff]
    exact hopen
  · rw [← occursIn_iff]
    exact hclose

theorem Names.separator_not_mem {identifier : List Char} (h : g.Names identifier) :
    g.separator ∉ identifier := by
  intro hm
  have := h.unmarked _ hm
  rw [g.isMark_separator] at this
  exact absurd this (by decide)

/-! ## Section 4: The texts around an identifier -/

/-- What precedes the separator before an identifier, by whether it holds the joiner
    and a boundary mark. -/
def headText (g : Grammar) (joined marked : Bool) : List Char :=
  g.opener ++ ((if joined then [joiner] else []) ++ (if marked then [g.boundary] else []))

/-- What follows the separator after an identifier, by whether it holds a boundary
    mark and a cleanup mark. -/
def tailText (g : Grammar) (marked cleanup : Bool) : List Char :=
  (if marked then [g.boundary] else []) ++ ((if cleanup then [g.cleanup] else []) ++ g.closer)

theorem mem_heads_iff {marked : Bool} {h : List Char} :
    (marked, h) ∈ g.heads ↔ ∃ joined, h = g.headText joined marked ++ [g.separator] := by
  cases marked <;> simp [heads, headText, or_comm]

theorem mem_tails_iff {marked cleanup : Bool} {t : List Char} :
    (marked, cleanup, t) ∈ g.tails ↔ t = g.separator :: g.tailText marked cleanup := by
  cases marked <;> cases cleanup <;> simp [tails, tailText]

theorem Unmarked.separator_not_mem_headText (hg : g.Unmarked) (joined marked : Bool) :
    g.separator ∉ g.headText joined marked := by
  have ho := hg.not_mem_opener g.isMark_separator
  have hj := g.marks_ne_joiner.2.1
  have hb := g.marks_ne.1.symm
  cases joined <;> cases marked <;> simp [headText, ho, hj, hb]

theorem Unmarked.separator_not_mem_tailText (hg : g.Unmarked) (marked cleanup : Bool) :
    g.separator ∉ g.tailText marked cleanup := by
  have hc := hg.not_mem_closer g.isMark_separator
  have hb := g.marks_ne.1.symm
  have hs := g.marks_ne.2.2
  cases marked <;> cases cleanup <;> simp [tailText, hc, hb, hs]

/-- The text of a head says which marks it holds. -/
theorem headText_inj {joined marked joined' marked' : Bool}
    (h : g.headText joined marked = g.headText joined' marked') :
    joined = joined' ∧ marked = marked' := by
  have h' := List.append_cancel_left h
  have hb := g.marks_ne_joiner.1
  cases joined <;> cases marked <;> cases joined' <;> cases marked' <;>
    simp_all [Ne.symm hb]

/-- No head ends in a head that has the joiner, unless it is that head. -/
theorem headText_ne_append {u : List Char} (hu : u ≠ []) {joined marked ranged : Bool} :
    g.headText joined marked ≠ u ++ g.headText true ranged := by
  intro h
  -- counting the characters leaves one case, in which a mark would be the joiner
  have hlen := congrArg List.length h
  have hpos := List.length_pos_iff.2 hu
  have hcase : joined = true ∧ marked = true ∧ ranged = false := by
    simp only [headText, List.length_append] at hlen
    cases joined <;> cases marked <;> cases ranged <;> simp [hu] at hlen ⊢ <;> omega
  obtain ⟨rfl, rfl, rfl⟩ := hcase
  have hlast := congrArg List.getLast? h
  simp [headText, List.getLast?_append] at hlast
  exact g.marks_ne_joiner.1 hlast

/-- The text of a tail says which marks it holds, and where it ends. -/
theorem Unmarked.tailText_inj (hg : g.Unmarked) {marked cleanup marked' cleanup' : Bool}
    {r r' : List Char} (h : g.tailText marked cleanup ++ r = g.tailText marked' cleanup' ++ r') :
    marked = marked' ∧ cleanup = cleanup' ∧ r = r' := by
  -- the closer begins with no mark, so the first two characters decide
  obtain ⟨k, ks, hk⟩ := List.exists_cons_of_ne_nil g.closer_ne_nil
  have hkb : k ≠ g.boundary := by
    intro he
    exact hg.not_mem_closer g.isMark_boundary (by simp [hk, he])
  have hkc : k ≠ g.cleanup := by
    intro he
    exact hg.not_mem_closer g.isMark_cleanup (by simp [hk, he])
  have hbc := g.marks_ne.2.1
  unfold tailText at h
  rw [hk] at h
  cases marked <;> cases cleanup <;> cases marked' <;> cases cleanup' <;>
    simp_all [Ne.symm hkb, Ne.symm hkc, Ne.symm hbc]

/-- Something in the text looks like the head of a tag: an opener, perhaps the
    joiner, perhaps a boundary mark, and a separator. -/
def hasHead (g : Grammar) (s : List Char) : Bool :=
  g.heads.any fun h => occursIn h.2 s

@[simp] theorem hasHead_nil (g : Grammar) : g.hasHead [] = false := by
  simp [hasHead, heads, occursIn]

theorem hasHead_eq_false_of_isInfix {s y : List Char} (hs : g.hasHead s = false)
    (hy : y <:+: s) : g.hasHead y = false := by
  rw [← Bool.not_eq_true] at hs ⊢
  intro h
  obtain ⟨head, hm, ho⟩ := List.any_eq_true.1 h
  have hi : head.2 <:+: s := (occursIn_iff.1 ho).trans hy
  exact hs (List.any_eq_true.2 ⟨head, hm, occursIn_iff.2 hi⟩)

theorem hasHead_eq_false_of_isSuffix {s y : List Char} (hs : g.hasHead s = false)
    (hy : y <:+ s) : g.hasHead y = false :=
  hasHead_eq_false_of_isInfix hs hy.isInfix

theorem not_isPrefix_of_hasHead_eq_false {s : List Char} (hs : g.hasHead s = false)
    (joined marked : Bool) : ¬ g.headText joined marked ++ [g.separator] <+: s := by
  intro hp
  have hm : (marked, g.headText joined marked ++ [g.separator]) ∈ g.heads :=
    mem_heads_iff.2 ⟨joined, rfl⟩
  have ho := occursIn_iff.2 hp.isInfix
  have : g.hasHead s = true := List.any_eq_true.2 ⟨_, hm, ho⟩
  rw [hs] at this
  exact absurd this (by decide)

/-- A text without a separator holds no head. -/
theorem hasHead_eq_false_of_separator_not_mem {s : List Char} (hs : g.separator ∉ s) :
    g.hasHead s = false := by
  rw [← Bool.not_eq_true]
  intro h
  obtain ⟨⟨marked, head⟩, hm, ho⟩ := List.any_eq_true.1 h
  obtain ⟨joined, rfl⟩ := mem_heads_iff.1 hm
  have hi := occursIn_iff.1 ho
  exact hs (hi.subset (by simp))

end Grammar

end Marginalia
