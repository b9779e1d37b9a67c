import Marginalia.Proofs.Appending
import Marginalia.Proofs.Rereading

/-! # Which texts are tags

    What is read as a tag should be what is written for one. Tags that somebody edited by
    hand are read as well, and this module says how far that goes, in every accepted
    grammar:

    * **`Grammar.isTag_of_sighting?`**, **`Grammar.IsTag.sighting?_raw`**: only the texts
      of tags are read, and each of them is, with all its marks.
    * **`Grammar.LacksAtMostJoiner`**: a text is another one, but the joiner may be missing.
    * **`Grammar.isTag_iff`**: a tag with a boundary mark has the text that is written for
      it. One with neither has a text that is never written.
    * **`Grammar.mem_sightings_iff_and_strip`**: both hold of all that is listed, and of all
      that is taken out of a line if its tags are cleared. -/

namespace Marginalia

open Text

/-! ## Section 1: Tags of a cut -/

namespace Piece

variable {find : List Char → Option Sighting}

/-- A tag of a cut was found where it stands. -/
theorem exists_find_of_tag_mem_cut (hfind : Finds find) {s : List Char} {t : Sighting}
    (h : .tag t ∈ cut find 0 s) : ∃ x v, s = x ++ (t.raw ++ v) ∧ find (t.raw ++ v) = some t := by
  induction s using cut_induction hfind with
  | nil => simp [cut] at h
  | plain c s hc ih =>
    rw [cut_cons_of_none hc] at h
    obtain ⟨x, v, rfl, ht⟩ := ih ((List.mem_cons.1 h).resolve_left (by simp))
    exact ⟨c :: x, v, rfl, ht⟩
  | tag t' s ht' hne ih =>
    rw [cut_append_of_some ht' rfl hne] at h
    rcases List.mem_cons.1 h with heq | h
    · obtain rfl := Piece.tag.inj heq
      exact ⟨[], s, rfl, ht'⟩
    · obtain ⟨x, v, rfl, ht⟩ := ih h
      exact ⟨t'.raw ++ x, v, by simp, ht⟩

theorem mem_sightings_iff {ps : List Piece} {t : Sighting} : t ∈ sightings ps ↔ .tag t ∈ ps := by
  unfold sightings
  rw [List.mem_filterMap]
  constructor
  · rintro ⟨p, hp, ht⟩
    cases p with
    | plain c => cases ht
    | tag t' =>
      obtain rfl := Option.some.inj ht
      exact hp
  · exact fun h => ⟨_, h, rfl⟩

/-- Without tags, the characters are all there is. -/
theorem untagged_eq_flatMap_raw {ps : List Piece} (h : sightings ps = []) :
    untagged ps = ps.flatMap raw := by
  induction ps with
  | nil => rfl
  | cons p ps ih =>
    cases p with
    | tag t => cases h
    | plain c => exact congrArg (c :: ·) (ih h)

end Piece

/-- A line without its tags is what the pieces leave of its text, unless it goes with them
    because that is blank. -/
theorem Line.fst_strip_cases {g : Grammar} {sel : Selector} {l : Line}
    (hraw : (sel.pieces g l.text).flatMap Piece.raw = l.text) :
    (l.strip g sel).1 = some { l with text := Piece.untagged (sel.pieces g l.text) } ∨
      (l.strip g sel).1 = none ∧ allBlank (Piece.untagged (sel.pieces g l.text)) = true := by
  by_cases hnone : Piece.sightings (sel.pieces g l.text) = []
  · rw [strip_of_no_sightings hnone, Piece.untagged_eq_flatMap_raw hnone, hraw]
    exact .inl rfl
  · have hsome : (Piece.sightings (sel.pieces g l.text)).isEmpty = false := by simpa using hnone
    simp only [strip, hsome, Bool.false_eq_true, if_false]
    split
    · next hdrop =>
      rw [Bool.and_eq_true] at hdrop
      exact .inr ⟨rfl, hdrop.2⟩
    · exact .inl rfl

/-! ## Section 2: Reading the text of a tag -/

namespace Grammar

variable {g : Grammar} {s : Sighting}

/-- Only the texts of tags are read as tags. -/
theorem isTag_of_sighting? {y : List Char} (h : g.sighting? g.anyIdentifier? y = some s) :
    g.IsTag s := by
  obtain ⟨joined, inner, rest, -, hid, hraw⟩ := sightedAt_of_sighting? h
  obtain ⟨hne, hchars⟩ := chars_of_anyIdentifier? hid
  exact ⟨hne, hchars, joined, hraw⟩

theorem isTag_of_mem_sightings {line : List Char} (h : s ∈ g.sightings line) : g.IsTag s := by
  obtain ⟨x, v, -, hs⟩ :=
    Piece.exists_find_of_tag_mem_cut g.finds_sighting? (Piece.mem_sightings_iff.1 h)
  exact isTag_of_sighting? hs

namespace IsTag

/-- A tag is read up to its tail, whatever follows it, by all that read its identifier. -/
theorem sighting?_raw_append (hs : g.IsTag s)
    {identifier? : List Char → Option (List Char × List Char)}
    (hid : ∀ v, identifier? (s.identifier ++ g.separator :: v) =
      some (s.identifier, g.separator :: v)) (v : List Char) :
    ∃ joined, g.sighting? identifier? (s.raw ++ v) =
      g.closed? s.startMark (g.headText joined s.startMark ++ [g.separator]) s.identifier
        (g.separator :: (g.tailText s.endMark s.cleanup ++ v)) ∧
      s.raw = g.headText joined s.startMark ++
        g.separator :: (s.identifier ++ g.separator :: g.tailText s.endMark s.cleanup) := by
  obtain ⟨joined, hraw⟩ := hs.spelled
  have hhead : (s.startMark, g.headText joined s.startMark ++ [g.separator]) ∈ g.heads :=
    mem_heads_iff.2 ⟨joined, rfl⟩
  have htext : s.raw ++ v = (g.headText joined s.startMark ++ [g.separator]) ++
      (s.identifier ++ g.separator :: (g.tailText s.endMark s.cleanup ++ v)) := by
    simp [hraw]
  refine ⟨joined, ?_, hraw⟩
  rw [htext, sighting?_head_append hhead, hid]
  rfl

/-- The text of a tag alone is read as this tag. -/
theorem sighting?_raw (hs : g.IsTag s) : g.sighting? g.anyIdentifier? s.raw = some s := by
  obtain ⟨joined, hread, hraw⟩ :=
    hs.sighting?_raw_append (anyIdentifier?_of_chars hs.nonempty hs.chars) []
  rw [List.append_nil, List.append_nil, closed?_tailText] at hread
  rw [hread]
  cases s
  simp_all

theorem raw_ne_nil (hs : g.IsTag s) : s.raw ≠ [] := by
  obtain ⟨joined, hraw⟩ := hs.spelled
  simp [hraw]

theorem pieces_raw (hs : g.IsTag s) : g.pieces s.raw = [.tag s] := by
  have hread : g.sighting? g.anyIdentifier? (s.raw ++ []) = some s := by
    rw [List.append_nil]
    exact hs.sighting?_raw
  have hcut := Piece.cut_append_of_some hread rfl hs.raw_ne_nil
  rw [List.append_nil] at hcut
  exact hcut

/-- It is the only tag on a line that is nothing but its text. -/
theorem sightings_raw (hs : g.IsTag s) : g.sightings s.raw = [s] := by
  simp [sightings, hs.pieces_raw, Piece.sightings, Piece.sighting?]

end IsTag

/-! ## Section 3: What is written and what is read -/

/-- The text `y` is `x`, except that the joiner behind the opener may be missing. -/
def LacksAtMostJoiner (g : Grammar) (x y : List Char) : Prop :=
  y = x ∨ ∃ rest, x = g.opener ++ joiner :: rest ∧ y = g.opener ++ rest

theorem lacksAtMostJoiner_iff {marked : Bool} {inner y : List Char} :
    g.LacksAtMostJoiner (g.headText true marked ++ inner) y ↔
      ∃ joined, y = g.headText joined marked ++ inner := by
  constructor
  · rintro (rfl | ⟨rest, hrest, rfl⟩)
    · exact ⟨true, rfl⟩
    · refine ⟨false, ?_⟩
      have hinner : (if marked then [g.boundary] else []) ++ inner = rest := by
        simpa [headText] using hrest
      simp [headText, hinner]
  · rintro ⟨joined, rfl⟩
    cases joined with
    | true => exact .inl rfl
    | false => exact .inr ⟨(if marked then [g.boundary] else []) ++ inner, by simp [headText],
        by simp [headText]⟩

end Grammar

/-- The text of a tag without its boundary marks. It is not written for any tag. -/
def Tag.bare (g : Grammar) (t : Tag) : List Char :=
  g.opener ++ joiner :: g.separator :: (t.identifier ++
    g.separator :: ((if t.cleanup then [g.cleanup] else []) ++ g.closer))

namespace Grammar

variable {g : Grammar} {s : Sighting}

/-- What the text of a tag is: that which is written for it, if there is a boundary mark. -/
theorem isTag_iff :
    g.IsTag s ↔ (s.identifier ≠ [] ∧ ∀ c ∈ s.identifier, g.isIdentifierChar c = true) ∧
      if s.startMark = true ∨ s.endMark = true then g.LacksAtMostJoiner (s.tag.render g) s.raw
      else s.role = .single ∧ g.LacksAtMostJoiner (s.tag.bare g) s.raw := by
  have hspelled : (∃ joined, s.raw = g.headText joined s.startMark ++
        g.separator :: (s.identifier ++ g.separator :: g.tailText s.endMark s.cleanup)) ↔
      if s.startMark = true ∨ s.endMark = true then g.LacksAtMostJoiner (s.tag.render g) s.raw
      else s.role = .single ∧ g.LacksAtMostJoiner (s.tag.bare g) s.raw := by
    split
    · next hmark =>
      -- the role has the marks that were read
      have hrole : s.role.opensRange = s.startMark ∧ s.role.closesRange = s.endMark := by
        unfold Sighting.role
        cases hstart : s.startMark <;> cases hend : s.endMark <;>
          simp_all [Role.ofMarks, Role.opensRange, Role.closesRange]
      rw [Tag.render_eq, lacksAtMostJoiner_iff]
      simp only [Sighting.tag, hrole]
    · next hmark =>
      obtain ⟨hstart, hend⟩ : s.startMark = false ∧ s.endMark = false := by simpa using hmark
      have hbare : s.tag.bare g = g.headText true false ++
          g.separator :: (s.identifier ++ g.separator :: g.tailText false s.cleanup) := by
        unfold Tag.bare Sighting.tag headText tailText
        simp
      have hrole : s.role = .single := by simp [Sighting.role, Role.ofMarks, hstart, hend]
      rw [hbare, lacksAtMostJoiner_iff, hstart, hend]
      simp only [hrole, true_and]
  rw [← hspelled]
  exact ⟨fun h => ⟨⟨h.nonempty, h.chars⟩, h.spelled⟩, fun h => ⟨h.1.1, h.1.2, h.2⟩⟩

/-- A tag is reported on some line exactly if its text is the one that is written for it,
    apart from the joiner, or the one that would be written without boundary marks. It is
    then reported alone on the line that is nothing but its text. All that clearing a line
    takes out of it are the texts of the tags that are reported there. -/
theorem mem_sightings_iff_and_strip (g : Grammar) :
    (∀ s : Sighting, (∃ line, s ∈ g.sightings line) ↔
      (s.identifier ≠ [] ∧ ∀ c ∈ s.identifier, g.isIdentifierChar c = true) ∧
        if s.startMark = true ∨ s.endMark = true then g.LacksAtMostJoiner (s.tag.render g) s.raw
        else s.role = .single ∧ g.LacksAtMostJoiner (s.tag.bare g) s.raw) ∧
      (∀ line, ∀ s ∈ g.sightings line, g.sightings s.raw = [s]) ∧
      ∀ l : Line, ∃ ps : List Piece, l.text = ps.flatMap Piece.raw ∧
        Piece.sightings ps = g.sightings l.text ∧
        ∀ m, (l.strip g .any).1 = some m → m.text = Piece.untagged ps := by
  refine ⟨fun s => ?_, fun line s hs => (isTag_of_mem_sightings hs).sightings_raw, fun l => ?_⟩
  · rw [← isTag_iff]
    constructor
    · rintro ⟨line, hs⟩
      exact isTag_of_mem_sightings hs
    · intro hs
      exact ⟨s.raw, by simp [hs.sightings_raw]⟩
  · refine ⟨g.pieces l.text, (g.flatMap_raw_pieces l.text).symm, rfl, fun m hm => ?_⟩
    rcases @Line.fst_strip_cases g .any l (g.flatMap_raw_pieces l.text) with hleft | ⟨hgone, -⟩
    · rw [hleft] at hm
      exact congrArg Line.text (Option.some.inj hm).symm
    · rw [hgone] at hm
      cases hm

/-- A comment without boundary marks is read as a tag, and taken out with the tags. -/
theorem exists_mem_sightings_without_boundary :
    ∃ s ∈ standard.sightings "/*|x|*/".toList,
      ¬ standard.LacksAtMostJoiner (s.tag.render standard) s.raw ∧
        s.startMark = false ∧ s.endMark = false ∧
        (Document.ofLines ["/*|x|*/".toList]).clear standard = (.ofLines [[]], ⟨1, 0⟩) := by
  refine ⟨⟨['x'], false, false, false, "/*|x|*/".toList⟩, by decide, ?_, rfl, rfl, by decide⟩
  rintro (h | ⟨rest, hrest, h⟩)
  · exact absurd h (by decide)
  · have hlen := congrArg List.length h
    have hlen' := congrArg List.length hrest
    simp only [List.length_append, List.length_cons] at hlen hlen'
    have hraw : "/*|x|*/".toList.length = 7 := by decide
    have hrender : (Tag.render standard ⟨['x'], .single, false⟩).length = 10 := by decide
    simp only [Sighting.tag, Sighting.role, Role.ofMarks] at hlen hlen'
    omega

end Grammar

end Marginalia
