import Marginalia.Proofs.Annotated
import Marginalia.Proofs.Recognition

/-! # Removing tags twice

    The tags of a line are taken out from left to right, all in one go. What stood on the
    two sides of a tag stands together afterwards, and may be a tag in turn: the only tag of
    `/*-?|/*-?|a|?*/b|?*/` is that of `a`, and without it the line is a tag of `b`.

    * **`Piece.Recognises`**: the texts of a kind are found wherever they stand, and nothing
      else is.
    * **`Piece.Rejoins`**: two parts of a line that tags keep apart are of the kind together.
    * **`Piece.Recognises.sightings_cut_untagged_eq_nil_iff`**: nothing else is left to be
      found.
    * **`Document.removal_complete_iff`**: when removing tags once is enough. -/

namespace Marginalia

open Text

/-! ## Section 1: Cutting once -/

namespace Piece

variable {find : List Char → Option Sighting} {kind : List Char → Prop}

/-- The texts of a kind are found wherever they stand, and nothing else is. What is found
    there may be longer, if another text of the kind begins with it. -/
structure Recognises (find : List Char → Option Sighting) (kind : List Char → Prop) : Prop where
  found    : ∀ s t, find s = some t → kind t.raw ∧ t.raw <+: s
  nonempty : ∀ x, kind x → x ≠ []
  finds    : ∀ x v, kind x → ∃ t, find (x ++ v) = some t

namespace Recognises

theorem finds_find (h : Recognises find kind) : Finds find :=
  fun s t ht => ⟨h.nonempty _ (h.found s t ht).1, (h.found s t ht).2⟩

/-- Where a text of the kind begins, a tag is cut off. -/
theorem exists_cut_eq_tag_cons (h : Recognises find kind) {x : List Char} (hx : kind x)
    (v : List Char) : ∃ t ps, cut find 0 (x ++ v) = .tag t :: ps := by
  obtain ⟨t, ht⟩ := h.finds x v hx
  obtain ⟨c, cs, rfl⟩ := List.exists_cons_of_ne_nil (h.nonempty x hx)
  rw [List.cons_append] at ht ⊢
  simp [cut, ht]

/-- Nothing is found in a text exactly if no text of the kind stands in it. -/
theorem sightings_cut_eq_nil_iff (h : Recognises find kind) {s : List Char} :
    sightings (cut find 0 s) = [] ↔ ∀ x, kind x → ¬ x <:+: s := by
  constructor
  · rintro hnone x hx ⟨a, b, rfl⟩
    have hfree : ∀ t, .tag t ∉ cut find 0 (a ++ x ++ b) := by
      intro t ht
      rw [← mem_sightings_iff, hnone] at ht
      exact absurd ht List.not_mem_nil
    have hraw := flatMap_raw_cut h.finds_find (a ++ x ++ b)
    rw [List.append_assoc] at hraw hfree
    rcases split_or_cross hraw with ⟨ps, qs, hcut, -, hqs⟩ | ⟨ps, t, qs, -, -, hcut, -⟩
    · -- the pieces from `x` on begin with a tag
      obtain ⟨t, rs, hrs⟩ := h.exists_cut_eq_tag_cons hx b
      have hsame := eq_cut_of_append h.finds_find hcut
      rw [hqs, hrs] at hsame
      exact hfree t (by simp [hcut, hsame])
    · exact hfree t (by simp [hcut])
  · intro hno
    by_contra hsome
    obtain ⟨t, ht⟩ := List.exists_mem_of_ne_nil _ hsome
    obtain ⟨x, v, rfl, hfind⟩ := exists_find_of_tag_mem_cut h.finds_find (mem_sightings_iff.1 ht)
    exact hno t.raw (h.found _ t hfind).1 ⟨x, v, by simp⟩

/-- Characters next to each other that are left by a cut are not of the kind. -/
theorem not_kind_of_map_plain_isInfix (h : Recognises find kind) {s x : List Char}
    (hx : x.map .plain <:+: cut find 0 s) : ¬ kind x := by
  intro hkind
  obtain ⟨ps, qs, hcut⟩ := hx
  rw [List.append_assoc] at hcut
  have hsame := eq_cut_of_append h.finds_find hcut.symm
  rw [List.flatMap_append, flatMap_raw_map_plain] at hsame
  obtain ⟨t, rs, hrs⟩ := h.exists_cut_eq_tag_cons hkind (qs.flatMap raw)
  obtain ⟨c, cs, rfl⟩ := List.exists_cons_of_ne_nil (h.nonempty x hkind)
  rw [hrs] at hsame
  cases hsame

end Recognises

/-- Two parts of a text that tags keep apart are of the kind together. -/
def Rejoins (kind : List Char → Prop) (ps : List Piece) : Prop :=
  ∃ qs t rs, qs ++ .tag t :: rs <:+: ps ∧ untagged qs ≠ [] ∧ untagged rs ≠ [] ∧
    kind (untagged qs ++ untagged rs)

/-- The characters in front of the first tag, if there is one. -/
theorem exists_first_tag (ps : List Piece) :
    ps = (untagged ps).map .plain ∨
      ∃ (x : List Char) (t : Sighting) (rs : List Piece), ps = x.map .plain ++ .tag t :: rs := by
  induction ps with
  | nil => exact .inl rfl
  | cons p ps ih =>
    cases p with
    | tag t => exact .inr ⟨[], t, ps, rfl⟩
    | plain c =>
      rcases ih with hplain | ⟨x, t, rs, rfl⟩
      · exact .inl (congrArg (Piece.plain c :: ·) hplain)
      · exact .inr ⟨c :: x, t, rs, rfl⟩

namespace Recognises

/-- Pieces of a cut whose characters are of the kind hold a tag between them. -/
theorem rejoins_of_kind (h : Recognises find kind) {s : List Char} {qs : List Piece}
    (hqs : qs <:+: cut find 0 s) (hkind : kind (untagged qs)) : Rejoins kind (cut find 0 s) := by
  -- tags in front are passed over until a character is the first piece
  induction qs with
  | nil => exact absurd rfl (h.nonempty _ hkind)
  | cons p qs ih =>
    cases p with
    | tag t => exact ih ((List.suffix_cons _ _).isInfix.trans hqs) hkind
    | plain c =>
      rcases exists_first_tag (.plain c :: qs) with hplain | ⟨x, t, rs, hfirst⟩
      · rw [hplain] at hqs
        exact absurd hkind (h.not_kind_of_map_plain_isInfix hqs)
      · rw [hfirst, untagged_append, untagged_map_plain, untagged_tag_cons] at hkind
        rw [hfirst] at hqs
        refine ⟨x.map .plain, t, rs, hqs, ?_, ?_, by rwa [untagged_map_plain]⟩
        · -- the first piece is a character
          rw [untagged_map_plain]
          rintro rfl
          cases hfirst
        · -- characters alone would have been cut off
          intro hnil
          rw [hnil, List.append_nil] at hkind
          exact h.not_kind_of_map_plain_isInfix ((List.prefix_append _ _).isInfix.trans hqs) hkind

/-- After all tags were taken out of a text, more are found exactly if parts of it that
    they kept apart are one together. -/
theorem sightings_cut_untagged_eq_nil_iff (h : Recognises find kind) {s : List Char} :
    sightings (cut find 0 (untagged (cut find 0 s))) = [] ↔ ¬ Rejoins kind (cut find 0 s) := by
  rw [h.sightings_cut_eq_nil_iff]
  constructor
  · rintro hno ⟨qs, t, rs, hinfix, -, -, hkind⟩
    refine hno _ hkind (List.infix_filterMap_iff.2 ⟨_, hinfix, ?_⟩)
    rw [← untagged, untagged_append, untagged_tag_cons]
  · intro hno x hx hinfix
    obtain ⟨qs, hqs, rfl⟩ := List.infix_filterMap_iff.1 hinfix
    exact hno (h.rejoins_of_kind hqs hx)

end Recognises

end Piece

/-! ## Section 2: The tags that are meant -/

namespace Grammar

variable {g : Grammar} {meant : List Char → Prop}

/-- The text of a tag with an identifier that is meant. -/
def TagText (g : Grammar) (meant : List Char → Prop) (x : List Char) : Prop :=
  ∃ s, g.IsTag s ∧ meant s.identifier ∧ s.raw = x

/-- The text of a tag can be seen: it begins with an opener. -/
theorem not_allBlank_of_tagText {x y : List Char} (h : g.TagText meant x) (hy : x <:+: y) :
    allBlank y = false := by
  obtain ⟨s, hs, -, rfl⟩ := h
  obtain ⟨joined, hraw⟩ := hs.spelled
  rw [← Bool.not_eq_true]
  intro hblank
  have hno := not_occursIn_opener_of_allBlank (g := g) hblank
  rw [← Bool.not_eq_true, occursIn_iff] at hno
  apply hno
  have hopener : g.opener <+: s.raw := by
    rw [hraw, headText, List.append_assoc]
    exact List.prefix_append _ _
  exact hopener.isInfix.trans hy

/-- Some tag is read where a head, an identifier and a tail stand. -/
theorem exists_closed? (startMark : Bool) (head identifier : List Char) (endMark cleanup : Bool)
    (v : List Char) : ∃ t, g.closed? startMark head identifier
      (g.separator :: (g.tailText endMark cleanup ++ v)) = some t := by
  rw [← Option.isSome_iff_exists]
  unfold closed?
  rw [List.findSome?_isSome_iff]
  refine ⟨_, mem_tails_iff.2 (rfl : g.separator :: g.tailText endMark cleanup = _), ?_⟩
  have hafter : after? (g.separator :: g.tailText endMark cleanup)
      (g.separator :: (g.tailText endMark cleanup ++ v)) = some v :=
    after?_eq_some_iff.2 (by simp)
  simp only [hafter, Option.map_some, Option.isSome_some]

/-- What is read and what is found by the same way to read an identifier. -/
theorem recognises_sighting? {identifier? : List Char → Option (List Char × List Char)}
    (hread : ∀ s i v, identifier? s = some (i, v) →
      s = i ++ v ∧ meant i ∧ i ≠ [] ∧ ∀ c ∈ i, g.isIdentifierChar c = true)
    (hid : ∀ s, g.IsTag s → meant s.identifier → ∀ v,
      identifier? (s.identifier ++ g.separator :: v) = some (s.identifier, g.separator :: v)) :
    Piece.Recognises (g.sighting? identifier?) (g.TagText meant) where
  found := by
    intro y s hs
    obtain ⟨joined, inner, rest, rfl, hinner, hraw⟩ := sightedAt_of_sighting? hs
    obtain ⟨rfl, hmeant, hne, hchars⟩ := hread _ _ _ hinner
    refine ⟨⟨s, ⟨hne, hchars, joined, hraw⟩, hmeant, rfl⟩, rest, ?_⟩
    rw [hraw]
    simp
  nonempty := by
    rintro x ⟨s, hs, -, rfl⟩
    exact hs.raw_ne_nil
  finds := by
    rintro x v ⟨s, hs, hmeant, rfl⟩
    obtain ⟨joined, hfind, -⟩ := hs.sighting?_raw_append (hid s hs hmeant) v
    rw [hfind]
    exact exists_closed? _ _ _ _ _ _

end Grammar

/-- The selector takes out the tags with the identifiers that are meant. -/
def Selector.Takes (g : Grammar) (sel : Selector) (meant : List Char → Prop) : Prop :=
  ∃ find, (∀ line, sel.pieces g line = Piece.cut find 0 line) ∧
    Piece.Recognises find (g.TagText meant)

namespace Selector

variable {g : Grammar}

theorem takes_any (g : Grammar) : Selector.any.Takes g fun _ => True := by
  refine ⟨_, fun _ => rfl, Grammar.recognises_sighting? ?_ ?_⟩
  · intro s i v h
    obtain ⟨hne, hchars⟩ := Grammar.chars_of_anyIdentifier? h
    exact ⟨Grammar.eq_append_of_anyIdentifier? h, trivial, hne, hchars⟩
  · intro s hs _ v
    exact Grammar.anyIdentifier?_of_chars hs.nonempty hs.chars v

theorem takes_exactly {identifier : List Char} (h : g.Names identifier) :
    (Selector.exactly identifier).Takes g (· = identifier) := by
  refine ⟨_, fun _ => rfl, Grammar.recognises_sighting? ?_ ?_⟩
  · intro s i v hi
    obtain ⟨rfl, rfl⟩ := Grammar.exactIdentifier?_eq_some hi
    refine ⟨rfl, rfl, h.nonempty, fun c hc => ?_⟩
    have hne : c ≠ g.separator := fun he => h.separator_not_mem (he ▸ hc)
    simp [Grammar.isIdentifierChar, hne, h.oneLine c hc]
  · rintro s - rfl v
    exact Grammar.exactIdentifier?_append _ _

end Selector

/-! ## Section 3: Removing twice -/

/-- Nothing is left to be taken out of a line exactly if no parts of it that the tags keep
    apart are a tag together. A line that goes with its tags has no such parts. -/
theorem Line.forall_strip_iff {g : Grammar} {sel : Selector} {meant : List Char → Prop}
    (h : sel.Takes g meant) (l : Line) :
    (∀ m, (l.strip g sel).1 = some m → Piece.sightings (sel.pieces g m.text) = []) ↔
      ¬ Piece.Rejoins (g.TagText meant) (sel.pieces g l.text) := by
  obtain ⟨find, hcut, hrec⟩ := h
  have hraw : (sel.pieces g l.text).flatMap Piece.raw = l.text := by
    rw [hcut]
    exact Piece.flatMap_raw_cut hrec.finds_find l.text
  rcases Line.fst_strip_cases hraw with hleft | ⟨hgone, hblank⟩
  · simp only [hleft, Option.some.injEq, forall_eq']
    rw [hcut, hcut, hrec.sightings_cut_untagged_eq_nil_iff]
  · -- what would be a tag can be seen, so the line would have stayed
    simp only [hgone, reduceCtorEq, false_implies, implies_true, true_iff]
    rintro ⟨qs, t, rs, hinfix, -, -, hkind⟩
    have hin : Piece.untagged qs ++ Piece.untagged rs <:+:
        Piece.untagged (sel.pieces g l.text) := by
      refine List.infix_filterMap_iff.2 ⟨_, hinfix, ?_⟩
      rw [← Piece.untagged, Piece.untagged_append, Piece.untagged_tag_cons]
    rw [Grammar.not_allBlank_of_tagText hkind hin] at hblank
    cases hblank

/-- On a line as it is written, tags keep no parts of a tag apart. -/
theorem Line.IsAnnotated.not_rejoins {g : Grammar} {sel : Selector} {meant : List Char → Prop}
    {p : Tag → Bool} (h : sel.Takes g meant) (hsel : sel.Selects g p) {l : Line}
    (hl : l.IsAnnotated g) : ¬ Piece.Rejoins (g.TagText meant) (sel.pieces g l.text) := by
  obtain ⟨find, hcut, hrec⟩ := h
  obtain ⟨own, tags, hown, hnamed, htext⟩ := hl
  let n : Annotated g := ⟨own, tags, .lf, hown, hnamed⟩
  have hn : l.text = n.text := htext
  -- the tags that are left are not meant
  have hnone : (n.without p).tags.filter p = [] := by
    simp [Annotated.without, List.filter_filter]
  rw [hn, hcut, ← hrec.sightings_cut_untagged_eq_nil_iff, ← hcut, ← hcut, (hsel n).2,
    (hsel (n.without p)).1, hnone, List.map_nil]

namespace Document

variable {g : Grammar} {d : Document} {sel : Selector}

theorem mem_lines_remove {m : Line} :
    m ∈ (d.remove g sel).1.lines ↔ ∃ l ∈ d.lines, (l.strip g sel).1 = some m := by
  simp [Document.remove]

/-- Removing changes nothing exactly if nothing is found. -/
theorem remove_eq_self_iff :
    d.remove g sel = (d, ⟨0, 0⟩) ↔
      ∀ l ∈ d.lines, Piece.sightings (sel.pieces g l.text) = [] := by
  have hcount : (d.remove g sel).2.tagsRemoved = 0 ↔
      ∀ l ∈ d.lines, Piece.sightings (sel.pieces g l.text) = [] := by
    simp [Document.remove, total_eq_zero_iff, Line.snd_strip]
  rw [← hcount]
  constructor
  · intro h
    rw [h]
  · intro h
    have hself := remove_eq_self h
    have hlines : (d.remove g sel).2.linesRemoved =
        d.lines.length - (d.remove g sel).1.lines.length := rfl
    rw [hself, Nat.sub_self] at hlines
    have hremoval : (d.remove g sel).2 =
        ⟨(d.remove g sel).2.tagsRemoved, (d.remove g sel).2.linesRemoved⟩ := rfl
    rw [h, hlines] at hremoval
    exact Prod.ext hself hremoval

theorem exists_mem_occurrences_iff {p : Tag → Prop} :
    (∃ o ∈ d.occurrences g, p o.tag) ↔ ∃ l ∈ d.lines, ∃ s ∈ g.sightings l.text, p s.tag := by
  unfold occurrences texts
  -- the number of the first line does not matter
  generalize 1 = n
  induction d.lines generalizing n with
  | nil => simp
  | cons l ls ih =>
    simp only [List.map_cons, List.zipIdx_cons, List.flatMap_cons, List.mem_append, or_and_right,
      exists_or, ih, List.exists_mem_cons_iff]
    simp

/-- Removing again changes nothing exactly if on no line tags keep parts of a tag apart. -/
theorem remove_remove_iff {meant : List Char → Prop} (h : sel.Takes g meant) :
    (d.remove g sel).1.remove g sel = ((d.remove g sel).1, ⟨0, 0⟩) ↔
      ∀ l ∈ d.lines, ¬ Piece.Rejoins (g.TagText meant) (sel.pieces g l.text) := by
  rw [remove_eq_self_iff]
  simp only [mem_lines_remove, ← Line.forall_strip_iff h]
  exact ⟨fun hall l hl m hm => hall m ⟨l, hl, hm⟩, fun hall m ⟨l, hl, hm⟩ => hall l hl m hm⟩

/-- What is meant is reported only where it can be removed. -/
theorem not_meant_of_remove_eq_self {meant : List Char → Prop} (h : sel.Takes g meant)
    (hself : d.remove g sel = (d, ⟨0, 0⟩)) : ∀ o ∈ d.occurrences g, ¬ meant o.tag.identifier := by
  obtain ⟨find, hcut, hrec⟩ := h
  intro o ho hmeant
  obtain ⟨l, hl, s, hs, hmeant⟩ :=
    (exists_mem_occurrences_iff (p := fun t => meant t.identifier)).1 ⟨o, ho, hmeant⟩
  obtain ⟨x, v, htext, hfind⟩ :=
    Piece.exists_find_of_tag_mem_cut g.finds_sighting? (Piece.mem_sightings_iff.1 hs)
  have hnone := remove_eq_self_iff.1 hself l hl
  rw [hcut, hrec.sightings_cut_eq_nil_iff] at hnone
  exact hnone s.raw ⟨s, Grammar.isTag_of_sighting? hfind, hmeant, rfl⟩ ⟨x, v, by simp [htext]⟩

/-- When removing is complete, and can be repeated without effect. -/
theorem remove_complete_iff {meant : List Char → Prop} (h : sel.Takes g meant) :
    ((∀ o ∈ (d.remove g sel).1.occurrences g, ¬ meant o.tag.identifier) ∧
        (d.remove g sel).1.remove g sel = ((d.remove g sel).1, ⟨0, 0⟩)) ↔
      ∀ l ∈ d.lines, ¬ Piece.Rejoins (g.TagText meant) (sel.pieces g l.text) := by
  rw [← remove_remove_iff h]
  exact ⟨And.right, fun hself => ⟨not_meant_of_remove_eq_self h hself, hself⟩⟩

/-- Clearing tags, and removing those of an identifier, leaves none of them and changes
    nothing if it is done again, exactly if on no line two parts of such a tag are kept apart
    by tags that go. On lines as they are written, no tags do that. -/
theorem removal_complete_iff (g : Grammar) (d : Document) {identifier : List Char}
    (hid : g.identifierFault? identifier = none) :
    (((d.clear g).1.occurrences g = [] ∧ (d.clear g).1.clear g = ((d.clear g).1, ⟨0, 0⟩)) ↔
        ∀ l ∈ d.lines, ¬ Piece.Rejoins (g.TagText fun _ => True) (Selector.any.pieces g l.text)) ∧
      (((∀ o ∈ (d.removeTags g identifier).1.occurrences g, o.tag.identifier ≠ identifier) ∧
          (d.removeTags g identifier).1.removeTags g identifier =
            ((d.removeTags g identifier).1, ⟨0, 0⟩)) ↔
        ∀ l ∈ d.lines, ¬ Piece.Rejoins (g.TagText (· = identifier))
          ((Selector.exactly identifier).pieces g l.text)) ∧
      (g.Unmarked → ∀ l ∈ d.lines, l.IsAnnotated g →
        ¬ Piece.Rejoins (g.TagText fun _ => True) (Selector.any.pieces g l.text) ∧
          ¬ Piece.Rejoins (g.TagText (· = identifier))
            ((Selector.exactly identifier).pieces g l.text)) := by
  have hname := Grammar.names_of_identifierFault?_eq_none hid
  have hany := Selector.takes_any g
  have hexact := Selector.takes_exactly hname
  refine ⟨?_, remove_complete_iff hexact, fun hg l _ hl => ⟨?_, ?_⟩⟩
  · rw [← remove_complete_iff hany]
    simp only [not_true_eq_false, List.eq_nil_iff_forall_not_mem, clear]
  · exact hl.not_rejoins hany (Selector.selects_any hg)
  · exact hl.not_rejoins hexact (Selector.selects_exactly hg hname.separator_not_mem)

/-- The tag inside of another one keeps its parts apart. -/
theorem removal_complete_iff_nested :
    let d := Document.ofLines ["/*-?|/*-?|t|?*/t|?*/".toList]
    Grammar.standard.identifierFault? ['t'] = none ∧
      (d.removeTags .standard ['t']).1 = .ofLines ["/*-?|t|?*/".toList] ∧
      ¬ ((∀ o ∈ (d.removeTags .standard ['t']).1.occurrences .standard,
            o.tag.identifier ≠ ['t']) ∧
          (d.removeTags .standard ['t']).1.removeTags .standard ['t'] =
            ((d.removeTags .standard ['t']).1, ⟨0, 0⟩)) := by
  intro d
  have hid : Grammar.standard.identifierFault? ['t'] = none := by decide
  let inner : Sighting := ⟨['t'], true, true, false, "/*-?|t|?*/".toList⟩
  have hcut : (Selector.exactly ['t']).pieces .standard "/*-?|/*-?|t|?*/t|?*/".toList =
      "/*-?|".toList.map .plain ++ .tag inner :: "t|?*/".toList.map .plain := by rfl
  have hchars : ∀ c ∈ ['t'], Grammar.standard.isIdentifierChar c = true := by
    intro c hc
    obtain rfl := List.mem_singleton.1 hc
    rfl
  have htag : Grammar.standard.IsTag inner := ⟨List.cons_ne_nil _ _, hchars, true, rfl⟩
  refine ⟨hid, by rfl, ?_⟩
  rw [(removal_complete_iff .standard d hid).2.1]
  intro hno
  have hbefore : Piece.untagged ("/*-?|".toList.map .plain) ≠ [] := by
    rw [Piece.untagged_map_plain]
    decide
  have hbehind : Piece.untagged ("t|?*/".toList.map .plain) ≠ [] := by
    rw [Piece.untagged_map_plain]
    decide
  -- what stands before and behind the inner tag is a tag with the same text
  exact hno _ List.mem_cons_self ⟨_, inner, _, hcut ▸ List.infix_rfl, hbefore, hbehind, inner, htag,
    rfl, rfl⟩

end Document

end Marginalia
