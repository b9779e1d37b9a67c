import Mathlib.Data.List.Infix
import Marginalia.Proofs.PatternRemoval
import Marginalia.Proofs.Recognition

/-! # Where the tags of a line stand

    Tags are reported with the bytes of the line that they take. Two ways of looking for them
    are compared here, with what was written and with each other:

    * **`Piece.spans_append`**: the spans of a part of a line begin where it begins.
    * **`Grammar.spans_append_renderAll`**: tags that were written behind a text are read back
      in their order, each at the bytes that it was written to.
    * **`Grammar.OpensOutsideClosers`**: no opener begins inside of a closer.
    * **`Grammar.identifier_eq_of_inside`**: then a tag that begins inside of another one
      shares its identifier.
    * **`Grammar.piecesOf_eq`**: so looking for one identifier finds the tags that are
      reported with it, and removing them deletes just these
      (`Grammar.spans_piecesOf_and_removeTags`). -/

namespace Marginalia

open Text

/-! ## Section 1: Spans -/

namespace Piece

/-- The spans of the second part of a line begin behind the first part. -/
theorem spans_append (n : Nat) (ps qs : List Piece) :
    spans n (ps ++ qs) = spans n ps ++ spans (n + byteLength (ps.flatMap raw)) qs := by
  induction ps generalizing n with
  | nil => rfl
  | cons p ps ih =>
    rw [List.flatMap_cons, byteLength_append, ← Nat.add_assoc, List.cons_append]
    cases p with
    | plain c => exact ih _
    | tag t => exact congrArg _ (ih _)

theorem spans_map_plain (n : Nat) (s : List Char) : spans n (s.map plain) = [] := by
  induction s generalizing n with
  | nil => rfl
  | cons c s ih => exact ih _

/-- Tags that do not count for `sel` have no spans, and leave the others where they are. -/
theorem spans_flatMap_only (sel : Sighting → Bool) (n : Nat) (ps : List Piece) :
    spans n (ps.flatMap (only sel)) = (spans n ps).filter fun s => sel s.1 := by
  induction ps generalizing n with
  | nil => rfl
  | cons p ps ih =>
    rw [List.flatMap_cons, spans_append, ih]
    cases p with
    | plain c => simp [only, spans, raw]
    | tag t =>
      cases hst : sel t with
      | true => simp [only, spans, raw, hst]
      | false => simp [only, spans, raw, hst, spans_map_plain, flatMap_raw_map_plain]

/-- The spans of some tags, one after the other. -/
theorem spans_map_tag (g : Grammar) (n : Nat) (tags : List Tag) :
    spans n (tags.map fun t => .tag (.ofTag g t)) = tags.mapIdx fun i t =>
      (.ofTag g t, n + byteLength (Tag.renderAll g (tags.take i)),
        n + byteLength (Tag.renderAll g (tags.take (i + 1)))) := by
  induction tags generalizing n with
  | nil => rfl
  | cons t tags ih =>
    have hnil : byteLength [] = 0 := rfl
    have hraw : (Sighting.ofTag g t).raw = t.render g := rfl
    rw [List.map_cons, spans, List.mapIdx_cons]
    simp [ih, raw, hraw, hnil, byteLength_append, Nat.add_assoc]

end Piece

/-! ## Section 2: Lines as they are written -/

namespace Grammar

variable {g : Grammar} {identifier : List Char}

/-- A text with tags behind it is read back as these tags, in their order and at the bytes
    they were written to, and as the text if the tags are left out. -/
theorem spans_append_renderAll (hg : g.Unmarked) {u : List Char} (hu : g.hasHead u = false)
    {tags : List Tag} (ht : ∀ t ∈ tags, g.identifierFault? t.identifier = none) :
    Piece.spans 0 (g.pieces (u ++ Tag.renderAll g tags)) =
        tags.mapIdx (fun i t =>
          (.ofTag g t, byteLength (u ++ Tag.renderAll g (tags.take i)),
            byteLength (u ++ Tag.renderAll g (tags.take (i + 1))))) ∧
      (g.sightings (u ++ Tag.renderAll g tags)).map Sighting.tag = tags ∧
      g.untagged (u ++ Tag.renderAll g tags) = u := by
  let n : Annotated g := ⟨u, tags, .lf, hu, ht⟩
  refine ⟨?_, ?_, n.untagged_text hg⟩
  · have hpieces : g.pieces (u ++ Tag.renderAll g tags) =
        u.map .plain ++ tags.map fun t => .tag (.ofTag g t) := n.pieces_text hg
    rw [hpieces, Piece.spans_append, Piece.spans_map_plain, Piece.flatMap_raw_map_plain,
      Piece.spans_map_tag]
    simp [byteLength_append]
  · have hsightings : g.sightings (u ++ Tag.renderAll g tags) = tags.map (.ofTag g) :=
      n.sightings_text hg
    simp [hsightings, Function.comp_def]

/-- Delimiters that begin with the joiner, behind a text that ends with one of them and holds
    a character of two bytes. -/
theorem spans_append_renderAll_dashed :
    let g : Grammar := ⟨⟨'?', '|', '~', ['-', '-'], ['-']⟩, by decide⟩
    let tags : List Tag := [⟨['a'], .start, false⟩, ⟨['b'], .single, true⟩]
    "é--".toList ++ Tag.renderAll g tags = "é-----?|a|----?|b|?~-".toList ∧
      Piece.spans 0 (g.pieces "é-----?|a|----?|b|?~-".toList) =
        [(.ofTag g ⟨['a'], .start, false⟩, 4, 12), (.ofTag g ⟨['b'], .single, true⟩, 12, 22)] ∧
      g.untagged "é-----?|a|----?|b|?~-".toList = "é--".toList := by
  intro g tags
  have htext : "é--".toList ++ Tag.renderAll g tags = "é-----?|a|----?|b|?~-".toList := by decide
  have htags : ∀ t ∈ tags, g.identifierFault? t.identifier = none := by decide
  obtain ⟨hspans, -, huntagged⟩ := spans_append_renderAll (g := g) (u := "é--".toList)
    (by decide) (by decide) htags
  rw [htext] at hspans huntagged
  exact ⟨htext, hspans.trans (by decide), huntagged⟩

/-! ## Section 3: Tags inside of tags -/

/-- No opener of the text begins inside of a closer, not even where the closer begins. -/
def OpensOutsideClosers (g : Grammar) (s : List Char) : Prop :=
  ∀ i < s.length, ∀ j < s.length, g.opener <+: s.drop i → g.closer <+: s.drop j →
    i < j ∨ j + g.closer.length ≤ i

instance (g : Grammar) (s : List Char) : Decidable (g.OpensOutsideClosers s) :=
  inferInstanceAs (Decidable (∀ i < s.length, ∀ j < s.length, g.opener <+: s.drop i →
    g.closer <+: s.drop j → i < j ∨ j + g.closer.length ≤ i))

theorem OpensOutsideClosers.not_isPrefix {x z y v : List Char}
    (h : g.OpensOutsideClosers (x ++ (z ++ (y ++ v)))) (hcloser : z ++ y = g.closer)
    (hy : y ≠ []) :
    ¬ g.opener <+: y ++ v := by
  intro hopener
  have hypos := List.length_pos_iff.2 hy
  have hlen := congrArg List.length hcloser
  rw [List.length_append] at hlen
  have hi : (x ++ (z ++ (y ++ v))).drop (x.length + z.length) = y ++ v := by
    rw [← List.append_assoc, List.drop_left' (by simp)]
  have hj : (x ++ (z ++ (y ++ v))).drop x.length = g.closer ++ v := by
    rw [List.drop_left, ← hcloser, List.append_assoc]
  have hover := h (x.length + z.length) (by simp; omega) x.length (by simp; omega)
    (by rwa [hi]) (by rw [hj]; exact List.prefix_append _ _)
  omega

/-- A tag ends with its closer. -/
theorem IsTag.closer_isSuffix_raw {s : Sighting} (hs : g.IsTag s) : g.closer <:+ s.raw := by
  obtain ⟨joined, hraw⟩ := hs.spelled
  refine ⟨g.headText joined s.startMark ++ g.separator :: (s.identifier ++ g.separator ::
    ((if s.endMark then [g.boundary] else []) ++ if s.cleanup then [g.cleanup] else [])), ?_⟩
  rw [hraw]
  simp [tailText]

/-- A tag that begins inside of another one has its identifier: it begins in the head of the
    other one, which holds the whole head of both. -/
theorem identifier_eq_of_inside (hg : g.Unmarked) {s t : Sighting} (hs : g.IsTag s)
    (ht : g.Names t.identifier) {x y v : List Char}
    (hline : g.OpensOutsideClosers (x ++ (s.raw ++ v)))
    (hy : y <:+ s.raw) (hne : y ≠ []) (h : g.sighting? g.anyIdentifier? (y ++ v) = some t) :
    t.identifier = s.identifier := by
  obtain ⟨joined, hraw⟩ := hs.spelled
  obtain ⟨joined', inner, rest, htext, hid, -⟩ := sightedAt_of_sighting? h
  rw [hraw] at hy
  rcases isSuffix_append_cons hy with ⟨a, ha, rfl⟩ | hy
  · -- from the head on, both identifiers follow the same separator
    have hnot : g.separator ∉ a := fun hm => hg.separator_not_mem_headText _ _ (ha.subset hm)
    rw [List.append_assoc, List.cons_append] at htext
    obtain ⟨-, hinner⟩ := split_at_first_inj (hg.separator_not_mem_headText _ _) hnot htext
    rw [← hinner, List.append_assoc, List.cons_append,
      anyIdentifier?_of_chars hs.nonempty hs.chars] at hid
    exact (Prod.mk.inj (Option.some.inj hid)).1.symm
  · rcases isSuffix_append_cons hy with ⟨a, ha, rfl⟩ | hy
    · -- from the identifier on, that of the inner tag would begin with a tail
      exfalso
      have hnot : g.separator ∉ a := fun hm => hs.separator_not_mem (ha.subset hm)
      rw [List.append_assoc, List.cons_append] at htext
      obtain ⟨-, hinner⟩ := split_at_first_inj (hg.separator_not_mem_headText _ _) hnot htext
      rw [← hinner] at hid
      exact tailText_append_ne hg ht _ _ _ _ (eq_append_of_anyIdentifier? hid)
    · -- from the tail on, the opener of the inner tag would begin in the closer
      exfalso
      have hopener : g.opener <+: y ++ v := by
        rw [htext, headText, List.append_assoc]
        exact List.prefix_append _ _
      obtain ⟨k, ks, hk⟩ := List.exists_cons_of_ne_nil g.opener_ne_nil
      obtain ⟨c, cs, rfl⟩ := List.exists_cons_of_ne_nil hne
      have hmark : g.isMark c = false := by
        rw [hk, List.cons_append, List.cons_prefix_cons] at hopener
        rw [← hopener.1]
        exact hg k (by simp [hk])
      obtain ⟨z, hz⟩ := isSuffix_closer_of_isSuffix_tailText hmark hy
      obtain ⟨w, hw⟩ := hs.closer_isSuffix_raw
      have htags : x ++ (s.raw ++ v) = (x ++ w) ++ (z ++ (c :: cs ++ v)) := by
        rw [← hw, ← hz]
        simp
      rw [htags] at hline
      exact hline.not_isPrefix hz hne hopener

/-- Looking for one identifier finds the tags that can be read with it. -/
theorem sighting?_exactly_eq_filter (hg : g.Unmarked) (hid : g.Names identifier) (y : List Char) :
    g.sighting? (exactIdentifier? identifier) y =
      (g.sighting? g.anyIdentifier? y).filter fun t => t.identifier = identifier := by
  ext t
  rw [Option.filter_eq_some_iff, sighting?_eq_some_iff hg, sighting?_eq_some_iff hg]
  constructor
  · rintro ⟨joined, inner, rest, hy, hinner, hraw⟩
    obtain ⟨hsame, rfl⟩ := exactIdentifier?_eq_some hinner
    refine ⟨⟨joined, _, rest, hy, ?_, hraw⟩, decide_eq_true hsame⟩
    rw [anyIdentifier?_append hid, hsame]
  · rintro ⟨⟨joined, inner, rest, hy, hinner, hraw⟩, hsame⟩
    obtain rfl := of_decide_eq_true hsame
    refine ⟨joined, inner, rest, hy, ?_, hraw⟩
    rw [eq_append_of_anyIdentifier? hinner, exactIdentifier?_append]

/-- Where no opener begins inside of a closer, looking for one identifier finds the tags that
    are reported with it, and no others. -/
theorem piecesOf_eq (hg : g.Unmarked) (hid : g.Names identifier) {line : List Char}
    (hline : g.OpensOutsideClosers line) :
    g.piecesOf identifier line =
      (g.pieces line).flatMap (Piece.only fun t => t.identifier = identifier) := by
  unfold piecesOf
  rw [funext (sighting?_exactly_eq_filter hg hid)]
  refine Piece.cut_filter_of_inside g.finds_sighting? line fun ps s qs hcut hother y hy hne => ?_
  rw [Option.filter_eq_none_iff]
  intro t ht hsame
  -- the piece `s` was found where it stands, so it is a tag
  have hfirst := Piece.eq_cut_of_append g.finds_sighting? hcut
  have hs : g.IsTag s := isTag_of_sighting? (Piece.find_eq_some_of_cut hfirst.symm)
  have htext : line = ps.flatMap Piece.raw ++ (s.raw ++ qs.flatMap Piece.raw) := by
    rw [← Piece.flatMap_raw_cut g.finds_sighting? line, hcut]
    simp [Piece.raw]
  rw [htext] at hline
  obtain rfl := of_decide_eq_true hsame
  have hinside := identifier_eq_of_inside hg hs hid hline hy hne ht
  exact of_decide_eq_false hother hinside.symm

/-! ## Section 4: Removing what is reported -/

/-- Where no opener begins inside of a closer, looking for an accepted identifier finds the
    tags that are reported with it: the same ones, in the same order, at the same bytes. So
    removing the tags of an identifier deletes just those that are listed under it. -/
theorem spans_piecesOf_and_removeTags (hg : g.Unmarked)
    (hid : g.identifierFault? identifier = none) :
    (∀ line, g.OpensOutsideClosers line →
      Piece.spans 0 (g.piecesOf identifier line) =
        (Piece.spans 0 (g.pieces line)).filter fun s => s.1.identifier = identifier) ∧
    ∀ d : Document, (∀ l ∈ d.lines, g.OpensOutsideClosers l.text) →
      d.removeTags g identifier =
        ({ d with lines := d.lines.filterMap (Line.without g (· = identifier)) },
          { tagsRemoved  := (d.occurrences g).countP fun o => o.tag.identifier = identifier
            linesRemoved :=
              d.lines.length - (d.lines.filterMap (Line.without g (· = identifier))).length }) := by
  have hname := names_of_identifierFault?_eq_none hid
  constructor
  · intro line hline
    rw [piecesOf_eq hg hname hline]
    exact Piece.spans_flatMap_only _ 0 _
  · intro d hd
    exact Document.remove_eq_without (· = identifier) fun l hl => piecesOf_eq hg hname (hd l hl)

/-- A tag behind the beginning of another one of the same identifier, which is not closed. -/
theorem spans_piecesOf_and_removeTags_unclosed :
    let line := "/*-?|t|/*-?|t|~*/x/*|a|*/".toList
    standard.OpensOutsideClosers line ∧
      Piece.spans 0 (standard.piecesOf ['t'] line) =
        [(⟨['t'], true, false, true, "/*-?|t|~*/".toList⟩, 7, 17)] ∧
      (Document.ofLines [line]).removeTags standard ['t'] =
        (.ofLines ["/*-?|t|x/*|a|*/".toList], ⟨1, 0⟩) := by
  intro line
  have hline : standard.OpensOutsideClosers line := by decide
  have hid : standard.identifierFault? ['t'] = none := by decide
  obtain ⟨hspans, hremove⟩ := spans_piecesOf_and_removeTags (g := standard) (by decide) hid
  refine ⟨hline, (hspans line hline).trans (by decide), ?_⟩
  rw [hremove (.ofLines [line]) (by decide)]
  decide

end Grammar

end Marginalia
