import Mathlib.Data.List.Count
import Marginalia.Listing
import Marginalia.Removal
import Marginalia.Proofs.Cutting
import Marginalia.Proofs.TagReading

/-! # Removing the tags that a pattern selects

    The pattern of an identifier is pasted into the pattern of a tag. What it matches
    there may run over a separator, and a tag may begin inside another one, so removing
    by a pattern deletes more than tags in general. This module says when it does not:

    * **`Grammar.Selects`**: the expression matches a whole identifier.
    * **`Grammar.ReadsIdentifiers`**: between a head and a tail, the expression matches
      nothing but identifiers.
    * **`Grammar.ReportsSelected`**: the selected tags of a line are among those that are
      reported.
    * **`TagPattern.Spells.cut_eq`**: then the pattern cuts the line at the reported tags
      that it selects, and nowhere else.
    * **`Grammar.readsIdentifiers_of_takesOnly`**: the first condition holds of all lines
      if the expression takes neither separators nor line breaks, and always something.
    * **`Document.removeMatching?_eq`**: removing by such a pattern deletes exactly the
      tags that it selects. -/

namespace Marginalia

open Text

/-! ## Section 1: Selected tags -/

namespace Grammar

variable (g : Grammar) (r : Regex)

/-- The expression matches the whole identifier, where it stands between separators. -/
def Selects (identifier : List Char) : Prop :=
  r.Matches (some g.separator) identifier [g.separator]

variable {g r}

/-- The matcher decides what is selected. -/
theorem selects_iff {identifier : List Char} :
    g.Selects r identifier ↔
      ∃ q ∈ r.ends ⟨0, some g.separator, identifier ++ [g.separator], []⟩,
        q.offset = identifier.length := by
  constructor
  · intro h
    obtain ⟨q, hq, ho⟩ := (Regex.realizes_ends r _).complete
      (Place.Leads.exists_of_rest (p := ⟨0, some g.separator, _, []⟩) rfl) h
    exact ⟨q, hq, by simpa using ho⟩
  · -- of the words that end there, there is only one
    intro h
    obtain ⟨q, hq, ho⟩ := h
    obtain ⟨w, hw, h⟩ := (Regex.realizes_ends r _).sound hq
    have hlen : identifier.length = w.length := by
      have := hw.offset
      simp only at this
      omega
    obtain ⟨rfl, hrest⟩ := List.append_inj hw.rest hlen
    rw [← hrest] at h
    exact h

instance : DecidablePred (g.Selects r) := fun _ => decidable_of_iff' _ selects_iff

variable (g r)

/-- Wherever the expression matches between a head and a tail of the line, it matches an
    identifier. -/
def ReadsIdentifiers (line : List Char) : Prop :=
  ∀ head ∈ g.heads, ∀ tail ∈ g.tails, ∀ u w v, line = u ++ (head.2 ++ (w ++ (tail.2.2 ++ v))) →
    r.Matches (some g.separator) w (tail.2.2 ++ v) →
      w ≠ [] ∧ ∀ c ∈ w, g.isIdentifierChar c = true

/-- Wherever a selected tag can be read in the line, it is reported. -/
def ReportsSelected (line : List Char) : Prop :=
  ∀ u s t, line = u ++ s → g.sighting? g.anyIdentifier? s = some t → g.Selects r t.identifier →
    ∃ ps qs, g.pieces line = ps ++ .tag t :: qs ∧ ps.flatMap Piece.raw = u

end Grammar

/-! ## Section 2: Reading one tag with a pattern -/

namespace Grammar

variable {g : Grammar}

theorem lastChar_of_mem_heads {head : Bool × List Char} (h : head ∈ g.heads)
    (prev : Option Char) : lastChar prev head.2 = some g.separator := by
  obtain ⟨marked, head⟩ := head
  obtain ⟨joined, rfl⟩ := mem_heads_iff.1 h
  simp [lastChar]

variable {s : List Char}

theorem after?_eq_none_of_no_head (hhead : ¬ ∃ head ∈ g.heads, ∃ inner, s = head.2 ++ inner)
    {head : Bool × List Char} (h : head ∈ g.heads) : after? head.2 s = none := by
  rw [Option.eq_none_iff_forall_ne_some]
  intro inner hinner
  exact hhead ⟨head, h, inner, after?_eq_some_iff.1 hinner⟩

/-- Where no head stands, no tag is read. -/
theorem sighting?_of_no_head (hhead : ¬ ∃ head ∈ g.heads, ∃ inner, s = head.2 ++ inner)
    {identifier? : List Char → Option (List Char × List Char)} :
    g.sighting? identifier? s = none := by
  rw [sighting?, List.findSome?_eq_none_iff]
  intro head hmem
  simp [after?_eq_none_of_no_head hhead hmem]

end Grammar

namespace TagPattern

open Grammar

variable {g : Grammar} {p : TagPattern} {r : Regex} {last : Nat} {s : List Char}

/-- What an expression matches behind a head. -/
theorem exists_of_mem_ends {prev : Option Char} {startMark : Bool} {head inner : List Char}
    (hhead : (startMark, head) ∈ g.heads) {q : Place}
    (hq : q ∈ r.ends (behindHead g prev (head ++ inner) startMark head inner)) :
    ∃ w, inner = w ++ q.rest ∧ q.offset = head.length + w.length ∧
      r.Matches (some g.separator) w q.rest := by
  obtain ⟨w, hw, hr⟩ := (Regex.realizes_ends r _).sound hq
  have hoffset := hw.offset
  simp only [behindHead, Regex.behind, lastChar_of_mem_heads hhead] at hr hoffset
  exact ⟨w, hw.rest, by omega, hr⟩

theorem exists_mem_ends (prev : Option Char) {startMark : Bool} {head w outer : List Char}
    (hhead : (startMark, head) ∈ g.heads) (hw : r.Matches (some g.separator) w outer) :
    ∃ q ∈ r.ends (behindHead g prev (head ++ (w ++ outer)) startMark head (w ++ outer)),
      q.rest = outer := by
  obtain ⟨q, hq, ho⟩ := (Regex.realizes_ends r _).complete
    (Place.Leads.exists_of_rest
      (p := behindHead g prev (head ++ (w ++ outer)) startMark head (w ++ outer)) rfl)
    (by simpa only [behindHead, Regex.behind, lastChar_of_mem_heads hhead] using hw)
  obtain ⟨w', hw', hoffset, -⟩ := exists_of_mem_ends hhead hq
  have hlen : w.length = w'.length := by
    simp only [behindHead, Regex.behind] at ho
    omega
  exact ⟨q, hq, (List.append_inj hw' hlen).2.symm⟩

/-- Reading a tag with a pattern behind a head. -/
theorem Spells.sighting?_head_append (h : p.Spells g r last) (prev : Option Char)
    {startMark : Bool} {head inner : List Char} (hhead : (startMark, head) ∈ g.heads) :
    p.sighting? prev (head ++ inner) =
      (r.ends (behindHead g prev (head ++ inner) startMark head inner)).findSome? fun q =>
        g.closed? startMark head (inner.take (q.offset - head.length)) q.rest := by
  rw [h.sighting?_eq]
  refine (findSome?_heads hhead fun startMark head' inner' =>
    (r.ends (behindHead g prev (head ++ inner) startMark head' inner')).findSome? fun q =>
      g.tails.findSome? fun r => (after? r.2.2 q.rest).map fun _ =>
        ({ identifier := inner'.take (q.offset - head'.length)
           startMark
           endMark := r.1
           cleanup := r.2.1
           raw := (head ++ inner).take (q.offset + r.2.2.length) } : Sighting)).trans ?_
  refine findSome?_congr fun q hq => ?_
  obtain ⟨w, hinner, hoffset, -⟩ := exists_of_mem_ends hhead hq
  have htake : inner.take (q.offset - head.length) = w := by
    rw [hoffset, hinner, Nat.add_sub_cancel_left, List.take_left]
  rw [htake, closed?]
  refine findSome?_congr fun r htail => ?_
  obtain ⟨endMark, cleanup, tail⟩ := r
  simp only
  cases hafter : after? tail q.rest with
  | none => rfl
  | some v =>
    have hraw : (head ++ inner).take (q.offset + tail.length) = head ++ w ++ tail := by
      rw [hinner, after?_eq_some_iff.1 hafter, hoffset, ← List.length_append,
        ← List.length_append, ← List.append_assoc, ← List.append_assoc, List.take_left]
    rw [hraw]

/-- Where no head stands, a pattern sights no tag. -/
theorem Spells.sighting?_of_no_head (h : p.Spells g r last) {prev : Option Char}
    (hhead : ¬ ∃ head ∈ g.heads, ∃ inner, s = head.2 ++ inner) : p.sighting? prev s = none := by
  rw [h.sighting?_eq, List.findSome?_eq_none_iff]
  intro head hmem
  simp [after?_eq_none_of_no_head hhead hmem]

/-- A tag that the pattern sights behind a head is one that is read with any identifier, and
    the pattern selects it. -/
theorem sighted_of_closed? {prev : Option Char} {startMark : Bool} {head inner : List Char}
    (hhead : (startMark, head) ∈ g.heads) (hread : g.ReadsIdentifiers r (head ++ inner))
    {q : Place} (hq : q ∈ r.ends (behindHead g prev (head ++ inner) startMark head inner))
    {t : Sighting}
    (ht : g.closed? startMark head (inner.take (q.offset - head.length)) q.rest = some t) :
    g.sighting? g.anyIdentifier? (head ++ inner) = some t ∧ g.Selects r t.identifier := by
  obtain ⟨w, rfl, hoffset, hw⟩ := exists_of_mem_ends hhead hq
  rw [hoffset, Nat.add_sub_cancel_left, List.take_left] at ht
  obtain ⟨hid, tail, htail, v, hrest, -⟩ := exists_of_closed? ht
  obtain ⟨k, hk⟩ := exists_cons_of_mem_tails htail
  have hsep : q.rest = g.separator :: (k ++ v) := by
    rw [hrest, hk, List.cons_append]
  have hchars := hread _ hhead tail htail [] w v (by rw [hrest]; rfl) (hrest ▸ hw)
  constructor
  · rw [Grammar.sighting?_head_append hhead, hsep,
      anyIdentifier?_of_chars hchars.1 hchars.2, Option.bind_some, ← hsep]
    exact ht
  · rw [hid]
    exact Regex.looksAtOne_matches r _ _ _ _ (by rw [hsep]; rfl) hw

/-- A pattern sights a tag where one is read with any identifier, and the pattern selects
    it. -/
theorem Spells.sighting?_eq_filter (h : p.Spells g r last) (hread : g.ReadsIdentifiers r s)
    (prev : Option Char) :
    p.sighting? prev s =
      (g.sighting? g.anyIdentifier? s).filter fun t => g.Selects r t.identifier := by
  by_cases hhead : ∃ head ∈ g.heads, ∃ inner, s = head.2 ++ inner
  · obtain ⟨⟨startMark, head⟩, hmem, inner, rfl⟩ := hhead
    rw [h.sighting?_head_append prev hmem]
    cases hfound : (g.sighting? g.anyIdentifier? (head ++ inner)).filter
        fun t => g.Selects r t.identifier with
    | none =>
      -- what the pattern read there would be selected
      rw [List.findSome?_eq_none_iff]
      intro q hq
      rw [Option.eq_none_iff_forall_ne_some]
      intro t ht
      obtain ⟨hsighted, hselects⟩ := sighted_of_closed? hmem hread hq ht
      rw [hsighted] at hfound
      simp [hselects] at hfound
    | some t =>
      obtain ⟨hsighted, hselects⟩ := Option.filter_eq_some_iff.1 hfound
      have hselects : g.Selects r t.identifier := of_decide_eq_true hselects
      have hbind := hsighted
      rw [Grammar.sighting?_head_append hmem] at hbind
      obtain ⟨⟨identifier, outer⟩, hany, hclosed⟩ := Option.bind_eq_some_iff.1 hbind
      obtain rfl := eq_append_of_anyIdentifier? hany
      obtain ⟨rfl, tail, htail, v, houter, -⟩ := exists_of_closed? hclosed
      obtain ⟨k, hk⟩ := exists_cons_of_mem_tails htail
      have hw : r.Matches (some g.separator) t.identifier outer :=
        Regex.looksAtOne_matches r _ _ _ _ (by rw [houter, hk]; rfl) hselects
      -- one end of the expression is that of the identifier, and no other one leads to a
      -- different tag
      obtain ⟨q, hq, hrest⟩ := exists_mem_ends prev hmem hw
      obtain ⟨w, hinner, hoffset, -⟩ := exists_of_mem_ends hmem hq
      obtain rfl := List.append_cancel_right (hrest ▸ hinner)
      refine findSome?_eq_of_mem hq ?_ fun q' hq' => ?_
      · rw [hoffset, Nat.add_sub_cancel_left, List.take_left, hrest]
        exact hclosed
      · rw [or_iff_not_imp_left, ← ne_eq, Option.ne_none_iff_exists']
        rintro ⟨t', ht'⟩
        rw [ht', ← hsighted, (sighted_of_closed? hmem hread hq' ht').1]
  · rw [h.sighting?_of_no_head hhead, Grammar.sighting?_of_no_head hhead]
    rfl

end TagPattern

/-! ## Section 3: Cutting a line -/

namespace Piece

variable {find : List Char → Option Sighting} {sel : Sighting → Bool} {line : List Char}

/-- A piece, if only the tags that `sel` holds for count as tags. -/
def only (sel : Sighting → Bool) : Piece → List Piece
  | .plain c => [.plain c]
  | .tag t   => if sel t then [.tag t] else t.raw.map .plain

/-- If no tag that `sel` holds for begins inside of one of the cut that it does not hold for,
    then a cut at these tags only leaves the others in characters. -/
theorem cut_filter_of_inside (hfind : Finds find) (s : List Char)
    (hsel : ∀ ps t qs, cut find 0 s = ps ++ .tag t :: qs → sel t = false →
      ∀ y, y <:+ t.raw → y ≠ [] → (find (y ++ qs.flatMap raw)).filter sel = none) :
    cut (fun y => (find y).filter sel) 0 s = (cut find 0 s).flatMap (only sel) := by
  induction s using cut_induction hfind with
  | nil => simp [cut]
  | plain c s hc ih =>
    have hcut := cut_cons_of_none hc
    rw [cut_cons_of_none (by simp [hc]), hcut, List.flatMap_cons, ih]
    · rfl
    · exact fun ps t qs h => hsel (.plain c :: ps) t qs (by rw [hcut, h]; rfl)
  | tag t s ht hne ih =>
    have hcut := cut_append_of_some ht rfl hne
    have hrest := ih fun ps t' qs h => hsel (.tag t :: ps) t' qs (by rw [hcut, h]; rfl)
    rw [hcut, List.flatMap_cons]
    cases hst : sel t with
    | true =>
      rw [cut_append_of_some (by rw [ht]; simp [hst]) rfl hne, hrest]
      simp [only, hst]
    | false =>
      rw [cut_append_of_none, hrest]
      · simp [only, hst]
      · intro y hy hyne
        have hnone := hsel [] t _ hcut hst y hy hyne
        rwa [flatMap_raw_cut hfind] at hnone

/-- The tag `t`, which was found behind `u`, is a piece of the cut. -/
def IsCutAt (find : List Char → Option Sighting) (s u : List Char) (t : Sighting) : Prop :=
  ∃ ps qs, cut find 0 s = ps ++ .tag t :: qs ∧ ps.flatMap raw = u

/-- If every tag that `sel` holds for is a piece of the cut, then a cut at these tags only
    leaves the others in characters. -/
theorem cut_filter (hfind : Finds find) (s : List Char)
    (hsel : ∀ u y t, s = u ++ y → find y = some t → sel t = true → IsCutAt find s u t) :
    cut (fun y => (find y).filter sel) 0 s = (cut find 0 s).flatMap (only sel) := by
  refine cut_filter_of_inside hfind s fun ps t qs hcut hst y hy hne => ?_
  rw [Option.filter_eq_none_iff]
  intro t' ht' hst'
  obtain ⟨u, hu⟩ := hy
  have hs : s = (ps.flatMap raw ++ u) ++ (y ++ qs.flatMap raw) := by
    rw [← flatMap_raw_cut hfind s, hcut]
    simp [raw, ← hu]
  obtain ⟨ps', qs', hcut', hraw⟩ := hsel _ _ t' hs ht' hst'
  -- the piece `t'` would begin inside of the piece `t`
  have hulen := congrArg List.length hu
  have hypos := List.length_pos_iff.2 hne
  have hpos' := List.length_pos_iff.2 (hfind _ _ ht').1
  have hlen := congrArg List.length hraw
  rw [List.length_append] at hulen hlen
  rw [hcut] at hcut'
  rcases append_cons_eq_append_cons hcut' with ⟨-, htag, -⟩ | ⟨m, rfl, -⟩ | ⟨m, rfl, -⟩
  · obtain rfl := Piece.tag.inj htag
    exact absurd (hst.symm.trans hst') (by decide)
  · simp only [List.flatMap_append, List.flatMap_cons, List.length_append, raw] at hlen
    omega
  · simp only [List.flatMap_append, List.flatMap_cons, List.length_append, raw] at hlen
    omega

end Piece

namespace TagPattern

open Grammar

variable {g : Grammar} {p : TagPattern} {r : Regex} {last : Nat} {line : List Char}

/-- If what a pattern sights depends only on the text and is not empty, then it cuts as any
    other way to find tags does. -/
theorem cut_eq_cut {find : List Char → Option Sighting} (hfind : Piece.Finds find)
    (hsight : ∀ y, y <:+ line → ∀ prev, p.sighting? prev y = find y) (skip : Nat) (ended : Bool)
    (prev : Option Char) : p.cut skip ended prev line = Piece.cut find skip line := by
  induction line generalizing skip ended prev with
  | nil =>
    have hnil : find [] = none := by
      rw [Option.eq_none_iff_forall_ne_some]
      intro t ht
      obtain ⟨hne, hpre⟩ := hfind _ _ ht
      exact hne (List.prefix_nil.1 hpre)
    cases skip with
    | zero => simp [cut, Piece.cut, hsight [] List.suffix_rfl, hnil]
    | succ skip => simp [cut, Piece.cut]
  | cons c s ih =>
    have ih := ih fun y hy => hsight y (hy.trans (List.suffix_cons c s))
    cases skip with
    | succ skip => simp [cut, Piece.cut, ih]
    | zero =>
      simp only [cut, Piece.cut, hsight _ List.suffix_rfl, ih]
      cases hc : find (c :: s) with
      | none => rfl
      | some t => simp [(hfind _ _ hc).1]

/-- A pattern that reads identifiers only, and selects reported tags only, cuts a line at the
    reported tags that it selects. -/
theorem Spells.cut_eq (h : p.Spells g r last) (hread : g.ReadsIdentifiers r line)
    (hreport : g.ReportsSelected r line) :
    p.cut 0 false none line =
      (g.pieces line).flatMap (Piece.only fun t => g.Selects r t.identifier) := by
  have hfilter : Piece.Finds fun y =>
      (g.sighting? g.anyIdentifier? y).filter fun t => g.Selects r t.identifier :=
    fun s t ht => g.finds_sighting? s t (Option.filter_eq_some_iff.1 ht).1
  rw [cut_eq_cut hfilter (fun y hy prev => h.sighting?_eq_filter ?_ prev)]
  · refine Piece.cut_filter g.finds_sighting? line fun u y t hline ht hst => ?_
    exact hreport u y t hline ht (of_decide_eq_true hst)
  · -- what holds for a line holds for its ends
    obtain ⟨x, rfl⟩ := hy
    intro head hhead tail htail u w v hs
    exact hread head hhead tail htail (x ++ u) w v (by rw [hs, List.append_assoc])

end TagPattern

/-! ## Section 4: Removing from documents -/

/-- What stays of a piece when the tags that `sel` selects are deleted. -/
def Piece.kept (sel : List Char → Bool) : Piece → List Char
  | .plain c => [c]
  | .tag t   => if sel t.identifier then [] else t.raw

/-- A line without the reported tags that `sel` selects. It goes if one of these asked for
    that and nothing else can be seen on it. -/
def Line.without (g : Grammar) (sel : List Char → Bool) (l : Line) : Option Line :=
  let tags := (g.sightings l.text).filter fun t => sel t.identifier
  let text := (g.pieces l.text).flatMap (Piece.kept sel)
  if tags.any Sighting.cleanup && allBlank text then none else some { l with text }

namespace Piece

theorem sightings_flatMap_only (sel : Sighting → Bool) (ps : List Piece) :
    sightings (ps.flatMap (only sel)) = (sightings ps).filter sel := by
  induction ps with
  | nil => rfl
  | cons p ps ih =>
    rw [List.flatMap_cons, sightings_append, ih]
    cases p with
    | plain c => rfl
    | tag t =>
      cases hst : sel t <;> simp [only, hst]
      rfl

theorem untagged_flatMap_only (sel : List Char → Bool) (ps : List Piece) :
    untagged (ps.flatMap (only fun t => sel t.identifier)) = ps.flatMap (kept sel) := by
  induction ps with
  | nil => rfl
  | cons p ps ih =>
    rw [List.flatMap_cons, untagged_append, ih, List.flatMap_cons]
    cases p with
    | plain c => rfl
    | tag t =>
      cases hst : sel t.identifier <;> simp [only, kept, hst]
      rfl

end Piece

namespace Line

variable {g : Grammar} {sel : List Char → Bool} {l : Line}

/-- A line from which no tag goes stays as it is. -/
theorem without_of_none (h : (g.sightings l.text).filter (fun t => sel t.identifier) = []) :
    l.without g sel = some l := by
  have hkept : ∀ p ∈ g.pieces l.text, Piece.kept sel p = p.raw := by
    intro p hp
    cases p with
    | plain c => rfl
    | tag t =>
      have hmem : t ∈ g.sightings l.text := List.mem_filterMap.2 ⟨.tag t, hp, rfl⟩
      have hsel := List.filter_eq_nil_iff.1 h t hmem
      simp [Piece.kept, Piece.raw, hsel]
  have htext : (g.pieces l.text).flatMap (Piece.kept sel) = l.text :=
    (List.flatMap_congr hkept).trans (g.flatMap_raw_pieces l.text)
  simp [without, h, htext]

theorem strip_eq {s : Selector} {tags : List Sighting} {text : List Char}
    (htags : Piece.sightings (s.pieces g l.text) = tags)
    (htext : Piece.untagged (s.pieces g l.text) = text) :
    l.strip g s =
      if tags.isEmpty then (some l, 0)
      else if tags.any Sighting.cleanup && allBlank text then (none, tags.length)
      else (some { l with text }, tags.length) := by
  subst htags htext
  rfl

/-- Stripping a line of the reported tags that `sel` selects. -/
theorem strip_eq_without (sel : List Char → Bool) {s : Selector} (hcut : s.pieces g l.text =
      (g.pieces l.text).flatMap (Piece.only fun t => sel t.identifier)) :
    l.strip g s =
      (l.without g sel, (g.sightings l.text).countP fun t => sel t.identifier) := by
  -- the count is the same whether the line goes or not
  have hpair : ∀ (gone : Bool) (a b : Option Line) (n : Nat),
      (if gone then (a, n) else (b, n)) = (if gone then a else b, n) := by
    intro gone
    cases gone <;> simp
  have htags : Piece.sightings (s.pieces g l.text) =
      (g.sightings l.text).filter fun t => sel t.identifier := by
    rw [hcut]
    exact Piece.sightings_flatMap_only _ _
  have htext : Piece.untagged (s.pieces g l.text) = (g.pieces l.text).flatMap (Piece.kept sel) := by
    rw [hcut]
    exact Piece.untagged_flatMap_only _ _
  rw [strip_eq htags htext, List.countP_eq_length_filter]
  by_cases hnone : (g.sightings l.text).filter (fun t => sel t.identifier) = []
  · rw [without_of_none hnone, hnone]
    rfl
  · rw [if_neg (fun h => hnone (List.isEmpty_iff.1 h))]
    exact hpair _ _ _ _

end Line

namespace Document

variable {g : Grammar} {d : Document}

theorem countP_flatMap_zipIdx (g : Grammar) (sel : Tag → Bool) (ls : List Line) (n : Nat) :
    (((ls.map Line.text).zipIdx n).flatMap fun r =>
      (g.sightings r.1).map fun s => (⟨s.tag, r.2⟩ : Occurrence)).countP (fun o => sel o.tag) =
      total (ls.map fun l => (g.sightings l.text).countP fun t => sel t.tag) := by
  induction ls generalizing n with
  | nil => rfl
  | cons l ls ih =>
    simp only [List.map_cons, List.zipIdx_cons, List.flatMap_cons, List.countP_append,
      ih (n + 1), total_cons, List.countP_map]
    rfl

/-- A count over the tags of a document, line by line. -/
theorem countP_occurrences (g : Grammar) (d : Document) (sel : Tag → Bool) :
    (d.occurrences g).countP (fun o => sel o.tag) =
      total (d.lines.map fun l => (g.sightings l.text).countP fun t => sel t.tag) :=
  countP_flatMap_zipIdx g sel d.lines 1

/-- Removing at the reported tags that `sel` selects, and nowhere else. -/
theorem remove_eq_without {s : Selector} (sel : List Char → Bool)
    (hcut : ∀ l ∈ d.lines, s.pieces g l.text =
      (g.pieces l.text).flatMap (Piece.only fun t => sel t.identifier)) :
    d.remove g s =
      ({ d with lines := d.lines.filterMap (Line.without g sel) },
        { tagsRemoved  := (d.occurrences g).countP fun o => sel o.tag.identifier
          linesRemoved := d.lines.length - (d.lines.filterMap (Line.without g sel)).length }) := by
  have hstrip : d.lines.map (Line.strip g s) = d.lines.map fun l =>
      (l.without g sel, (g.sightings l.text).countP fun t => sel t.identifier) :=
    List.map_congr_left fun l hl => Line.strip_eq_without sel (hcut l hl)
  have hcount := countP_occurrences g d fun t => sel t.identifier
  simp only [remove, hstrip, List.map_map, List.filterMap_map, hcount]
  rfl

/-- Removing by a pattern that reads identifiers only, and selects reported tags only,
    deletes exactly the reported tags whose whole identifier it matches. -/
theorem remove_pattern_eq {p : TagPattern} {r : Regex} {last : Nat} (h : p.Spells g r last)
    (hread : ∀ l ∈ d.lines, g.ReadsIdentifiers r l.text)
    (hreport : ∀ l ∈ d.lines, g.ReportsSelected r l.text) :
    d.remove g (.pattern p) =
      ({ d with lines := d.lines.filterMap (Line.without g (g.Selects r ·)) },
        { tagsRemoved  := (d.occurrences g).countP fun o => g.Selects r o.tag.identifier
          linesRemoved :=
            d.lines.length - (d.lines.filterMap (Line.without g (g.Selects r ·))).length }) :=
  remove_eq_without (g.Selects r ·) fun l hl => h.cut_eq (hread l hl) (hreport l hl)

end Document

/-! ## Section 5: Removing by a written pattern -/

namespace Regex

/-- All characters that the expression can take are `ok`. -/
def TakesOnly (ok : Char → Bool) : Regex → Prop
  | .empty       => True
  | .set s       => ∀ c, s c = true → ok c = true
  | .look _      => True
  | .group _ r   => r.TakesOnly ok
  | .seq r s     => r.TakesOnly ok ∧ s.TakesOnly ok
  | .alt r s     => r.TakesOnly ok ∧ s.TakesOnly ok
  | .rep _ _ _ r => r.TakesOnly ok

variable {r : Regex} {prev : Option Char} {w rest : List Char}

theorem forall_mem_of_matches {ok : Char → Bool} (h : r.TakesOnly ok)
    (hw : r.Matches prev w rest) : ∀ c ∈ w, ok c = true := by
  induction r generalizing prev w rest with
  | empty =>
    obtain rfl : w = [] := hw
    simp
  | set s =>
    obtain ⟨c, rfl, hc⟩ := hw
    simpa using h c hc
  | look l =>
    obtain ⟨rfl, -⟩ := hw
    simp
  | group i r ih => exact ih h hw
  | seq r s ihr ihs =>
    obtain ⟨u, v, rfl, hu, hv⟩ := hw
    intro c hc
    rcases List.mem_append.1 hc with hc | hc
    · exact ihr h.1 hu c hc
    · exact ihs h.2 hv c hc
  | alt r s ihr ihs =>
    rcases hw with hw | hw
    · exact ihr h.1 hw
    · exact ihs h.2 hw
  | rep greedy n m r ih =>
    obtain ⟨k, -, hw⟩ := hw
    induction k generalizing prev w rest with
    | zero =>
      obtain rfl : w = [] := hw
      simp
    | succ k ihk =>
      obtain ⟨u, v, rfl, hu, hv⟩ := hw
      intro c hc
      rcases List.mem_append.1 hc with hc | hc
      · exact ih h hu c hc
      · exact ihk hv c hc

theorem ne_nil_of_matches (h : r.isNullable = false) (hw : r.Matches prev w rest) : w ≠ [] := by
  induction r generalizing prev w rest with
  | empty => cases h
  | set s =>
    obtain ⟨c, rfl, -⟩ := hw
    simp
  | look l => cases h
  | group i r ih => exact ih h hw
  | seq r s ihr ihs =>
    obtain ⟨u, v, rfl, hu, hv⟩ := hw
    rw [isNullable, Bool.and_eq_false_iff] at h
    rcases h with h | h
    · simp [ihr h hu]
    · simp [ihs h hv]
  | alt r s ihr ihs =>
    rw [isNullable, Bool.or_eq_false_iff] at h
    rcases hw with hw | hw
    · exact ihr h.1 hw
    · exact ihs h.2 hw
  | rep greedy n m r ih =>
    rw [isNullable, Bool.or_eq_false_iff, beq_eq_false_iff_ne] at h
    obtain ⟨k, ⟨hn, -⟩, hw⟩ := hw
    cases k with
    | zero => omega
    | succ k =>
      obtain ⟨u, v, rfl, hu, -⟩ := hw
      simp [ih h.2 hu]

end Regex

namespace Grammar

variable {g : Grammar} {r : Regex} {k : Nat}

/-- An expression that takes neither the separator nor a line break reads nothing but
    identifiers, if it always takes something. -/
theorem readsIdentifiers_of_takesOnly (h : r.TakesOnly g.isIdentifierChar)
    (hne : r.isNullable = false) (line : List Char) : g.ReadsIdentifiers r line :=
  fun _ _ _ _ _ _ _ _ hw => ⟨Regex.ne_nil_of_matches hne hw, Regex.forall_mem_of_matches h hw⟩

theorem selects_shift (identifier : List Char) :
    g.Selects (r.shift k) identifier ↔ g.Selects r identifier := by
  rw [Selects, Regex.matches_shift, Selects]

theorem readsIdentifiers_shift {line : List Char} :
    g.ReadsIdentifiers (r.shift k) line ↔ g.ReadsIdentifiers r line := by
  rw [ReadsIdentifiers, Regex.matches_shift, ReadsIdentifiers]

theorem reportsSelected_shift {line : List Char} :
    g.ReportsSelected (r.shift k) line ↔ g.ReportsSelected r line := by
  simp only [ReportsSelected, selects_shift]

end Grammar

namespace Document

open Regex

variable {g : Grammar} {d : Document} {pattern : List Char} {r : Regex}
  {names : List (List Char × Nat)}

/-- Removing by a pattern that is a pattern by itself, reads nothing but identifiers and
    selects reported tags only, deletes exactly the reported tags whose whole identifier it
    matches. -/
theorem removeMatching?_eq (hpattern : Regex.read? pattern = some (r, names))
    (hcompile : (TagPattern.compile? g pattern).isSome)
    (hread : ∀ l ∈ d.lines, g.ReadsIdentifiers r l.text)
    (hreport : ∀ l ∈ d.lines, g.ReportsSelected r l.text) :
    d.removeMatching? g pattern = some
      ({ d with lines := d.lines.filterMap (Line.without g (g.Selects r ·)) },
        { tagsRemoved  := (d.occurrences g).countP fun o => g.Selects r o.tag.identifier
          linesRemoved :=
            d.lines.length - (d.lines.filterMap (Line.without g (g.Selects r ·))).length }) := by
  obtain ⟨p, hp⟩ := Option.isSome_iff_exists.1 hcompile
  obtain ⟨last, hspells⟩ := TagPattern.spells_of_read? hpattern hp
  have hremove := remove_pattern_eq hspells
    (fun l hl => Grammar.readsIdentifiers_shift.2 (hread l hl))
    (fun l hl => Grammar.reportsSelected_shift.2 (hreport l hl))
  simp only [removeMatching?, hp, Option.map_some, hremove, Grammar.selects_shift]

/-- The code between two tags of a line stays, and so does the tag that is not selected. -/
theorem removeMatching?_between_tags :
    (parse "f();/*|a|*/g();/*|b|*/\n".toList).removeMatching? .standard ['a'] =
      some (parse "f();g();/*|b|*/\n".toList, ⟨1, 0⟩) := by
  have hlines : (parse "f();/*|a|*/g();/*|b|*/\n".toList).lines =
      [⟨"f();/*|a|*/g();/*|b|*/".toList, .lf⟩] := by decide
  have hpattern : Regex.read? ['a'] = some (.set (CharSet.single 'a'), []) := rfl
  have hread : ∀ l ∈ (parse "f();/*|a|*/g();/*|b|*/\n".toList).lines,
      Grammar.standard.ReadsIdentifiers (.set (CharSet.single 'a')) l.text := by
    have htakes : (Regex.set (CharSet.single 'a')).TakesOnly
        Grammar.standard.isIdentifierChar := by
      intro c hc
      obtain rfl : c = 'a' := by simpa [CharSet.single] using hc
      decide
    exact fun l _ => Grammar.readsIdentifiers_of_takesOnly htakes rfl l.text
  have hreport : ∀ l ∈ (parse "f();/*|a|*/g();/*|b|*/\n".toList).lines,
      Grammar.standard.ReportsSelected (.set (CharSet.single 'a')) l.text := by
    rw [hlines]
    intro l hl u s t hline hs hselects
    obtain rfl := List.mem_singleton.1 hl
    -- of the two tags in the line, the first is selected
    have hfirst : ∀ s ∈ "f();/*|a|*/g();/*|b|*/".toList.tails,
        ∀ t ∈ Grammar.standard.sighting? Grammar.standard.anyIdentifier? s,
          Grammar.standard.Selects (.set (CharSet.single 'a')) t.identifier →
            s = "/*|a|*/g();/*|b|*/".toList ∧
              t = ⟨['a'], false, false, false, "/*|a|*/".toList⟩ := by decide
    obtain ⟨rfl, rfl⟩ := hfirst s ((List.mem_tails _ _).2 ⟨u, hline.symm⟩) t hs hselects
    obtain rfl : "f();".toList = u := List.append_cancel_right hline
    exact ⟨"f();".toList.map .plain, "g();".toList.map .plain ++
      [.tag ⟨['b'], false, false, false, "/*|b|*/".toList⟩], by decide, by decide⟩
  rw [removeMatching?_eq hpattern TagPattern.isSome_compile?_letter hread hreport]
  decide

end Document

end Marginalia
