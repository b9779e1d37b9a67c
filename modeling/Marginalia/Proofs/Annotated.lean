import Mathlib.Data.Set.List
import Marginalia.Listing
import Marginalia.Proofs.Decoding
import Marginalia.Region
import Marginalia.Removal

/-! # Annotated lines

    What the operations on documents do is said about lines in the form in which they
    are made: a text without anything like a tag, and the tags written behind it.

    * **`Annotated`**: such a line. Its proofs say that it is read back as it is made.
    * **`Document.Shows`**: a document whose lines are made like that.
    * **`Annotated.strip?`, `Selector.Selects`**: what removing does to an annotated
      line if the tags that are meant can be told by a predicate.
    * **`Shed`**: what removing does in any case, also with an identifier that no tag
      can have. -/

namespace Marginalia

open Text

/-! ## Section 1: Lines and documents -/

/-- A line as it is made. -/
@[ext]
structure Annotated (g : Grammar) where
  /-- The text of the line without its tags. -/
  own      : List Char
  tags     : List Tag
  ending   : LineEnding
  headless : g.hasHead own = false
  named    : ∀ t ∈ tags, g.identifierFault? t.identifier = none

namespace Annotated

variable {g : Grammar}

/-- The text of the line with its tags. -/
def text (n : Annotated g) : List Char :=
  n.own ++ Tag.renderAll g n.tags

/-- The line as it stands in a document. -/
def line (n : Annotated g) : Line :=
  ⟨n.text, n.ending⟩

@[simp] theorem line_text (n : Annotated g) : n.line.text = n.text := rfl

theorem names (n : Annotated g) : ∀ t ∈ n.tags, g.Names t.identifier :=
  fun t ht => Grammar.names_of_identifierFault?_eq_none (n.named t ht)

/-- An empty line. -/
def blank (g : Grammar) (ending : LineEnding) : Annotated g where
  own      := []
  tags     := []
  ending   := ending
  headless := g.hasHead_nil
  named    := by simp

/-- The line with one more tag. -/
def annotate (n : Annotated g) (t : Tag) (ht : g.identifierFault? t.identifier = none) :
    Annotated g where
  own      := n.own
  tags     := n.tags ++ [t]
  ending   := n.ending
  headless := n.headless
  named    := by
    intro u hu
    rcases List.mem_append.1 hu with hu | hu
    · exact n.named u hu
    · rw [List.mem_singleton.1 hu]
      exact ht

@[simp] theorem own_blank (e : LineEnding) : (blank g e).own = [] := rfl

@[simp] theorem tags_blank (e : LineEnding) : (blank g e).tags = [] := rfl

section annotate
variable (n : Annotated g) {t : Tag} (ht : g.identifierFault? t.identifier = none)

@[simp] theorem own_annotate : (n.annotate t ht).own = n.own := rfl

@[simp] theorem tags_annotate : (n.annotate t ht).tags = n.tags ++ [t] := rfl

@[simp] theorem ending_annotate : (n.annotate t ht).ending = n.ending := rfl

theorem line_annotate :
    (n.annotate t ht).line = { n.line with text := n.line.text ++ t.render g } := by
  simp [line, text]

end annotate

/-- Reading the line with any identifier gives back what it was made of. -/
theorem pieces_text (hg : g.Unmarked) (n : Annotated g) :
    g.pieces n.text = n.own.map .plain ++ n.tags.map fun t => .tag (.ofTag g t) :=
  Grammar.pieces_append_renderAll hg n.headless n.names

theorem sightings_map_tag (ts : List Tag) :
    Piece.sightings (ts.map fun t => .tag (.ofTag g t)) = ts.map (.ofTag g) := by
  induction ts with
  | nil => rfl
  | cons t ts ih => simp [ih]

theorem untagged_map_tag (ts : List Tag) :
    Piece.untagged (ts.map fun t => .tag (.ofTag g t)) = [] := by
  induction ts with
  | nil => rfl
  | cons t ts ih => simp [ih]

theorem sightings_text (hg : g.Unmarked) (n : Annotated g) :
    g.sightings n.text = n.tags.map (.ofTag g) := by
  unfold Grammar.sightings
  rw [pieces_text hg, Piece.sightings_append, Piece.sightings_map_plain, sightings_map_tag]
  rfl

theorem untagged_text (hg : g.Unmarked) (n : Annotated g) : g.untagged n.text = n.own := by
  unfold Grammar.untagged
  rw [pieces_text hg, Piece.untagged_append, Piece.untagged_map_plain, untagged_map_tag]
  simp

end Annotated

/-- The line is a text of its own with tags behind it. -/
def Line.IsAnnotated (g : Grammar) (l : Line) : Prop :=
  ∃ own tags, g.hasHead own = false ∧
    (∀ t ∈ tags, g.identifierFault? t.identifier = none) ∧ l.text = own ++ Tag.renderAll g tags

/-- These are the lines that can be made. -/
theorem Line.isAnnotated_iff {g : Grammar} {l : Line} :
    l.IsAnnotated g ↔ ∃ n : Annotated g, n.line = l := by
  constructor
  · intro h
    obtain ⟨own, tags, hown, htags, htext⟩ := h
    refine ⟨⟨own, tags, l.ending, hown, htags⟩, ?_⟩
    simp [Annotated.line, Annotated.text, ← htext]
  · intro h
    obtain ⟨n, rfl⟩ := h
    exact ⟨n.own, n.tags, n.headless, n.named, rfl⟩

namespace Document

variable {g : Grammar} {d : Document} {ns : List (Annotated g)}

/-- The lines of the document are made like the annotated lines. -/
def Shows (d : Document) (ns : List (Annotated g)) : Prop :=
  d.lines = ns.map Annotated.line

/-- The document with other lines. -/
def withLines (d : Document) (ns : List (Annotated g)) : Document :=
  { d with lines := ns.map Annotated.line }

theorem shows_withLines (d : Document) (ns : List (Annotated g)) : (d.withLines ns).Shows ns :=
  rfl

theorem Shows.withLines_eq (h : d.Shows ns) : d.withLines ns = d := by
  unfold withLines
  rw [← h]

theorem Shows.isAnnotated (h : d.Shows ns) : ∀ l ∈ d.lines, l.IsAnnotated g := by
  intro l hl
  rw [h] at hl
  obtain ⟨n, -, rfl⟩ := List.mem_map.1 hl
  exact Line.isAnnotated_iff.2 ⟨n, rfl⟩

theorem Shows.length (h : d.Shows ns) : d.length = ns.length := by
  unfold Shows at h
  simp [Document.length, h]

theorem Shows.untagged (hg : g.Unmarked) (h : d.Shows ns) :
    d.untagged g = ns.map Annotated.own := by
  unfold Document.untagged Document.texts
  rw [h, List.map_map, List.map_map]
  apply List.map_congr_left
  intro n _
  exact n.untagged_text hg

/-- The tags that are listed are those of the lines. -/
theorem Shows.occurrences (hg : g.Unmarked) (h : d.Shows ns) :
    d.occurrences g =
      (ns.zipIdx 1).flatMap fun (n, line) => n.tags.map fun t => ⟨t, line⟩ := by
  unfold Document.occurrences Document.texts
  rw [h, List.map_map, List.zipIdx_map, List.flatMap_map]
  apply List.flatMap_congr
  rintro ⟨n, line⟩ -
  simp only [Prod.map_fst, Prod.map_snd, Function.comp_apply, id_eq, Annotated.line_text]
  rw [n.sightings_text hg, List.map_map]
  apply List.map_congr_left
  intro t _
  simp only [Function.comp_apply, Sighting.tag_ofTag]

theorem Shows.map_tag_occurrences (hg : g.Unmarked) (h : d.Shows ns) :
    (d.occurrences g).map Occurrence.tag = ns.flatMap Annotated.tags := by
  have hzip : ∀ (n : Nat) (ns : List (Annotated g)),
      (ns.zipIdx n).flatMap (fun p => p.1.tags) = ns.flatMap Annotated.tags := by
    intro n ns
    rw [← List.flatMap_map Prod.fst Annotated.tags, List.zipIdx_map_fst]
  rw [h.occurrences hg, List.map_flatMap, ← hzip 1]
  apply List.flatMap_congr
  rintro ⟨n, line⟩ -
  rw [List.map_map]
  exact List.map_id n.tags

theorem Shows.countP_occurrences (hg : g.Unmarked) (h : d.Shows ns) (p : Tag → Bool) :
    (d.occurrences g).countP (fun o => p o.tag) = (ns.flatMap Annotated.tags).countP p := by
  rw [← h.map_tag_occurrences hg, List.countP_map]
  rfl

theorem Shows.mem_occurrences (hg : g.Unmarked) (h : d.Shows ns) {o : Occurrence}
    (ho : o ∈ d.occurrences g) :
    ∃ i n, o.line = i + 1 ∧ ns[i]? = some n ∧ o.tag ∈ n.tags := by
  rw [h.occurrences hg] at ho
  obtain ⟨⟨n, line⟩, hn, ho⟩ := List.mem_flatMap.1 ho
  obtain ⟨t, ht, rfl⟩ := List.mem_map.1 ho
  obtain ⟨hline, hn⟩ := List.mk_mem_zipIdx_iff_le_and_getElem?_sub.1 hn
  refine ⟨line - 1, n, ?_, hn, ht⟩
  show line = line - 1 + 1
  omega

/-- A document is shown by annotated lines if each of its lines can be made. -/
theorem exists_shows (h : ∀ l ∈ d.lines, l.IsAnnotated g) :
    ∃ ns : List (Annotated g), d.Shows ns := by
  have hr : d.lines ∈ Set.range (List.map (Annotated.line (g := g))) := by
    -- it is enough to make each line for itself
    rw [Set.range_list_map]
    exact fun l hl => Line.isAnnotated_iff.1 (h l hl)
  obtain ⟨ns, hns⟩ := hr
  exact ⟨ns, hns.symm⟩

end Document

/-! ## Section 2: Removing the tags of a predicate -/

namespace Annotated

variable {g : Grammar}

/-- The line without the tags that satisfy `p`. -/
def without (p : Tag → Bool) (n : Annotated g) : Annotated g where
  own      := n.own
  tags     := n.tags.filter fun t => !p t
  ending   := n.ending
  headless := n.headless
  named    := fun t ht => n.named t (List.mem_of_mem_filter ht)

/-- What is left of the line when the tags that satisfy `p` are removed: nothing, if one
    of them asks for that and nothing else can be seen. -/
def strip? (p : Tag → Bool) (n : Annotated g) : Option (Annotated g) :=
  if n.tags.any (fun t => p t && t.cleanup) && allBlank (n.without p).text then none
  else some (n.without p)

/-- A line none of whose tags is meant is left as it is. -/
theorem strip?_eq_self {p : Tag → Bool} {n : Annotated g} (h : ∀ t ∈ n.tags, p t = false) :
    n.strip? p = some n := by
  have hany : (n.tags.any fun t => p t && t.cleanup) = false := by
    rw [List.any_eq_false]
    intro t ht
    simp [h t ht]
  have hwithout : n.without p = n := by
    apply Annotated.ext
    · rfl
    · apply List.filter_eq_self.2
      intro t ht
      simp [h t ht]
    · rfl
  rw [strip?, hany, hwithout]
  simp

/-- Lines none of whose tags is meant are left as they are. -/
theorem filterMap_strip?_eq_self {p : Tag → Bool} {ns : List (Annotated g)}
    (h : ∀ t ∈ ns.flatMap tags, p t = false) : ns.filterMap (strip? p) = ns := by
  have hself : ∀ n ∈ ns, n.strip? p = some n := by
    intro n hn
    apply strip?_eq_self
    intro t ht
    exact h t (List.mem_flatMap.2 ⟨n, hn, ht⟩)
  rw [List.filterMap_congr hself, List.filterMap_some]

/-- One more tag that is meant, but asks for nothing, makes no difference. -/
theorem strip?_annotate {p : Tag → Bool} {n : Annotated g} {t : Tag}
    (ht : g.identifierFault? t.identifier = none) (hp : p t = true) (hc : t.cleanup = false) :
    (n.annotate t ht).strip? p = n.strip? p := by
  have hwithout : (n.annotate t ht).without p = n.without p := by
    apply Annotated.ext
    · rfl
    · simp [without, hp]
    · rfl
  have hany : ((n.annotate t ht).tags.any fun t => p t && t.cleanup) =
      n.tags.any fun t => p t && t.cleanup := by
    simp [hc]
  rw [strip?, strip?, hwithout, hany]

/-- An empty line goes with a tag that asks for it. -/
theorem strip?_annotate_blank {p : Tag → Bool} {e : LineEnding} {t : Tag}
    (ht : g.identifierFault? t.identifier = none) (hp : p t = true) (hc : t.cleanup = true) :
    ((blank g e).annotate t ht).strip? p = none := by
  have hany : (((blank g e).annotate t ht).tags.any fun t => p t && t.cleanup) = true := by
    simp [hp, hc]
  have hblank : allBlank (((blank g e).annotate t ht).without p).text = true := by
    simp [without, text, hp]
  rw [strip?, hany, hblank]
  simp

end Annotated

/-- The selector means the tags that satisfy `p`, on any annotated line. -/
def Selector.Selects (g : Grammar) (sel : Selector) (p : Tag → Bool) : Prop :=
  ∀ n : Annotated g,
    Piece.sightings (sel.pieces g n.text) = (n.tags.filter p).map (.ofTag g) ∧
    Piece.untagged (sel.pieces g n.text) = (n.without p).text

namespace Selector

variable {g : Grammar}

theorem selects_any (hg : g.Unmarked) : Selector.any.Selects g fun _ => true := by
  intro n
  constructor
  · have h := n.sightings_text hg
    rw [List.filter_true]
    exact h
  · have h := n.untagged_text hg
    have hwithout : (n.without fun _ => true).text = n.own := by
      simp [Annotated.without, Annotated.text]
    rw [hwithout]
    exact h

/-- An identifier without separators means the tags that have it. -/
theorem selects_exactly (hg : g.Unmarked) {identifier : List Char}
    (hsep : g.separator ∉ identifier) :
    (Selector.exactly identifier).Selects g fun t => decide (t.identifier = identifier) := by
  intro n
  have hpieces : (Selector.exactly identifier).pieces g n.text =
      n.own.map .plain ++
        Piece.cut (g.sighting? (Grammar.exactIdentifier? identifier)) 0 (Tag.renderAll g n.tags) :=
    Grammar.cut_append_renderAll hg _ n.headless n.tags
  have hnames := n.names
  rw [hpieces]
  simp only [Piece.sightings_append, Piece.sightings_map_plain, Piece.untagged_append,
    Piece.untagged_map_plain, List.nil_append, Annotated.text, Annotated.without,
    List.append_cancel_left_eq]
  -- what is left to show is about the tags alone
  generalize n.tags = ts at hnames ⊢
  induction ts with
  | nil => exact ⟨rfl, rfl⟩
  | cons t ts ih =>
    have hts := ih (fun u hu => hnames u (List.mem_cons_of_mem _ hu))
    rcases Grammar.cut_exactly_cons hg hnames identifier with
      ⟨ts₁, ts₂, s, rfl, hcut, -, hwhole⟩ | ⟨hne, hcut⟩
    · -- without separators, no more than one tag is taken
      obtain ⟨rfl, hidentifier, rfl⟩ := hwhole hsep
      rw [List.nil_append] at hts hcut ⊢
      rw [hcut]
      simp [hidentifier, hts.1, hts.2]
    · rw [hcut]
      simp [hne, hts.1, hts.2]

end Selector

/-- Stripping an annotated line. -/
theorem Line.strip_line {g : Grammar} {sel : Selector} {p : Tag → Bool} (h : sel.Selects g p)
    (n : Annotated g) :
    n.line.strip g sel = ((n.strip? p).map Annotated.line, n.tags.countP p) := by
  obtain ⟨hsight, huntagged⟩ := h n
  unfold Line.strip
  simp only [Annotated.line_text, hsight, huntagged, List.isEmpty_map, List.length_map,
    List.countP_eq_length_filter]
  by_cases hnone : n.tags.filter p = []
  · -- nothing is meant, and the line stays as it is
    have hself : n.strip? p = some n := by
      apply Annotated.strip?_eq_self
      intro t ht
      have := List.filter_eq_nil_iff.1 hnone t ht
      simpa using this
    simp [hnone, hself]
  · -- both sides ask for a cleanup among the tags that are meant
    have hempty : (n.tags.filter p).isEmpty = false := by
      simpa using hnone
    have hany : ((n.tags.filter p).map (Sighting.ofTag g)).any Sighting.cleanup =
        n.tags.any fun t => p t && t.cleanup := by
      rw [List.any_map, List.any_filter]
      rfl
    simp only [hempty, hany, Bool.false_eq_true, if_false]
    unfold Annotated.strip?
    split
    · rfl
    · rfl

/-- Removing the tags of a predicate from a document of annotated lines. -/
theorem Document.remove_of_shows {g : Grammar} {sel : Selector} {p : Tag → Bool}
    (h : sel.Selects g p) {d : Document} {ns : List (Annotated g)} (hd : d.Shows ns) :
    d.remove g sel =
      (d.withLines (ns.filterMap (Annotated.strip? p)),
        { tagsRemoved  := total (ns.map fun n => n.tags.countP p)
          linesRemoved := ns.length - (ns.filterMap (Annotated.strip? p)).length }) := by
  have hresults : d.lines.map (Line.strip g sel) =
      ns.map fun n => ((n.strip? p).map Annotated.line, n.tags.countP p) := by
    rw [hd, List.map_map]
    apply List.map_congr_left
    intro n _
    exact Line.strip_line h n
  have hlines : (d.lines.map (Line.strip g sel)).filterMap Prod.fst =
      (ns.filterMap (Annotated.strip? p)).map Annotated.line := by
    rw [hresults, List.filterMap_map, List.map_filterMap]
    rfl
  have hcounts : (d.lines.map (Line.strip g sel)).map Prod.snd =
      ns.map fun n => n.tags.countP p := by
    rw [hresults, List.map_map]
    rfl
  unfold Document.remove Document.withLines
  simp only [hlines, hcounts, List.length_map]
  rw [hd, List.length_map]

/-! ## Section 3: Removing in general -/

/-- What removing does to annotated lines: each loses some of its tags, or goes if it
    is blank and one of its tags asks for that. -/
inductive Shed {g : Grammar} : List (Annotated g) → List (Annotated g) → Prop where
  | nil : Shed [] []
  | kept {n m : Annotated g} {ns ms : List (Annotated g)} (own : m.own = n.own)
      (ending : m.ending = n.ending) (tags : m.tags.Sublist n.tags) (rest : Shed ns ms) :
      Shed (n :: ns) (m :: ms)
  | dropped {n : Annotated g} {ns ms : List (Annotated g)} (blank : allBlank n.own = true)
      (cleanup : ∃ t ∈ n.tags, t.cleanup = true) (rest : Shed ns ms) : Shed (n :: ns) ms

/-- The selector takes whole tags of annotated lines and leaves the others whole. -/
def Selector.TakesWhole (g : Grammar) (sel : Selector) : Prop :=
  ∀ n : Annotated g, ∃ kept, kept.Sublist n.tags ∧
    Piece.untagged (sel.pieces g n.text) = n.own ++ Tag.renderAll g kept ∧
    ∀ s ∈ Piece.sightings (sel.pieces g n.text), ∃ t ∈ n.tags, t.cleanup = s.cleanup

namespace Selector

variable {g : Grammar}

theorem takesWhole_any (hg : g.Unmarked) : Selector.any.TakesWhole g := by
  intro n
  obtain ⟨hsight, huntagged⟩ := selects_any hg n
  refine ⟨_, List.filter_sublist, huntagged, ?_⟩
  intro s hs
  rw [hsight, List.filter_true] at hs
  obtain ⟨t, ht, rfl⟩ := List.mem_map.1 hs
  exact ⟨t, ht, rfl⟩

theorem cut_exactly_takes_whole (hg : g.Unmarked) (identifier : List Char) (ts : List Tag)
    (ht : ∀ t ∈ ts, g.Names t.identifier) :
    ∃ kept, kept.Sublist ts ∧
      Piece.untagged (Piece.cut (g.sighting? (Grammar.exactIdentifier? identifier)) 0
        (Tag.renderAll g ts)) = Tag.renderAll g kept ∧
      ∀ s ∈ Piece.sightings (Piece.cut (g.sighting? (Grammar.exactIdentifier? identifier)) 0
        (Tag.renderAll g ts)), ∃ t ∈ ts, t.cleanup = s.cleanup := by
  -- one match may take several tags, so the induction is on their number
  induction hlen : ts.length using Nat.strongRecOn generalizing ts with
  | _ len ih =>
    subst hlen
    cases ts with
    | nil => exact ⟨[], List.nil_sublist _, rfl, by simp [Piece.cut, Piece.sightings]⟩
    | cons t ts =>
      rcases Grammar.cut_exactly_cons hg ht identifier with
        ⟨ts₁, ts₂, s, rfl, hcut, ⟨u, hu, hc⟩, -⟩ | ⟨-, hcut⟩
      · have hnames : ∀ v ∈ ts₂, g.Names v.identifier :=
          fun v hv => ht v (List.mem_cons_of_mem _ (List.mem_append_right _ hv))
        have hlt : ts₂.length < (t :: (ts₁ ++ ts₂)).length := by
          rw [List.length_cons, List.length_append]
          omega
        obtain ⟨kept, hkept, huntagged, hsight⟩ :=
          ih ts₂.length hlt ts₂ hnames rfl
        -- none of the tags that are taken at once is kept
        refine ⟨kept, ?_, ?_, ?_⟩
        · exact (hkept.trans (List.sublist_append_right _ _)).cons _
        · rw [hcut, Piece.untagged_tag_cons, huntagged]
        · intro s' hs'
          rw [hcut, Piece.sightings_tag_cons] at hs'
          rcases List.mem_cons.1 hs' with rfl | hs'
          · exact ⟨u, List.mem_append_left ts₂ hu, hc⟩
          · obtain ⟨v, hv, hvc⟩ := hsight s' hs'
            exact ⟨v, List.mem_cons_of_mem _ (List.mem_append_right _ hv), hvc⟩
      · obtain ⟨kept, hkept, huntagged, hsight⟩ :=
          ih ts.length (by simp) ts (fun v hv => ht v (List.mem_cons_of_mem _ hv)) rfl
        refine ⟨t :: kept, hkept.cons_cons _, ?_, ?_⟩
        · rw [hcut]
          simp [huntagged]
        · intro s' hs'
          rw [hcut, Piece.sightings_append, Piece.sightings_map_plain, List.nil_append] at hs'
          obtain ⟨v, hv, hvc⟩ := hsight s' hs'
          exact ⟨v, List.mem_cons_of_mem _ hv, hvc⟩

/-- This holds of every identifier, also of one that runs across several tags. -/
theorem takesWhole_exactly (hg : g.Unmarked) (identifier : List Char) :
    (Selector.exactly identifier).TakesWhole g := by
  intro n
  have hpieces : (Selector.exactly identifier).pieces g n.text =
      n.own.map .plain ++
        Piece.cut (g.sighting? (Grammar.exactIdentifier? identifier)) 0 (Tag.renderAll g n.tags) :=
    Grammar.cut_append_renderAll hg _ n.headless n.tags
  obtain ⟨kept, hkept, huntagged, hsight⟩ :=
    cut_exactly_takes_whole hg identifier n.tags n.names
  refine ⟨kept, hkept, ?_, ?_⟩
  · rw [hpieces, Piece.untagged_append, Piece.untagged_map_plain, huntagged]
  · rw [hpieces, Piece.sightings_append, Piece.sightings_map_plain, List.nil_append]
    exact hsight

end Selector

theorem Line.strip_cases {g : Grammar} {sel : Selector} (h : sel.TakesWhole g)
    (n : Annotated g) :
    (∃ m : Annotated g, (n.line.strip g sel).1 = some m.line ∧ m.own = n.own ∧
      m.ending = n.ending ∧ m.tags.Sublist n.tags) ∨
    ((n.line.strip g sel).1 = none ∧ allBlank n.own = true ∧
      ∃ t ∈ n.tags, t.cleanup = true) := by
  obtain ⟨kept, hkept, huntagged, hsight⟩ := h n
  unfold Line.strip
  simp only [Annotated.line_text, huntagged]
  split
  · exact .inl ⟨n, rfl, rfl, rfl, List.Sublist.refl _⟩
  · split
    · next hdrop =>
      -- the line is blank without its tags, and so is its own text
      rw [Bool.and_eq_true, allBlank_append, Bool.and_eq_true] at hdrop
      obtain ⟨hany, hblank, -⟩ := hdrop
      obtain ⟨s, hs, hsc⟩ := List.any_eq_true.1 hany
      obtain ⟨t, ht, htc⟩ := hsight s hs
      exact .inr ⟨rfl, hblank, t, ht, htc.trans hsc⟩
    · have hnamed : ∀ t ∈ kept, g.identifierFault? t.identifier = none :=
        fun t ht => n.named t (hkept.subset ht)
      exact .inl ⟨⟨n.own, kept, n.ending, n.headless, hnamed⟩, rfl, rfl, rfl, hkept⟩

/-- Removing tags from a document of annotated lines leaves such a document. -/
theorem Document.exists_shed_of_remove {g : Grammar} {sel : Selector} (h : sel.TakesWhole g)
    {d : Document} {ns : List (Annotated g)} (hd : d.Shows ns) :
    ∃ ms : List (Annotated g), (d.remove g sel).1.Shows ms ∧ Shed ns ms := by
  have hlines : (d.remove g sel).1.lines =
      ns.filterMap fun n => (n.line.strip g sel).1 := by
    simp only [Document.remove]
    rw [hd, List.filterMap_map, List.filterMap_map]
    rfl
  unfold Document.Shows
  rw [hlines]
  clear hlines hd
  induction ns with
  | nil => exact ⟨[], rfl, .nil⟩
  | cons n ns ih =>
    obtain ⟨ms, hms, hshed⟩ := ih
    rcases Line.strip_cases h n with ⟨m, hm, hown, hending, htags⟩ | ⟨hnone, hblank, hcleanup⟩
    · refine ⟨m :: ms, ?_, .kept hown hending htags hshed⟩
      simp [hm, hms]
    · refine ⟨ms, ?_, .dropped hblank hcleanup hshed⟩
      simp [hnone, hms]

end Marginalia
