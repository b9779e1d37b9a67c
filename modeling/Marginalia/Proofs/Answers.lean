import Marginalia.Proofs.FileTagging
import Marginalia.Proofs.Returns

/-! # What an operation shows

    A tagger reads its file again before each operation. This module says of one operation
    what it shows of that, if somebody else kept the document and never wrote it.

    * **`Document.answer`**: what an operation on a document answers, and the document
      after it.
    * **`Document.Overlooks`**: nothing that is lost in reading again plays a part. The
      operation does not look at an empty last line, it puts nothing below a last line that
      ends unlike the one above it, and it does not move a carriage return that is read as
      part of a terminator.
    * **`Document.HidesRereading`**: the same, and what there is to say if a pattern takes a
      carriage return for part of a tag.
    * **`Document.answersAlike_iff`**: the answer and the text after it are the same if the
      text is read again exactly if the operation hides that. -/

namespace Marginalia

/-! ## Section 1: Operations -/

/-- What a tagger can be asked to do. The tags are listed with the help of a table, which
    gives out its keys in some order. -/
inductive Operation where
  | change (c : Change)
  | list (order : TableOrder)

/-- What it answers if nothing goes wrong. -/
inductive Answer where
  | outcome (o : Outcome)
  | listing (l : Listing)
deriving DecidableEq, Repr

namespace Document

variable {g : Grammar} {d d' : Document}

/-- What an operation on a document answers, and the document after it. One that fails
    leaves the document as it is. -/
def answer (g : Grammar) (d : Document) : Operation → Except Failure Answer × Document
  | .change c =>
    match c.apply g d with
    | .ok (d', o) => (.ok (.outcome o), d')
    | .error f    => (.error f, d)
  | .list order => (.ok (.listing (d.listing g order)), d)

/-! ## Section 2: What reading again changes -/

/-- The operation takes notice of an empty last line: it asks for tags on that line or for a
    range that is reported with the number of lines, or it counts tags in the empty text. -/
def LooksAtEnd (g : Grammar) (d : Document) : Operation → Prop
  | .change (.add identifier start stop) =>
    g.identifierFault? identifier = none ∧ (start = 0 ∨ stop < start ∨ d.length ≤ stop)
  | .change (.removeMatching pattern) =>
    ∃ p ∈ TagPattern.compile? g pattern, (p.sighting? none []).isSome = true
  | _ => False

/-- The operation puts a line below the last one. -/
def AddsBelow (g : Grammar) (d : Document) : Operation → Prop
  | .change (.add identifier start stop) =>
    ∃ r ∈ (d.addTags g identifier start stop).toOption, d.length < r.2.startLine
  | _ => False

/-- The operation moves a carriage return at the end of a line to where it is not read as part
    of a terminator: it puts a tag behind it, or on a new line that ends alike, or it leaves it
    at the end of the text. -/
def MovesReturn (g : Grammar) (d : Document) : Operation → Prop
  | .change (.add identifier start stop) =>
    (d.addTags g identifier start stop).toOption.isSome = true ∧
      ∃ i ∈ (d.site g start stop).bases, ∃ l ∈ d.completeLines[i]?, ¬ l.Stable
  | .change (.remove identifier) => d.UncoversReturn g (.exactly identifier)
  | .change (.removeMatching pattern) =>
    ∃ p ∈ TagPattern.compile? g pattern, d.UncoversReturn g (.pattern p)
  | .change .clear => d.UncoversReturn g .any
  | .list _ => False

/-- If tags are removed by a pattern, that finds and leaves the same in a line whose carriage
    return is read as part of the terminator. -/
def PassesReturns (g : Grammar) (d : Document) : Operation → Prop
  | .change (.removeMatching pattern) =>
    ∀ p ∈ TagPattern.compile? g pattern, d.StripsAlike g (.pattern p)
  | _ => True

/-- Nothing that is lost in reading again plays a part in the operation. -/
structure Overlooks (g : Grammar) (d : Document) (op : Operation) : Prop where
  atEnd   : d.EndsEmpty → ¬ d.LooksAtEnd g op
  below   : d.AddsBelow g op → d.reread.EndsAlike
  returns : ¬ d.MovesReturn g op

/-- The operation has the same answer, and leaves the same text. -/
def AnswersAlike (g : Grammar) (op : Operation) (d d' : Document) : Prop :=
  (d.answer g op).1 = (d'.answer g op).1 ∧ (d.answer g op).2.render = (d'.answer g op).2.render

/-- The operation cannot tell whether the document was written and read again. A pattern that
    takes a carriage return for part of a tag can find other tags then, and nothing else can be
    said than that it must remove as many and leave the same text. -/
structure HidesRereading (g : Grammar) (d : Document) (op : Operation) : Prop where
  overlooks : d.PassesReturns g op → d.Overlooks g op
  alike     : ¬ d.PassesReturns g op → AnswersAlike g op (parse d.render) d

instance (g : Grammar) (d : Document) (op : Operation) : Decidable (d.LooksAtEnd g op) :=
  match op with
  | .change (.add identifier start stop) => inferInstanceAs (Decidable
      (g.identifierFault? identifier = none ∧ (start = 0 ∨ stop < start ∨ d.length ≤ stop)))
  | .change (.removeMatching pattern) => inferInstanceAs (Decidable
      (∃ p ∈ TagPattern.compile? g pattern, (p.sighting? none []).isSome = true))
  | .change (.remove _) | .change .clear | .list _ => inferInstanceAs (Decidable False)

instance (g : Grammar) (d : Document) (op : Operation) : Decidable (d.AddsBelow g op) :=
  match op with
  | .change (.add identifier start stop) => inferInstanceAs (Decidable
      (∃ r ∈ (d.addTags g identifier start stop).toOption, d.length < r.2.startLine))
  | .change (.remove _) | .change (.removeMatching _) | .change .clear | .list _ =>
    inferInstanceAs (Decidable False)

instance (g : Grammar) (d : Document) (op : Operation) : Decidable (d.MovesReturn g op) :=
  match op with
  | .change (.add identifier start stop) => inferInstanceAs (Decidable
      ((d.addTags g identifier start stop).toOption.isSome = true ∧
        ∃ i ∈ (d.site g start stop).bases, ∃ l ∈ d.completeLines[i]?, ¬ l.Stable))
  | .change (.remove identifier) =>
    inferInstanceAs (Decidable (d.UncoversReturn g (.exactly identifier)))
  | .change (.removeMatching pattern) => inferInstanceAs (Decidable
      (∃ p ∈ TagPattern.compile? g pattern, d.UncoversReturn g (.pattern p)))
  | .change .clear => inferInstanceAs (Decidable (d.UncoversReturn g .any))
  | .list _ => inferInstanceAs (Decidable False)

instance (g : Grammar) (d : Document) (op : Operation) : Decidable (d.PassesReturns g op) :=
  match op with
  | .change (.removeMatching pattern) => inferInstanceAs (Decidable
      (∀ p ∈ TagPattern.compile? g pattern, d.StripsAlike g (.pattern p)))
  | .change (.add _ _ _) | .change (.remove _) | .change .clear | .list _ =>
    inferInstanceAs (Decidable True)

instance (g : Grammar) (d : Document) (op : Operation) : Decidable (d.Overlooks g op) :=
  decidable_of_iff
    ((d.EndsEmpty → ¬ d.LooksAtEnd g op) ∧ (d.AddsBelow g op → d.reread.EndsAlike) ∧
      ¬ d.MovesReturn g op)
    ⟨fun ⟨atEnd, below, returns⟩ => ⟨atEnd, below, returns⟩,
      fun ⟨atEnd, below, returns⟩ => ⟨atEnd, below, returns⟩⟩

instance (g : Grammar) (op : Operation) (d d' : Document) : Decidable (AnswersAlike g op d d') :=
  inferInstanceAs (Decidable (_ ∧ _))

instance (g : Grammar) (d : Document) (op : Operation) : Decidable (d.HidesRereading g op) :=
  decidable_of_iff
    ((d.PassesReturns g op → d.Overlooks g op) ∧
      (¬ d.PassesReturns g op → AnswersAlike g op (parse d.render) d))
    ⟨fun ⟨overlooks, alike⟩ => ⟨overlooks, alike⟩, fun ⟨overlooks, alike⟩ => ⟨overlooks, alike⟩⟩

/-! ## Section 3: One operation -/

theorem answer_change_ok {c : Change} {o : Outcome} (h : c.apply g d = .ok (d', o)) :
    d.answer g (.change c) = (.ok (.outcome o), d') := by
  simp only [answer, h]

theorem answer_change_error {c : Change} {f : Failure} (h : c.apply g d = .error f) :
    d.answer g (.change c) = (.error f, d) := by
  simp only [answer, h]

theorem apply_add_ok {identifier : List Char} {start stop : Nat} {p : Placement}
    (h : d.addTags g identifier start stop = .ok (d', p)) :
    (Change.add identifier start stop).apply g d = .ok (d', .placed p) := by
  simp only [Change.apply, h]

theorem apply_add_error {identifier : List Char} {start stop : Nat} {f : PlacementFault}
    (h : d.addTags g identifier start stop = .error f) :
    (Change.add identifier start stop).apply g d = .error (.placement f) := by
  simp only [Change.apply, h]

theorem apply_remove (g : Grammar) (identifier : List Char) (d : Document) :
    (Change.remove identifier).apply g d = .ok ((d.remove g (.exactly identifier)).1,
      .removed (d.remove g (.exactly identifier)).2) := by
  simp only [Change.apply, removeTags]

theorem apply_clear (g : Grammar) (d : Document) :
    Change.clear.apply g d = .ok ((d.remove g .any).1, .removed (d.remove g .any).2) := by
  simp only [Change.apply, clear]

theorem apply_removeMatching {pattern : List Char} {p : TagPattern}
    (h : TagPattern.compile? g pattern = some p) (d : Document) :
    (Change.removeMatching pattern).apply g d =
      .ok ((d.remove g (.pattern p)).1, .removed (d.remove g (.pattern p)).2) := by
  simp only [Change.apply, removeMatching?, h, Option.map_some]

theorem apply_removeMatching_error {pattern : List Char}
    (h : TagPattern.compile? g pattern = none) (d : Document) :
    (Change.removeMatching pattern).apply g d = .error .pattern := by
  simp only [Change.apply, removeMatching?, h, Option.map_none]

/-- A change that succeeds adds tags or removes some. -/
theorem apply_cases {c : Change} {o : Outcome} (h : c.apply g d = .ok (d', o)) :
    (∃ identifier start stop p, d.addTags g identifier start stop = .ok (d', p) ∧ o = .placed p) ∨
      ∃ sel, d' = (d.remove g sel).1 ∧ o = .removed (d.remove g sel).2 := by
  have hremoved : ∀ sel, Except.ok ((d.remove g sel).1, Outcome.removed (d.remove g sel).2) =
      (.ok (d', o) : Except Failure (Document × Outcome)) →
      ∃ sel, d' = (d.remove g sel).1 ∧ o = .removed (d.remove g sel).2 := by
    intro sel heq
    obtain ⟨hdoc, hout⟩ := Prod.mk.inj (Except.ok.inj heq)
    exact ⟨sel, hdoc.symm, hout.symm⟩
  cases c with
  | add identifier start stop =>
    left
    cases hadd : d.addTags g identifier start stop with
    | error f =>
      rw [apply_add_error hadd] at h
      exact absurd h (by simp)
    | ok r =>
      rw [apply_add_ok hadd] at h
      obtain ⟨rfl, rfl⟩ := Prod.mk.inj (Except.ok.inj h)
      exact ⟨identifier, start, stop, _, hadd, rfl⟩
  | remove identifier => exact .inr (hremoved _ (apply_remove g identifier d ▸ h))
  | removeMatching pattern =>
    cases hpattern : TagPattern.compile? g pattern with
    | none =>
      rw [apply_removeMatching_error hpattern] at h
      exact absurd h (by simp)
    | some p => exact .inr (hremoved _ (apply_removeMatching hpattern d ▸ h))
  | clear => exact .inr (hremoved _ (apply_clear g d ▸ h))

/-- A pattern that is not found in the empty text has no tags there. -/
theorem sightings_pieces_pattern_nil {p : TagPattern} (h : ¬ (p.sighting? none []).isSome = true) :
    Piece.sightings (Selector.pieces g (.pattern p) []) = [] := by
  rw [Bool.not_eq_true, Option.isSome_eq_false_iff, Option.isNone_iff_eq_none] at h
  simp [Selector.pieces, TagPattern.cut, h, Piece.sightings]

/-- Tags are put below the last line if their place is there. -/
theorem addsBelow_add_iff {identifier : List Char} {start stop : Nat} :
    d.AddsBelow g (.change (.add identifier start stop)) ↔
      (∃ d' p, d.addTags g identifier start stop = .ok (d', p)) ∧
        d.length ≤ (d.site g start stop).start := by
  unfold AddsBelow
  cases hadd : d.addTags g identifier start stop with
  | error f => simp [Except.toOption, hadd]
  | ok r =>
    obtain ⟨d', p⟩ := r
    obtain ⟨-, -, -, -, -, rfl⟩ := addTags_eq_ok hadd
    constructor
    · intro hbelow
      obtain ⟨r, hr, hplace⟩ := hbelow
      rw [hadd] at hr
      obtain rfl := Option.some.inj hr
      exact ⟨⟨d', _, rfl⟩, Nat.le_of_lt_succ hplace⟩
    · intro hplaced
      obtain ⟨-, hplace⟩ := hplaced
      -- the start line is counted from one, the place from zero
      exact ⟨_, congrArg Except.toOption hadd, Nat.lt_succ_of_le hplace⟩

/-- Tags are put on the lines of the document, if the identifier is accepted. -/
theorem exists_addTags_iff {identifier : List Char} {start stop : Nat} :
    (∃ d' p, d.addTags g identifier start stop = .ok (d', p)) ↔
      g.identifierFault? identifier = none ∧ start ≠ 0 ∧ start ≤ stop ∧ stop ≤ d.length := by
  constructor
  · intro hsome
    obtain ⟨d', p, hadd⟩ := hsome
    obtain ⟨hid, hpos, hle, hlen, -, -⟩ := addTags_eq_ok hadd
    exact ⟨hid, Nat.ne_of_gt hpos, hle, hlen⟩
  · intro hrange
    obtain ⟨hid, hpos, hle, hlen⟩ := hrange
    exact ⟨_, _, addTags_of_range hid hpos hle hlen⟩

theorem AddsBelow.exists_addTags {op : Operation} (h : d.AddsBelow g op) :
    ∃ identifier start stop d' p, op = .change (.add identifier start stop) ∧
      d.addTags g identifier start stop = .ok (d', p) ∧ d.length ≤ (d.site g start stop).start := by
  cases op with
  | list order => exact absurd h id
  | change c =>
    cases c with
    | add identifier start stop =>
      obtain ⟨⟨d', p, hadd⟩, hstart⟩ := addsBelow_add_iff.1 h
      exact ⟨identifier, start, stop, d', p, rfl, hadd, hstart⟩
    | remove identifier => exact absurd h id
    | removeMatching pattern => exact absurd h id
    | clear => exact absurd h id

namespace Mirrors

/-- Changes that remove tags, none of which is sighted in an empty last line. -/
theorem answer_remove (h : d.Mirrors d') {c : Change} {sel : Selector}
    (hc : ∀ d : Document, c.apply g d = .ok ((d.remove g sel).1, .removed (d.remove g sel).2))
    (hend : d.EndsEmpty → Piece.sightings (sel.pieces g []) = []) :
    (d.answer g (.change c)).1 = (d'.answer g (.change c)).1 ∧
      (d.answer g (.change c)).2.Mirrors (d'.answer g (.change c)).2 := by
  obtain ⟨hmirrors, hcount⟩ := h.remove hend
  rw [answer_change_ok (hc d), answer_change_ok (hc d'), hcount]
  exact ⟨rfl, hmirrors⟩

/-- Operations that hide the difference have the same answers, and lead to documents that
    differ in the same way. -/
theorem answer (h : d.Mirrors d') (hd' : ¬ d'.EndsEmpty)
    {op : Operation} (hlook : d.EndsEmpty → ¬ d.LooksAtEnd g op)
    (hbelow : d.AddsBelow g op → d.lines = d'.lines) :
    (d.answer g op).1 = (d'.answer g op).1 ∧ (d.answer g op).2.Mirrors (d'.answer g op).2 := by
  cases op with
  | list order => exact ⟨by simp only [Document.answer, h.pads.listing_eq g order], h⟩
  | change c =>
    cases c with
    | add identifier start stop =>
      cases hid : g.identifierFault? identifier with
      | some fault =>
        rw [answer_change_error (apply_add_error (addTags_of_fault hid start stop)),
          answer_change_error (apply_add_error (addTags_of_fault hid start stop))]
        exact ⟨rfl, h⟩
      | none =>
        by_cases hrange : start = 0 ∨ stop < start ∨ d'.length < stop
        · -- the range is reported with the number of lines, which is the same
          have hlen : d.length = d'.length := by
            refine h.length_eq fun hend => hlook hend ⟨hid, ?_⟩
            have := h.length_eq_succ hd' hend
            omega
          rw [answer_change_error (apply_add_error (addTags_of_no_range hid (hlen ▸ hrange))),
            answer_change_error (apply_add_error (addTags_of_no_range hid hrange)), hlen]
          exact ⟨rfl, h⟩
        · -- both documents have the range
          rw [not_or, not_or] at hrange
          have hlen := h.pads.length_le
          have hsame := fun hle => hbelow (addsBelow_add_iff.2
            ⟨⟨_, _, addTags_of_range hid hrange.1 (by omega) (by omega)⟩, hle⟩)
          obtain ⟨p, hadd, hadd', hmirrors⟩ :=
            h.addTags hid hrange.1 (Nat.le_of_not_lt hrange.2.1) (by omega) hsame
          rw [answer_change_ok (apply_add_ok hadd), answer_change_ok (apply_add_ok hadd')]
          simp only [hmirrors, and_self]
    | remove identifier => exact h.answer_remove (apply_remove g identifier) fun _ => rfl
    | removeMatching pattern =>
      cases hpattern : TagPattern.compile? g pattern with
      | none =>
        rw [answer_change_error (apply_removeMatching_error hpattern d),
          answer_change_error (apply_removeMatching_error hpattern d')]
        exact ⟨rfl, h⟩
      | some p =>
        exact h.answer_remove (apply_removeMatching hpattern) fun hend =>
          sightings_pieces_pattern_nil fun hnil => hlook hend ⟨p, hpattern, hnil⟩
    | clear => exact h.answer_remove (apply_clear g) fun _ => rfl

/-- An operation on a range above an empty last line puts nothing below that. -/
theorem not_addsBelow (h : d.Mirrors d') (hd' : ¬ d'.EndsEmpty) (hend : d.EndsEmpty)
    {op : Operation} (hlook : ¬ d.LooksAtEnd g op) : ¬ d.AddsBelow g op := by
  intro hbelow
  obtain ⟨identifier, start, stop, e, p, rfl, hadd, hstart⟩ := hbelow.exists_addTags
  obtain ⟨hid, hpos, hle, -, -, -⟩ := addTags_eq_ok hadd
  have hsucc := h.length_eq_succ hd' hend
  have hstop : stop ≤ d'.length := by
    by_contra hno
    exact hlook ⟨hid, .inr (.inr (by omega))⟩
  -- in the document without the empty line, the tags fit above it
  have hfits := site_fits g (d := d') (Nat.ne_of_gt hpos) hle hstop
  have hsame := (h.pads.site (g := g) (Nat.ne_of_gt hpos) hle hstop).start
  obtain ⟨-, hlast, -⟩ := hfits.below (by omega)
  omega

/-- An operation that looks at an empty last line has another answer if that is missing. -/
theorem answer_ne_of_looksAtEnd (h : d.Mirrors d') (hd' : ¬ d'.EndsEmpty) (hend : d.EndsEmpty)
    {op : Operation} (hlook : d.LooksAtEnd g op) : (d.answer g op).1 ≠ (d'.answer g op).1 := by
  cases op with
  | list order => exact absurd hlook id
  | change c =>
    cases c with
    | add identifier start stop =>
      obtain ⟨hid, hrange⟩ := hlook
      have hsucc := h.length_eq_succ hd' hend
      rw [answer_change_error (apply_add_error (addTags_of_no_range (d := d') hid (by omega)))]
      by_cases hrange' : start = 0 ∨ stop < start ∨ d.length < stop
      · -- one of them is said to have one line more
        rw [answer_change_error (apply_add_error (addTags_of_no_range hid hrange'))]
        simp [hsucc]
      · rw [answer_change_ok (apply_add_ok (addTags_of_range hid (by omega) (by omega) (by omega)))]
        simp
    | remove identifier => exact absurd hlook id
    | removeMatching pattern =>
      obtain ⟨p, hp, hsight⟩ := hlook
      obtain ⟨t, ht⟩ := Option.isSome_iff_exists.1 hsight
      obtain ⟨e, hlines⟩ := h.exists_empty hd' hend
      have hcount : (Line.strip g (.pattern p) ⟨[], e⟩).2 = 1 := by
        rw [Line.snd_strip]
        simp [Selector.pieces, TagPattern.cut, ht, Piece.sightings, Piece.sighting?]
      rw [answer_change_ok (apply_removeMatching hp d),
        answer_change_ok (apply_removeMatching hp d')]
      intro hsame
      have hremoved := congrArg Removal.tagsRemoved
        (Outcome.removed.inj (Answer.outcome.inj (Except.ok.inj hsame)))
      simp [Document.remove, hlines, hcount] at hremoved
    | clear => exact absurd hlook id

/-- If a line that is put below the last one is written alike, so is the last one. -/
theorem lines_eq_of_addsBelow (h : d.Mirrors d') (hlen : d.length = d'.length) {op : Operation}
    (hbelow : d.AddsBelow g op)
    (hrender : (d.answer g op).2.render = (d'.answer g op).2.render) : d.lines = d'.lines := by
  obtain ⟨identifier, start, stop, e, p, rfl, hadd, hstart⟩ := hbelow.exists_addTags
  obtain ⟨hid, hpos, hle, hstop, -, -⟩ := addTags_eq_ok hadd
  have hpos := Nat.ne_of_gt hpos
  have hstop' := hlen ▸ hstop
  simp only [answer_change_ok (apply_add_ok (addTags_of_range hid hpos hle hstop)),
    answer_change_ok (apply_add_ok (addTags_of_range hid hpos hle hstop'))] at hrender
  exact h.lines_eq_of_render_write_eq hlen (site_fits g hpos hle hstop)
    (site_fits g hpos hle hstop') (h.pads.site hpos hle hstop').start hstart hrender

end Mirrors

/-- If the terminators are those that were written, only what is at the end of the text can show
    that it was read again. -/
theorem answersAlike_parse_render_iff (hline : d.OneLine) (hstable : d.KeepsReturns)
    (op : Operation) :
    AnswersAlike g op (parse d.render) d ↔
      (d.EndsEmpty → ¬ d.LooksAtEnd g op) ∧ (d.AddsBelow g op → d.EndsAlike) := by
  have h := mirrors_parse_render hline hstable
  have hd' := not_endsEmpty_parse d.render
  constructor
  · intro hsame
    obtain ⟨hanswer, hrender⟩ := hsame
    have hlook : d.EndsEmpty → ¬ d.LooksAtEnd g op := fun hend hlook =>
      h.answer_ne_of_looksAtEnd hd' hend hlook hanswer.symm
    refine ⟨hlook, fun hbelow => ?_⟩
    have hend : ¬ d.EndsEmpty := fun hend => h.not_addsBelow hd' hend (hlook hend) hbelow
    rw [← lines_parse_render hline hstable hend]
    exact h.lines_eq_of_addsBelow (h.length_eq hend) hbelow hrender.symm
  · intro hhides
    obtain ⟨hlook, hbelow⟩ := hhides
    have hlines : d.AddsBelow g op → d.lines = (parse d.render).lines := by
      intro hadds
      have hend : ¬ d.EndsEmpty := fun hend => h.not_addsBelow hd' hend (hlook hend) hadds
      exact (lines_parse_render hline hstable hend).2 (hbelow hadds)
    obtain ⟨hanswer, hmirrors⟩ := h.answer hd' hlook hlines
    exact ⟨hanswer.symm, hmirrors.render_eq.symm⟩

/-! ## Section 4: Carriage returns -/

/-- Tags are removed from the document with the terminators that are read back. -/
theorem answer_remove_reread {c : Change} {sel : Selector}
    (hc : ∀ d : Document, c.apply g d = .ok ((d.remove g sel).1, .removed (d.remove g sel).2))
    (hsel : d.StripsAlike g sel) (hline : d.OneLine) :
    (d.reread.answer g (.change c)).1 = (d.answer g (.change c)).1 ∧
      ((d.reread.answer g (.change c)).2.render = (d.answer g (.change c)).2.render ↔
        ¬ d.UncoversReturn g sel) := by
  rw [answer_change_ok (hc d), answer_change_ok (hc d.reread), snd_remove_reread hsel]
  exact ⟨rfl, render_remove_reread_iff hsel hline⟩

/-- Tags are put in the same places of a document with the terminators that are read back. -/
theorem addTags_reread {identifier : List Char} {start stop : Nat}
    (hid : g.identifierFault? identifier = none) (hpos : start ≠ 0) (hle : start ≤ stop)
    (hlen : stop ≤ d.length) :
    ∃ p, d.addTags g identifier start stop = .ok ((d.site g start stop).write g identifier, p) ∧
      d.reread.addTags g identifier start stop =
        .ok ((d.reread.site g start stop).write g identifier, p) := by
  have hlen' : stop ≤ d.reread.length := d.length_reread.symm ▸ hlen
  have hpads := d.pads_reread.site (g := g) hpos hle hlen'
  refine ⟨_, addTags_of_range hid hpos hle hlen, ?_⟩
  rw [addTags_of_range hid hpos hle hlen', hpads.start, hpads.stop, hpads.blankInserted,
    hpads.startShifted, hpads.endShifted]

theorem answer_add_reread (hline : d.OneLine) {identifier : List Char} {start stop : Nat}
    (hid : g.identifierFault? identifier = none) (hpos : start ≠ 0) (hle : start ≤ stop)
    (hlen : stop ≤ d.length) :
    (d.reread.answer g (.change (.add identifier start stop))).1 =
        (d.answer g (.change (.add identifier start stop))).1 ∧
      ((d.reread.answer g (.change (.add identifier start stop))).2.render =
          (d.answer g (.change (.add identifier start stop))).2.render ↔
        ∀ i ∈ (d.site g start stop).bases, ∀ l ∈ d.completeLines[i]?, l.Stable) := by
  have hlen' : stop ≤ d.reread.length := d.length_reread.symm ▸ hlen
  have hsome : 0 < d.length := by omega
  obtain ⟨p, hadd, hadd'⟩ := addTags_reread (d := d) hid hpos hle hlen
  have hrender := render_write_reread_iff (d.pads_reread.site hpos hle hlen')
    (site_fits g hpos hle hlen) (site_fits g hpos hle hlen') (hline.addTags hadd)
    (hline.reread.addTags hadd') hsome
  rw [answer_change_ok (apply_add_ok hadd), answer_change_ok (apply_add_ok hadd')]
  simp only [hrender, and_self]

/-- The same tags are found in a document with the terminators that are read back, and put in
    the same places. The text is the same if no carriage return has moved. -/
theorem answer_reread (hline : d.OneLine) {op : Operation} (hpass : d.PassesReturns g op) :
    (d.reread.answer g op).1 = (d.answer g op).1 ∧
      ((d.reread.answer g op).2.render = (d.answer g op).2.render ↔ ¬ d.MovesReturn g op) := by
  cases op with
  | list order =>
    simp only [answer, d.pads_reread.listing_eq g order, render_reread, MovesReturn,
      not_false_eq_true, and_self]
  | change c =>
    cases c with
    | add identifier start stop =>
      by_cases hrange : g.identifierFault? identifier = none ∧ start ≠ 0 ∧ start ≤ stop ∧
          stop ≤ d.length
      · obtain ⟨hid, hpos, hle, hlen⟩ := hrange
        have hadd := addTags_of_range hid hpos hle hlen
        obtain ⟨hanswer, hrender⟩ := answer_add_reread hline hid hpos hle hlen
        refine ⟨hanswer, hrender.trans ?_⟩
        simp [MovesReturn, hadd, Except.toOption]
      · -- neither document has the range
        have hfault : ∃ f, d.addTags g identifier start stop = .error f ∧
            d.reread.addTags g identifier start stop = .error f := by
          cases hid : g.identifierFault? identifier with
          | some fault => exact ⟨_, addTags_of_fault hid start stop, addTags_of_fault hid start stop⟩
          | none =>
            have hno : start = 0 ∨ stop < start ∨ d.length < stop := by
              by_contra hrange'
              exact hrange ⟨hid, by omega, by omega, by omega⟩
            have hfault := addTags_of_no_range (d := d.reread) hid (d.length_reread.symm ▸ hno)
            rw [length_reread] at hfault
            exact ⟨_, addTags_of_no_range hid hno, hfault⟩
        obtain ⟨f, hadd, hadd'⟩ := hfault
        rw [answer_change_error (apply_add_error hadd), answer_change_error (apply_add_error hadd')]
        simp [MovesReturn, hadd, Except.toOption, render_reread]
    | remove identifier =>
      exact answer_remove_reread (apply_remove g identifier)
        (stripsAlike_of_isPlain (Selector.isPlain_exactly identifier) g d) hline
    | removeMatching pattern =>
      cases hpattern : TagPattern.compile? g pattern with
      | none =>
        rw [answer_change_error (apply_removeMatching_error hpattern d),
          answer_change_error (apply_removeMatching_error hpattern d.reread)]
        simp [MovesReturn, hpattern, render_reread]
      | some p =>
        obtain ⟨hanswer, hrender⟩ :=
          answer_remove_reread (apply_removeMatching hpattern) (hpass p hpattern) hline
        refine ⟨hanswer, hrender.trans ?_⟩
        simp [MovesReturn, hpattern]
    | clear =>
      exact answer_remove_reread (apply_clear g)
        (stripsAlike_of_isPlain Selector.isPlain_any g d) hline

theorem looksAtEnd_reread (g : Grammar) (d : Document) (op : Operation) :
    d.reread.LooksAtEnd g op ↔ d.LooksAtEnd g op := by
  cases op with
  | list order => exact Iff.rfl
  | change c => cases c <;> simp only [LooksAtEnd, length_reread]

theorem addsBelow_reread (g : Grammar) (d : Document) (op : Operation) :
    d.reread.AddsBelow g op ↔ d.AddsBelow g op := by
  cases op with
  | list order => exact Iff.rfl
  | change c =>
    cases c with
    | remove identifier | removeMatching pattern | clear => exact Iff.rfl
    | add identifier start stop =>
      rw [addsBelow_add_iff, addsBelow_add_iff, exists_addTags_iff, exists_addTags_iff,
        length_reread]
      refine and_congr_right fun hrange => ?_
      obtain ⟨-, hpos, hle, hlen⟩ := hrange
      rw [(d.pads_reread.site (g := g) hpos hle (d.length_reread.symm ▸ hlen)).start]

/-- A line that is put below the last one has its terminator from that, which is written only
    if all are. -/
theorem terminated_of_movesReturn {op : Operation} (hbelow : d.AddsBelow g op)
    (hmoves : d.MovesReturn g op) : d.terminated = true := by
  obtain ⟨identifier, start, stop, e, p, rfl, hadd, hstart⟩ := hbelow.exists_addTags
  obtain ⟨-, hpos, hle, hlen, -, -⟩ := addTags_eq_ok hadd
  have hfits := site_fits g (d := d) (Nat.ne_of_gt hpos) hle hlen
  obtain ⟨hblank, hlow, hstop⟩ := hfits.below hstart
  obtain ⟨-, i, hi, l, hl, -⟩ := hmoves
  have hlast : i = (d.site g start stop).start - 1 := by
    rw [Site.bases, if_pos hblank, hstop, ← hlow] at hi
    simpa using hi
  by_contra hopen
  have hdrop : d.completeLines = d.lines.dropLast := by
    unfold completeLines
    rw [if_neg hopen]
  rw [hdrop] at hl
  obtain ⟨hlt, -⟩ := List.getElem?_eq_some_iff.1 hl
  rw [List.length_dropLast] at hlt
  unfold length at hstart
  omega

/-- What an operation shows if the text is read again before it. -/
theorem answersAlike_iff_overlooks (hline : d.OneLine) {op : Operation}
    (hpass : d.PassesReturns g op) :
    AnswersAlike g op (parse d.render) d ↔ d.Overlooks g op := by
  have hmirrors := mirrors_parse_render hline.reread d.keepsReturns_reread
  have hreread := answersAlike_parse_render_iff (g := g) hline.reread d.keepsReturns_reread op
  rw [render_reread] at hmirrors hreread
  rw [endsEmpty_reread, looksAtEnd_reread, addsBelow_reread] at hreread
  obtain ⟨hanswer, hrender⟩ := answer_reread hline hpass
  -- the terminators are read back first, and what is at the end of the text is lost then
  constructor
  · intro halike
    obtain ⟨hsame, htext⟩ := halike
    have hlook : d.EndsEmpty → ¬ d.LooksAtEnd g op := fun hend hlook =>
      hmirrors.answer_ne_of_looksAtEnd (not_endsEmpty_parse d.render) (endsEmpty_reread.2 hend)
        ((looksAtEnd_reread g d op).2 hlook) (hanswer.trans hsame.symm)
    have hbelow : d.AddsBelow g op → d.reread.EndsAlike := by
      intro hbelow
      by_cases hmoves : d.MovesReturn g op
      · -- the texts are not compared here, but a last terminator is all that is asked for
        exact .inl (terminated_of_movesReturn (d := d) hbelow hmoves)
      · exact (hreread.1 ⟨hsame.trans hanswer.symm, htext.trans (hrender.2 hmoves).symm⟩).2 hbelow
    obtain ⟨-, hread⟩ := hreread.2 ⟨hlook, hbelow⟩
    exact ⟨hlook, hbelow, hrender.1 (hread.symm.trans htext)⟩
  · intro hhides
    obtain ⟨hlook, hbelow, hmoves⟩ := hhides
    obtain ⟨hsame, htext⟩ := hreread.2 ⟨hlook, hbelow⟩
    exact ⟨hsame.trans hanswer, htext.trans (hrender.2 hmoves)⟩

/-- If the text is read again before an operation, it has the same answer and leaves the same
    text exactly if it hides that. -/
theorem answersAlike_iff (hline : d.OneLine) (op : Operation) :
    AnswersAlike g op (parse d.render) d ↔ d.HidesRereading g op := by
  by_cases hpass : d.PassesReturns g op
  · rw [answersAlike_iff_overlooks hline hpass]
    exact ⟨fun h => ⟨fun _ => h, fun hno => absurd hpass hno⟩, fun h => h.overlooks hpass⟩
  · exact ⟨fun h => ⟨fun hyes => absurd hyes hpass, fun _ => h⟩, fun h => h.alike hpass⟩

end Document

end Marginalia
