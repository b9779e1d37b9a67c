import Mathlib.Data.List.Forall2
import Marginalia.Proofs.Cutting
import Marginalia.Region
import Marginalia.Tag.Selector

/-! # Carriage returns behind a line

    A carriage return at the end of a line is text to whoever works on the line, and is part
    of the terminator to whoever reads the file again. No tag and no comment delimiter ends in
    one, so that it makes no difference to where tags and comments are found.

    * **`Text.SameButReturn`**: two texts, one of which may have a carriage return behind it.
    * **`Grammar.sighting?_append_return`**: the same tag is read.
    * **`Selector.pieces_append_return`**: a line is cut in the same way, unless a pattern says
      how.
    * **`Region.enclosing_congr`**: the comment around a line is the same. -/

namespace Marginalia

/-! ## Section 1: Texts -/

namespace Text

/-- The texts are the same, but for a carriage return behind the first one. -/
def SameButReturn (x y : List Char) : Prop :=
  x = y ∨ x = y ++ ['\r']

theorem SameButReturn.allBlank_eq {x y : List Char} (h : SameButReturn x y) :
    allBlank x = allBlank y := by
  have hreturn : allBlank ['\r'] = true := by decide
  obtain rfl | rfl := h
  · rfl
  · rw [allBlank_append, hreturn, Bool.and_true]

/-- What cannot see the carriage return sees the same in all texts. -/
theorem map_eq_of_sameButReturn {α : Type*} {f : List Char → α}
    (hf : ∀ x y, SameButReturn x y → f x = f y) {xs ys : List (List Char)}
    (h : List.Forall₂ SameButReturn xs ys) : xs.map f = ys.map f := by
  rw [← List.forall₂_eq_eq_eq, List.forall₂_map_left_iff, List.forall₂_map_right_iff]
  exact h.imp hf

/-- A text is found at the beginning of another one as well if that has a carriage return
    behind it, or it is the whole of it. -/
theorem after?_append_return_cases (p s : List Char) :
    after? p (s ++ ['\r']) = (after? p s).map (· ++ ['\r']) ∨ p = s ++ ['\r'] := by
  induction p generalizing s with
  | nil => exact .inl rfl
  | cons a p ih =>
    cases s with
    | nil =>
      -- only the carriage return is left, and it can be the rest of what is looked for
      by_cases ha : a = '\r'
      · cases p with
        | nil => exact .inr (by rw [ha]; rfl)
        | cons b p => exact .inl (by simp [after?, ha])
      · exact .inl (by simp [after?, ha])
    | cons c s =>
      by_cases ha : a = c
      · refine (ih s).imp (fun h => ?_) (fun h => ?_)
        · simpa [after?, ha] using h
        · rw [ha, h]
          rfl
      · exact .inl (by simp [after?, ha])

theorem after?_append_return {p : List Char} (hp : '\r' ∉ p) (s : List Char) :
    after? p (s ++ ['\r']) = (after? p s).map (· ++ ['\r']) := by
  refine (after?_append_return_cases p s).resolve_right ?_
  rintro rfl
  exact hp (by simp)

theorem occursIn_append_return {needle : List Char} (hneedle : '\r' ∉ needle) (s : List Char) :
    occursIn needle (s ++ ['\r']) = occursIn needle s := by
  rw [Bool.eq_iff_iff, occursIn_iff, occursIn_iff, List.infix_concat_iff]
  refine or_iff_right_of_imp ?_
  intro hsuffix
  rcases List.eq_nil_or_concat' needle with rfl | ⟨init, c, rfl⟩
  · exact List.nil_infix
  · obtain ⟨before, heq⟩ := hsuffix
    rw [← List.append_assoc] at heq
    obtain rfl : c = '\r' := List.singleton_inj.1 (List.append_inj' heq rfl).2
    exact absurd (List.mem_append_right init List.mem_cons_self) hneedle

theorem afterLast?_append_return {needle : List Char} (hne : needle ≠ []) (hneedle : '\r' ∉ needle)
    (s : List Char) :
    afterLast? needle (s ++ ['\r']) = (afterLast? needle s).map (· ++ ['\r']) := by
  induction s with
  | nil =>
    have hnil : after? needle [] = none := by
      cases needle with
      | nil => exact absurd rfl hne
      | cons a needle => rfl
    have hreturn := after?_append_return hneedle []
    rw [hnil] at hreturn
    simp only [List.nil_append, afterLast?, hnil] at hreturn ⊢
    rw [hreturn]
  | cons c s ih =>
    rw [List.cons_append]
    unfold afterLast?
    rw [ih]
    cases afterLast? needle s with
    | some r => rfl
    | none => exact after?_append_return hneedle (c :: s)

end Text

open Text

/-! ## Section 2: Tags -/

namespace Grammar

variable {g : Grammar}

theorem return_not_mem_opener (g : Grammar) : '\r' ∉ g.opener := fun h =>
  absurd (g.delimiters_oneLine '\r' (List.mem_append_left _ h)) (by decide)

theorem return_not_mem_closer (g : Grammar) : '\r' ∉ g.closer := fun h =>
  absurd (g.delimiters_oneLine '\r' (List.mem_append_right _ h)) (by decide)

theorem marks_ne_return (g : Grammar) :
    g.boundary ≠ '\r' ∧ g.separator ≠ '\r' ∧ g.cleanup ≠ '\r' := by
  obtain ⟨hboundary, hseparator, hcleanup⟩ := g.marks_oneLine
  refine ⟨?_, ?_, ?_⟩ <;> intro h
  · rw [h] at hboundary
    exact absurd hboundary (by decide)
  · rw [h] at hseparator
    exact absurd hseparator (by decide)
  · rw [h] at hcleanup
    exact absurd hcleanup (by decide)

theorem return_not_mem_of_mem_heads {head : Bool × List Char} (h : head ∈ g.heads) :
    '\r' ∉ head.2 := by
  obtain ⟨hboundary, hseparator, -⟩ := g.marks_ne_return
  have hopener := g.return_not_mem_opener
  have hjoiner : '\r' ≠ joiner := by decide
  simp only [heads, List.mem_cons, List.not_mem_nil, or_false] at h
  rcases h with rfl | rfl | rfl | rfl <;>
    simp [hopener, hjoiner, Ne.symm hboundary, Ne.symm hseparator]

theorem return_not_mem_of_mem_tails {tail : Bool × Bool × List Char} (h : tail ∈ g.tails) :
    '\r' ∉ tail.2.2 := by
  obtain ⟨hboundary, hseparator, hcleanup⟩ := g.marks_ne_return
  have hcloser := g.return_not_mem_closer
  simp only [tails, List.mem_cons, List.not_mem_nil, or_false] at h
  rcases h with rfl | rfl | rfl | rfl <;>
    simp [hcloser, Ne.symm hboundary, Ne.symm hseparator, Ne.symm hcleanup]

/-- A way to read identifiers takes no notice of a carriage return behind the text, unless the
    identifier goes on up to there. -/
def IgnoresReturn (identifier? : List Char → Option (List Char × List Char)) : Prop :=
  ∀ s, identifier? (s ++ ['\r']) =
      (identifier? s).map (fun (identifier, outer) => (identifier, outer ++ ['\r'])) ∨
    identifier? s = none ∧ ∃ identifier, identifier? (s ++ ['\r']) = some (identifier, [])

theorem ignoresReturn_anyIdentifier? (g : Grammar) : IgnoresReturn g.anyIdentifier? := by
  intro s
  have hreturn : g.isIdentifierChar '\r' = false := by simp [isIdentifierChar, isLineBreak]
  have htake : (s ++ ['\r']).takeWhile g.isIdentifierChar = s.takeWhile g.isIdentifierChar := by
    rw [List.takeWhile_append]
    split
    · next hall => simp [hreturn, (List.takeWhile_prefix _).eq_of_length hall]
    · rfl
  have hdrop : (s ++ ['\r']).dropWhile g.isIdentifierChar =
      s.dropWhile g.isIdentifierChar ++ ['\r'] := by
    rw [List.dropWhile_append]
    split
    · next hall => simp [hreturn, List.isEmpty_iff.1 hall]
    · rfl
  left
  unfold anyIdentifier?
  rw [htake, hdrop]
  cases s.takeWhile g.isIdentifierChar <;> rfl

theorem ignoresReturn_exactIdentifier? (identifier : List Char) :
    IgnoresReturn (exactIdentifier? identifier) := by
  intro s
  unfold exactIdentifier?
  rcases after?_append_return_cases identifier s with hsame | hwhole
  · left
    rw [hsame, Option.map_map, Option.map_map]
    rfl
  · -- what is longer than the text does not stand at its beginning
    have hnone : after? identifier s = none := by
      apply after?_eq_none_of_length_lt
      rw [hwhole]
      simp
    have hsome : after? identifier (s ++ ['\r']) = some [] :=
      after?_eq_some_iff.2 (by rw [hwhole, List.append_nil])
    rw [hnone, hsome]
    exact .inr ⟨rfl, identifier, rfl⟩

theorem closed?_append_return (startMark : Bool) (head identifier outer : List Char) :
    g.closed? startMark head identifier (outer ++ ['\r']) =
      g.closed? startMark head identifier outer := by
  unfold closed?
  refine findSome?_congr fun tail htail => ?_
  obtain ⟨endMark, cleanup, tail⟩ := tail
  simp only [after?_append_return (return_not_mem_of_mem_tails htail), Option.map_map]
  rfl

theorem closed?_nil (startMark : Bool) (head identifier : List Char) :
    g.closed? startMark head identifier [] = none := by
  unfold closed?
  rw [List.findSome?_eq_none_iff]
  intro tail htail
  obtain ⟨v, hv⟩ := exists_cons_of_mem_tails htail
  obtain ⟨endMark, cleanup, tail⟩ := tail
  obtain rfl : tail = g.separator :: v := hv
  rfl

/-- The same tag is read at the beginning of a text that has a carriage return behind it. -/
theorem sighting?_append_return {identifier? : List Char → Option (List Char × List Char)}
    (hid : IgnoresReturn identifier?) (s : List Char) :
    g.sighting? identifier? (s ++ ['\r']) = g.sighting? identifier? s := by
  have hhead : ∀ head ∈ g.heads,
      ((after? head.2 (s ++ ['\r'])).bind fun inner => (identifier? inner).bind fun r =>
          g.closed? head.1 head.2 r.1 r.2) =
        (after? head.2 s).bind fun inner => (identifier? inner).bind fun r =>
          g.closed? head.1 head.2 r.1 r.2 := by
    intro head hmem
    rw [after?_append_return (return_not_mem_of_mem_heads hmem)]
    cases after? head.2 s with
    | none => rfl
    | some inner =>
      simp only [Option.map_some, Option.bind_some]
      rcases hid inner with hsame | ⟨hnone, identifier, hwhole⟩
      · rw [hsame, Option.bind_map]
        cases identifier? inner with
        | none => rfl
        | some r => exact closed?_append_return head.1 head.2 r.1 r.2
      · -- the identifier takes the carriage return, and then nothing is left to close the tag
        rw [hnone, hwhole]
        exact closed?_nil head.1 head.2 identifier
  have hsearch := findSome?_congr hhead
  simp only [closed?, Option.map_eq_bind] at hsearch
  exact hsearch

end Grammar

namespace Piece

variable {find : List Char → Option Sighting}

/-- The carriage return is a piece of its own. -/
theorem cut_append_return (hfind : Finds find) (hreturn : ∀ s, find (s ++ ['\r']) = find s)
    (s : List Char) : cut find 0 (s ++ ['\r']) = cut find 0 s ++ [.plain '\r'] := by
  induction s using cut_induction hfind with
  | nil =>
    have hnone : find ['\r'] = none := by
      rw [← List.nil_append ['\r'], hreturn, Option.eq_none_iff_forall_ne_some]
      intro t ht
      obtain ⟨hne, hprefix⟩ := hfind _ _ ht
      exact hne (List.prefix_nil.1 hprefix)
    rw [List.nil_append, cut_cons_of_none hnone]
    rfl
  | plain c s hc ih =>
    have hc' : find (c :: (s ++ ['\r'])) = none := (hreturn (c :: s)).trans hc
    rw [List.cons_append, cut_cons_of_none hc', cut_cons_of_none hc, ih]
    rfl
  | tag t s ht hne ih =>
    have ht' : find (t.raw ++ (s ++ ['\r'])) = some t := by
      rw [← List.append_assoc, hreturn, ht]
    rw [List.append_assoc, cut_append_of_some ht' rfl hne, cut_append_of_some ht rfl hne, ih]
    rfl

end Piece

/-- A selector that is no pattern. -/
def Selector.IsPlain : Selector → Prop
  | .pattern _ => False
  | _ => True

namespace Selector

theorem isPlain_any : any.IsPlain := trivial

theorem isPlain_exactly (identifier : List Char) : (exactly identifier).IsPlain := trivial

variable {g : Grammar} {sel : Selector} {x y : List Char}

/-- Tags are found as if there were no carriage return behind the line. -/
theorem pieces_append_return (hsel : sel.IsPlain) (g : Grammar) (line : List Char) :
    sel.pieces g (line ++ ['\r']) = sel.pieces g line ++ [.plain '\r'] := by
  cases sel with
  | any =>
    exact Piece.cut_append_return g.finds_sighting?
      (Grammar.sighting?_append_return g.ignoresReturn_anyIdentifier?) line
  | exactly identifier =>
    exact Piece.cut_append_return (g.finds_sighting?_exactly identifier)
      (Grammar.sighting?_append_return (Grammar.ignoresReturn_exactIdentifier? identifier)) line
  | pattern p => exact absurd hsel id

theorem sightings_pieces_eq (hsel : sel.IsPlain) (g : Grammar) (h : SameButReturn x y) :
    Piece.sightings (sel.pieces g x) = Piece.sightings (sel.pieces g y) := by
  obtain rfl | rfl := h
  · rfl
  · rw [pieces_append_return hsel]
    simp [Piece.sightings, Piece.sighting?]

theorem untagged_pieces_append_return (hsel : sel.IsPlain) (g : Grammar) (line : List Char) :
    Piece.untagged (sel.pieces g (line ++ ['\r'])) =
      Piece.untagged (sel.pieces g line) ++ ['\r'] := by
  rw [pieces_append_return hsel]
  simp [Piece.untagged, Piece.plain?]

end Selector

theorem Grammar.untagged_sameButReturn {g : Grammar} {x y : List Char} (h : SameButReturn x y) :
    SameButReturn (g.untagged x) (g.untagged y) := by
  obtain rfl | rfl := h
  · exact .inl rfl
  · exact .inr (Selector.untagged_pieces_append_return Selector.isPlain_any g y)

/-! ## Section 3: Comments -/

namespace Region

variable {g : Grammar} {texts texts' : List (List Char)}

theorem occursIn_closer_eq {x y : List Char} (h : SameButReturn x y) :
    occursIn g.closer x = occursIn g.closer y := by
  obtain rfl | rfl := h
  · rfl
  · exact occursIn_append_return g.return_not_mem_closer y

/-- Only white space follows the last closer on both lines, or on none of them. -/
theorem any_allBlank_afterLast?_closer_eq {x y : List Char} (h : SameButReturn x y) :
    (afterLast? g.closer x).any allBlank = (afterLast? g.closer y).any allBlank := by
  obtain rfl | rfl := h
  · rfl
  · rw [afterLast?_append_return g.closer_ne_nil g.return_not_mem_closer]
    cases afterLast? g.closer y with
    | none => rfl
    | some rest => exact SameButReturn.allBlank_eq (.inr rfl)

/-- Searches through lines that have something to do with each other. -/
theorem findSome?_rel {α β α' β' : Type*} {R : α → β → Prop} {S : α' → β' → Prop}
    {f : α → Option α'} {f' : β → Option β'} (hf : ∀ a b, R a b → Option.Rel S (f a) (f' b))
    {as : List α} {bs : List β} (h : List.Forall₂ R as bs) :
    Option.Rel S (as.findSome? f) (bs.findSome? f') := by
  induction h with
  | nil => exact .none
  | @cons a b as bs hab _ ih =>
    have hrel := hf a b hab
    simp only [List.findSome?_cons]
    generalize f a = r at hrel ⊢
    generalize f' b = r' at hrel ⊢
    cases hrel with
    | none => exact ih
    | some hsome => exact .some hsome

theorem forall₂_zipIdx {α β : Type*} {R : α → β → Prop} {as : List α} {bs : List β}
    (h : List.Forall₂ R as bs) (n : Nat) :
    List.Forall₂ (fun a b => R a.1 b.1 ∧ a.2 = b.2) (as.zipIdx n) (bs.zipIdx n) := by
  induction h generalizing n with
  | nil => exact .nil
  | cons hab _ ih => exact .cons ⟨hab, rfl⟩ (ih (n + 1))

theorem lastOpener?_rel (h : List.Forall₂ SameButReturn texts texts') (line : Nat) :
    Option.Rel (fun a b => a.1 = b.1 ∧ SameButReturn a.2 b.2) (lastOpener? g texts line)
      (lastOpener? g texts' line) := by
  unfold lastOpener?
  refine findSome?_rel ?_ (List.rel_reverse (forall₂_zipIdx (List.forall₂_take _ h) 0))
  intro a b hab
  obtain ⟨x, i⟩ := a
  obtain ⟨y, j⟩ := b
  obtain ⟨hxy, hij⟩ := hab
  obtain rfl : i = j := hij
  obtain hsame | hreturn := hxy
  · obtain rfl : x = y := hsame
    simp only
    cases afterLast? g.opener x with
    | none => exact .none
    | some rest => exact .some ⟨rfl, .inl rfl⟩
  · obtain rfl : x = y ++ ['\r'] := hreturn
    simp only [afterLast?_append_return g.opener_ne_nil g.return_not_mem_opener]
    cases afterLast? g.opener y with
    | none => exact .none
    | some rest => exact .some ⟨rfl, .inr rfl⟩

theorem nextCloser?_congr (h : List.Forall₂ SameButReturn texts texts') (start : Nat) :
    nextCloser? g texts start = nextCloser? g texts' start := by
  have hmap := map_eq_of_sameButReturn (fun _ _ => occursIn_closer_eq (g := g))
    (List.forall₂_drop start h)
  have hfind : ∀ ts : List (List Char),
      ts.findIdx? (occursIn g.closer) = (ts.map (occursIn g.closer)).findIdx? id := by
    intro ts
    rw [List.findIdx?_map]
    rfl
  unfold nextCloser?
  rw [hfind, hfind, hmap]

/-- The comment around a line is the same. -/
theorem enclosing_congr (h : List.Forall₂ SameButReturn texts texts') (line : Nat) :
    enclosing g texts line = enclosing g texts' line := by
  have hopener := lastOpener?_rel (g := g) h line
  unfold enclosing
  generalize lastOpener? g texts line = o at hopener ⊢
  generalize lastOpener? g texts' line = o' at hopener ⊢
  cases hopener with
  | none => rfl
  | @some a b hab =>
    obtain ⟨i, rest⟩ := a
    obtain ⟨j, rest'⟩ := b
    obtain ⟨rfl, hrest⟩ := hab
    simp only [Option.bind_eq_bind, Option.bind_some, occursIn_closer_eq hrest,
      nextCloser?_congr h]

end Region

end Marginalia
