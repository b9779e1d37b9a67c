import Mathlib.Data.List.Infix
import Marginalia.Proofs.Decoding

/-! # Cutting texts into pieces

    A text is cut from left to right, wherever a way to find tags finds one. What holds of
    every such cut comes first, then what holds of the tags of every grammar, also of those
    whose delimiters hold marks:

    * **`Piece.Finds`**: what is found is a beginning of the text, and not empty.
    * **`Piece.cut_induction`**: induction along a cut.
    * **`Piece.flatMap_raw_cut`**: the pieces make up the text.
    * **`Piece.eq_cut_of_append`**: the last pieces of a cut are a cut of their own text.
    * **`Piece.split_or_cross`**: where two texts meet, one piece ends and another begins,
      or a tag lies across.
    * **`Grammar.sighting?_head_append`**: how a tag is read behind its head, in any
      accepted grammar.
    * **`Grammar.sighting?_render`**: the text of a tag alone is read as this tag. -/

namespace Marginalia

open Text

/-! ## Section 1: Pieces of a cut -/

namespace Piece

variable {find : List Char → Option Sighting}

/-- What is found is a beginning of the text, and not empty. -/
def Finds (find : List Char → Option Sighting) : Prop :=
  ∀ s t, find s = some t → t.raw ≠ [] ∧ t.raw <+: s

theorem cut_cons_of_none {c : Char} {s : List Char} (h : find (c :: s) = none) :
    cut find 0 (c :: s) = .plain c :: cut find 0 s := by
  simp [cut, h]

/-- Induction along a cut. -/
theorem cut_induction (hfind : Finds find) {motive : List Char → Prop} (nil : motive [])
    (plain : ∀ c s, find (c :: s) = none → motive s → motive (c :: s))
    (tag : ∀ t s, find (t.raw ++ s) = some t → t.raw ≠ [] → motive s → motive (t.raw ++ s))
    (s : List Char) : motive s := by
  induction hn : s.length using Nat.strongRecOn generalizing s with
  | ind n ih =>
    cases s with
    | nil => exact nil
    | cons c s =>
      cases hc : find (c :: s) with
      | none => exact plain c s hc (ih s.length (by simp [← hn]) s rfl)
      | some t =>
        obtain ⟨hne, v, hv⟩ := hfind _ _ hc
        have hlen := congrArg List.length hv
        have hpos := List.length_pos_iff.2 hne
        simp only [List.length_append] at hlen
        rw [← hv]
        exact tag t v (hv ▸ hc) hne (ih v.length (by omega) v rfl)

/-- The pieces make up the text. -/
theorem flatMap_raw_cut (hfind : Finds find) (s : List Char) :
    (cut find 0 s).flatMap raw = s := by
  induction s using cut_induction hfind with
  | nil => simp [cut]
  | plain c s hc ih =>
    rw [cut_cons_of_none hc, List.flatMap_cons, ih]
    rfl
  | tag t s ht hne ih =>
    rw [cut_append_of_some ht rfl hne, List.flatMap_cons, ih]
    rfl

theorem flatMap_raw_map_plain (s : List Char) : (s.map plain).flatMap raw = s := by
  induction s with
  | nil => rfl
  | cons c s ih => simpa [raw] using ih

/-- Where a cut begins with a tag, this tag is found. -/
theorem find_eq_some_of_cut {y : List Char} {t : Sighting} {ps : List Piece}
    (h : cut find 0 y = .tag t :: ps) : find y = some t := by
  cases y with
  | nil => simp [cut] at h
  | cons c s =>
    unfold cut at h
    split at h
    · next t' ht' =>
      obtain ⟨⟨rfl⟩, -⟩ := List.cons.inj h
      exact ht'
    · cases h

/-- Where a cut begins with a character, no tag is found. -/
theorem find_eq_none_of_cut {y : List Char} {c : Char} {ps : List Piece}
    (h : cut find 0 y = .plain c :: ps) : find y = none := by
  cases y with
  | nil => simp [cut] at h
  | cons c' s =>
    unfold cut at h
    split at h
    · cases h
    · next hnone => exact hnone

/-- The last pieces of a cut are what their own text is cut into. -/
theorem eq_cut_of_append (hfind : Finds find) {s : List Char} {ps qs : List Piece}
    (h : cut find 0 s = ps ++ qs) : qs = cut find 0 (qs.flatMap raw) := by
  induction s using cut_induction hfind generalizing ps with
  | nil =>
    have hnil : cut find 0 ([] : List Char) = [] := by simp [cut]
    rw [hnil] at h
    rw [(List.append_eq_nil_iff.1 h.symm).2]
    exact hnil.symm
  | plain c s hc ih =>
    cases ps with
    | nil =>
      have hqs : qs = cut find 0 (c :: s) := h.symm
      rw [hqs, flatMap_raw_cut hfind]
    | cons p ps =>
      rw [cut_cons_of_none hc] at h
      exact ih (List.cons.inj h).2
  | tag t s ht hne ih =>
    cases ps with
    | nil =>
      have hqs : qs = cut find 0 (t.raw ++ s) := h.symm
      rw [hqs, flatMap_raw_cut hfind]
    | cons p ps =>
      rw [cut_append_of_some ht rfl hne] at h
      exact ih (List.cons.inj h).2

/-- Where two texts meet, one piece ends and another begins, or a tag lies across. -/
theorem split_or_cross {L : List Piece} {x v : List Char} (h : L.flatMap raw = x ++ v) :
    (∃ ps qs, L = ps ++ qs ∧ ps.flatMap raw = x ∧ qs.flatMap raw = v) ∨
      ∃ ps s qs a b, L = ps ++ .tag s :: qs ∧ s.raw = a ++ b ∧ a ≠ [] ∧ b ≠ [] ∧
        ps.flatMap raw ++ a = x ∧ b ++ qs.flatMap raw = v := by
  induction L generalizing x with
  | nil =>
    obtain ⟨rfl, rfl⟩ := List.append_eq_nil_iff.1 h.symm
    exact .inl ⟨[], [], rfl, rfl, rfl⟩
  | cons p L ih =>
    rw [List.flatMap_cons] at h
    rcases List.append_eq_append_iff.1 h with ⟨x', rfl, hrest⟩ | ⟨b, hp, hv⟩
    · -- the first piece lies in `x`
      rcases ih hrest with ⟨ps, qs, rfl, rfl, hqs⟩ | ⟨ps, s, qs, a, b, rfl, hs, ha, hb, rfl, hv⟩
      · exact .inl ⟨p :: ps, qs, rfl, rfl, hqs⟩
      · exact .inr ⟨p :: ps, s, qs, a, b, rfl, hs, ha, hb, by simp, hv⟩
    · by_cases hx : x = []
      · subst hx
        refine .inl ⟨[], p :: L, rfl, rfl, ?_⟩
        rw [List.flatMap_cons, hp, hv]
        rfl
      by_cases hb : b = []
      · subst hb
        exact .inl ⟨[p], L, rfl, by simpa using hp, hv.symm⟩
      cases p with
      | plain c =>
        -- a single character lies on one side
        exfalso
        have hlen := congrArg List.length hp
        have hxpos := List.length_pos_iff.2 hx
        have hbpos := List.length_pos_iff.2 hb
        simp only [raw, List.length_append, List.length_singleton] at hlen
        omega
      | tag s => exact .inr ⟨[], s, L, x, b, rfl, hp, hx, hb, rfl, hv.symm⟩

end Piece

/-! ## Section 2: Reading one tag -/

namespace Grammar

variable {g : Grammar}

/-- Only one head fits at the beginning of a text. -/
theorem eq_of_mem_heads {marked marked' : Bool} {head head' inner inner' : List Char}
    (h : (marked, head) ∈ g.heads) (h' : (marked', head') ∈ g.heads)
    (hs : head ++ inner = head' ++ inner') :
    marked = marked' ∧ head = head' ∧ inner = inner' := by
  obtain ⟨joined, rfl⟩ := mem_heads_iff.1 h
  obtain ⟨joined', rfl⟩ := mem_heads_iff.1 h'
  have hnot : ∀ joined marked : Bool, g.separator ∉
      (if joined then [joiner] else []) ++ if marked then [g.boundary] else [] := by
    have hj := g.marks_ne_joiner.2.1
    have hb := g.marks_ne.1.symm
    intro joined marked
    cases joined <;> cases marked <;> simp [hj, hb]
  -- behind the opener, the first separator ends the head
  obtain ⟨hhead, rfl⟩ := split_at_first_inj (hnot joined' marked') (hnot joined marked)
    (by simpa [headText] using hs)
  obtain ⟨rfl, rfl⟩ := headText_inj (congrArg (g.opener ++ ·) hhead)
  exact ⟨rfl, rfl, rfl⟩

/-- A search in which every success is the same finds what one of its choices gives. -/
theorem findSome?_eq_of_mem {α β : Type*} {f : α → Option β} {l : List α} {x : Option β} {a : α}
    (ha : a ∈ l) (hx : f a = x) (hall : ∀ b ∈ l, f b = none ∨ f b = x) : l.findSome? f = x := by
  cases x with
  | none =>
    rw [List.findSome?_eq_none_iff]
    exact fun b hb => (hall b hb).elim id id
  | some y =>
    obtain ⟨z, hz⟩ : ∃ z, l.findSome? f = some z := by
      rw [← Option.isSome_iff_exists, List.findSome?_isSome_iff]
      exact ⟨a, ha, by simp [hx]⟩
    obtain ⟨b, hb, hbz⟩ := List.exists_of_findSome?_eq_some hz
    rcases hall b hb with h | h
    · rw [h] at hbz
      cases hbz
    · rw [hz, ← hbz, h]

/-- The search through the heads goes on behind the one that fits. -/
theorem findSome?_heads {α : Type} {marked : Bool} {head inner : List Char}
    (h : (marked, head) ∈ g.heads) (F : Bool → List Char → List Char → Option α) :
    g.heads.findSome? (fun (marked, head') => (after? head' (head ++ inner)).bind (F marked head')) =
      F marked head inner := by
  refine findSome?_eq_of_mem h (by simp) fun ⟨marked', head'⟩ h' => ?_
  simp only
  cases hafter : after? head' (head ++ inner) with
  | none => exact .inl rfl
  | some inner' =>
    obtain ⟨rfl, rfl, rfl⟩ := eq_of_mem_heads h h' (after?_eq_some_iff.1 hafter)
    exact .inr rfl

/-- The tag whose identifier was read, by what follows the identifier. -/
def closed? (g : Grammar) (startMark : Bool) (head identifier outer : List Char) :
    Option Sighting :=
  g.tails.findSome? fun (endMark, cleanup, tail) => (after? tail outer).map fun _ =>
    { identifier, startMark, endMark, cleanup, raw := head ++ identifier ++ tail }

theorem exists_of_closed? {startMark : Bool} {head identifier outer : List Char} {t : Sighting}
    (h : g.closed? startMark head identifier outer = some t) :
    t.identifier = identifier ∧ ∃ tail ∈ g.tails, ∃ v, outer = tail.2.2 ++ v ∧
      t.raw = head ++ identifier ++ tail.2.2 := by
  obtain ⟨⟨endMark, cleanup, tail⟩, htail, h⟩ := List.exists_of_findSome?_eq_some h
  obtain ⟨v, hv, rfl⟩ := Option.map_eq_some_iff.1 h
  exact ⟨rfl, _, htail, v, after?_eq_some_iff.1 hv, rfl⟩

theorem exists_cons_of_mem_tails {tail : Bool × Bool × List Char} (h : tail ∈ g.tails) :
    ∃ v, tail.2.2 = g.separator :: v := by
  obtain ⟨endMark, cleanup, tail⟩ := tail
  exact ⟨_, mem_tails_iff.1 h⟩

/-- Reading a tag behind a head. -/
theorem sighting?_head_append {startMark : Bool} {head inner : List Char}
    (h : (startMark, head) ∈ g.heads)
    (identifier? : List Char → Option (List Char × List Char)) :
    g.sighting? identifier? (head ++ inner) = (identifier? inner).bind fun (identifier, outer) =>
      g.closed? startMark head identifier outer := by
  rw [← findSome?_heads h fun startMark head inner => (identifier? inner).bind
    fun (identifier, outer) => g.closed? startMark head identifier outer]
  simp only [sighting?, closed?, Option.map_eq_bind, Option.bind_eq_bind]
  rfl

theorem after?_eq_none_of_length_lt {p s : List Char} (h : s.length < p.length) :
    after? p s = none := by
  rw [Option.eq_none_iff_forall_ne_some]
  intro r hr
  have hlen := congrArg List.length (after?_eq_some_iff.1 hr)
  rw [List.length_append] at hlen
  omega

/-- Where a text ends with a tail, no other tail is read: those that are tried before are
    longer, or end in another mark. -/
theorem closed?_tailText (startMark : Bool) (head identifier : List Char)
    (endMark cleanup : Bool) :
    g.closed? startMark head identifier (g.separator :: g.tailText endMark cleanup) =
      some ⟨identifier, startMark, endMark, cleanup,
        head ++ identifier ++ g.separator :: g.tailText endMark cleanup⟩ := by
  have hbc := g.marks_ne.2.1
  have hself : after? g.closer g.closer = some [] := after?_eq_some_iff.2 (by simp)
  have hlong : after? (g.boundary :: g.cleanup :: g.closer) g.closer = none := by
    apply after?_eq_none_of_length_lt
    simp only [List.length_cons]
    omega
  cases endMark <;> cases cleanup <;>
    simp [closed?, tails, tailText, after?, hbc, hself, hlong, after?_eq_none_of_length_lt]

theorem eq_append_of_anyIdentifier? {s identifier outer : List Char}
    (h : g.anyIdentifier? s = some (identifier, outer)) : s = identifier ++ outer := by
  unfold anyIdentifier? at h
  split at h
  · cases h
  · obtain ⟨rfl, rfl⟩ := Prod.mk.inj (Option.some.inj h)
    exact List.takeWhile_append_dropWhile.symm

/-- The text of a tag alone is read as this tag. -/
theorem sighting?_render {t : Tag} (ht : g.Names t.identifier) :
    g.sighting? g.anyIdentifier? (t.render g) = some (.ofTag g t) := by
  have hhead : (t.role.opensRange, g.headText true t.role.opensRange ++ [g.separator]) ∈
      g.heads := mem_heads_iff.2 ⟨true, rfl⟩
  have hrender : t.render g = (g.headText true t.role.opensRange ++ [g.separator]) ++
      (t.identifier ++ g.separator :: g.tailText t.role.closesRange t.cleanup) := by
    simp [Tag.render_eq]
  rw [hrender, sighting?_head_append hhead, anyIdentifier?_append ht]
  refine (closed?_tailText _ _ _ _ _).trans ?_
  simp [Sighting.ofTag, Tag.render_eq]

/-! ## Section 3: Cutting at the tags of a grammar -/

/-- Tags are read at the beginning of a text if their identifiers are, and are not empty. -/
theorem finds_sighting?_of_reads {identifier? : List Char → Option (List Char × List Char)}
    (hread : ∀ s i v, identifier? s = some (i, v) → s = i ++ v) :
    Piece.Finds (g.sighting? identifier?) := by
  intro s t h
  obtain ⟨joined, inner, rest, rfl, hid, hraw⟩ := sightedAt_of_sighting? h
  rw [hraw]
  refine ⟨by simp, rest, ?_⟩
  rw [hread _ _ _ hid]
  simp

theorem finds_sighting? (g : Grammar) : Piece.Finds (g.sighting? g.anyIdentifier?) :=
  finds_sighting?_of_reads fun _ _ _ h => eq_append_of_anyIdentifier? h

theorem finds_sighting?_exactly (g : Grammar) (identifier : List Char) :
    Piece.Finds (g.sighting? (exactIdentifier? identifier)) := by
  apply finds_sighting?_of_reads
  intro s i v h
  obtain ⟨rfl, rfl⟩ := exactIdentifier?_eq_some h
  rfl

/-- The pieces of a line make up the line. -/
theorem flatMap_raw_pieces (g : Grammar) (line : List Char) :
    (g.pieces line).flatMap Piece.raw = line :=
  Piece.flatMap_raw_cut g.finds_sighting? line

end Grammar

end Marginalia
