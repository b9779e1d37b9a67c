import Mathlib.Data.List.Nodup
import Marginalia.Listing

/-! # Pairing the tags of one identifier

    The walk that pairs tags keeps the open tags of all identifiers on one stack, but only
    those of its own identifier matter to a tag:

    * **`Pairing.only`**: what a walk knows of one identifier.
    * **`Pairing.only_run`**: this is all that a walk over its tags alone would know, so
      what is true of such walks can be put together.
    * **`Marked`**: the tags of one range, where they are the only ones of its identifier.
    * **`Marks`**: every identifier has one such range or no tags at all.
    * **`Marks.listing`**: then these ranges are what is listed. -/

namespace Marginalia

/-! ## Section 1: One identifier at a time -/

theorem filter_eraseP_self {α : Type*} (p : α → Bool) (l : List α) :
    (l.eraseP p).filter p = (l.filter p).tail := by
  induction l with
  | nil => rfl
  | cons a l ih =>
    by_cases ha : p a
    · rw [List.eraseP_cons_of_pos ha, List.filter_cons_of_pos ha, List.tail_cons]
    · rw [List.eraseP_cons_of_neg ha, List.filter_cons_of_neg ha, List.filter_cons_of_neg ha, ih]

/-- To take out an element that is not kept anyway changes nothing. -/
theorem filter_eraseP_of_not {α : Type*} {p q : α → Bool} (h : ∀ a, p a → q a = false)
    (l : List α) : (l.eraseP p).filter q = l.filter q := by
  induction l with
  | nil => rfl
  | cons a l ih =>
    by_cases ha : p a
    · rw [List.eraseP_cons_of_pos ha, List.filter_cons_of_neg (by simp [h a ha])]
    · rw [List.eraseP_cons_of_neg ha, List.filter_cons, List.filter_cons, ih]

namespace Pairing

/-- What a walk knows of one identifier. -/
def only (identifier : List Char) (p : Pairing) : Pairing where
  ranges    := p.ranges.filter fun r => r.identifier = identifier
  strayEnds := p.strayEnds.filter fun o => o.tag.identifier = identifier
  pending   := p.pending.filter fun o => o.tag.identifier = identifier

variable {p : Pairing} {o : Occurrence} {identifier : List Char}

/-- The open tag that an end tag closes can be looked up among those of its own
    identifier. -/
theorem find?_filter_identifier (os : List Occurrence) :
    (os.filter fun s => s.tag.identifier = identifier).find?
        (fun s => s.tag.identifier = identifier) =
      os.find? fun s => s.tag.identifier = identifier := by
  rw [List.find?_filter]
  simp

theorem eraseP_filter_identifier (os : List Occurrence) :
    (os.filter fun s => s.tag.identifier = identifier).eraseP
        (fun s => s.tag.identifier = identifier) =
      (os.eraseP fun s => s.tag.identifier = identifier).filter
        fun s => s.tag.identifier = identifier := by
  rw [List.eraseP_filter]
  simp

/-- A tag counts for its own identifier. -/
theorem only_step_of_eq (h : o.tag.identifier = identifier) :
    (p.step o).only identifier = (p.only identifier).step o := by
  subst h
  unfold step
  cases hrole : o.tag.role with
  | single => simp [only]
  | start => simp [only]
  | finish =>
    simp only [only, find?_filter_identifier, eraseP_filter_identifier]
    cases hfind : p.pending.find? fun s => s.tag.identifier = o.tag.identifier with
    | none => simp
    | some s => simp

/-- A tag changes nothing for another identifier. -/
theorem only_step_of_ne (h : o.tag.identifier ≠ identifier) :
    (p.step o).only identifier = p.only identifier := by
  unfold step
  cases hrole : o.tag.role with
  | single => simp [only, h]
  | start => simp [only, h]
  | finish =>
    simp only
    cases hfind : p.pending.find? fun s => s.tag.identifier = o.tag.identifier with
    | none => simp [only, h]
    | some s =>
      -- the open tag that is closed has the other identifier too
      have herase := filter_eraseP_of_not (l := p.pending)
        (p := fun s => s.tag.identifier = o.tag.identifier)
        (q := fun s => s.tag.identifier = identifier) (by grind)
      simp [only, h, herase]

theorem only_foldl_step (p : Pairing) (os : List Occurrence) (identifier : List Char) :
    (os.foldl step p).only identifier =
      (os.filter fun o => o.tag.identifier = identifier).foldl step (p.only identifier) := by
  -- the state that the walk begins with is arbitrary, because every tag changes it
  induction os generalizing p with
  | nil => rfl
  | cons o os ih =>
    rw [List.foldl_cons, ih]
    by_cases ho : o.tag.identifier = identifier
    · rw [only_step_of_eq ho]
      simp [ho]
    · rw [only_step_of_ne ho]
      simp [ho]

/-- What a walk knows of an identifier is what a walk over its tags finds out. -/
theorem only_run (os : List Occurrence) (identifier : List Char) :
    (run os).only identifier = run (os.filter fun o => o.tag.identifier = identifier) :=
  only_foldl_step {} os identifier

end Pairing

/-! ## Section 2: One range for each identifier -/

/-- The tags are those of the one range, or there are none of either. -/
inductive Marked : List TaggedRange → List Occurrence → Prop where
  | none : Marked [] []
  /-- A single line with one tag. -/
  | single (identifier : List Char) (line : Nat) (cleanup : Bool) :
      Marked [⟨identifier, line, line⟩] [⟨⟨identifier, .single, cleanup⟩, line⟩]
  /-- Some lines with one tag at each end. -/
  | ends (identifier : List Char) (start stop : Nat) (cleanup : Bool) :
      Marked [⟨identifier, start, stop⟩]
        [⟨⟨identifier, .start, cleanup⟩, start⟩, ⟨⟨identifier, .finish, false⟩, stop⟩]

/-- Each identifier has the tags of one range, or neither a range nor a tag. -/
def Marks (rs : List TaggedRange) (os : List Occurrence) : Prop :=
  ∀ identifier, Marked (rs.filter fun r => r.identifier = identifier)
    (os.filter fun o => o.tag.identifier = identifier)

/-- Lists with the same elements for each key have the same elements. -/
theorem perm_of_filter_eq {α β : Type*} [DecidableEq α] [DecidableEq β] (key : α → β)
    {l l' : List α} (h : ∀ b, (l.filter fun a => key a = b) = l'.filter fun a => key a = b) :
    l.Perm l' := by
  rw [List.perm_iff_count]
  intro a
  have hcount : ∀ l : List α, (l.filter fun x => key x = key a).count a = l.count a :=
    fun l => List.count_filter (by simp)
  rw [← hcount l, ← hcount l', h]

namespace Marked

variable {rs : List TaggedRange} {os : List Occurrence}

/-- The walk over the tags of one range finds this range. -/
theorem run_eq (h : Marked rs os) : Pairing.run os = { ranges := rs } := by
  cases h with
  | none => rfl
  | single identifier line cleanup => rfl
  | ends identifier start stop cleanup => simp [Pairing.run, Pairing.step]

theorem length_le (h : Marked rs os) : rs.length ≤ 1 := by
  cases h <;> simp

theorem eq_nil_iff (h : Marked rs os) : rs = [] ↔ os = [] := by
  cases h <;> simp

end Marked

namespace Marks

variable {rs : List TaggedRange} {os : List Occurrence}

theorem only_run (h : Marks rs os) (identifier : List Char) :
    (Pairing.run os).only identifier =
      { ranges := rs.filter fun r => r.identifier = identifier } := by
  rw [Pairing.only_run]
  exact (h identifier).run_eq

theorem strayEnds_run (h : Marks rs os) : (Pairing.run os).strayEnds = [] := by
  rw [List.eq_nil_iff_forall_not_mem]
  intro o ho
  have honly : (Pairing.run os).strayEnds.filter
      (fun o' => o'.tag.identifier = o.tag.identifier) = [] :=
    congrArg Pairing.strayEnds (h.only_run o.tag.identifier)
  simpa using List.filter_eq_nil_iff.1 honly o ho

theorem pending_run (h : Marks rs os) : (Pairing.run os).pending = [] := by
  rw [List.eq_nil_iff_forall_not_mem]
  intro o ho
  have honly : (Pairing.run os).pending.filter
      (fun o' => o'.tag.identifier = o.tag.identifier) = [] :=
    congrArg Pairing.pending (h.only_run o.tag.identifier)
  simpa using List.filter_eq_nil_iff.1 honly o ho

theorem ranges_run (h : Marks rs os) : (Pairing.run os).ranges.Perm rs :=
  perm_of_filter_eq TaggedRange.identifier fun identifier =>
    congrArg Pairing.ranges (h.only_run identifier)

/-- The ranges are what is listed, and no tag is without a partner. -/
theorem listing (h : Marks rs os) (order : TableOrder) :
    ((Pairing.run os).listing order).dangling = [] ∧
      ((Pairing.run os).listing order).ranges.Perm rs := by
  constructor
  · unfold Pairing.listing Pairing.unclosed
    simp [h.strayEnds_run, h.pending_run]
  · exact (List.mergeSort_perm _ _).trans h.ranges_run

/-- No two ranges have the same identifier. -/
theorem nodup (h : Marks rs os) : (rs.map TaggedRange.identifier).Nodup := by
  rw [List.nodup_iff_count_le_one]
  intro identifier
  have hlen := (h identifier).length_le
  rw [← List.countP_eq_length_filter] at hlen
  rw [List.count, List.countP_map]
  refine Nat.le_trans (Nat.le_of_eq ?_) hlen
  apply List.countP_congr
  intro r _
  simp

end Marks

end Marginalia
