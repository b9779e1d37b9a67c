import Marginalia.Proofs.Decoding
import Marginalia.Proofs.OpenComments

/-! # Reading a text forwards

    Programs that read a file skip its comments from left to right: outside of a comment
    the next opener counts, inside of one the next closer. Tags are placed by a search
    that goes backwards from the last opener.

    * **`Grammar.scan`**: what is left of a text without its comments.
    * **`Grammar.Scanned`**: the steps of that, for proofs by induction.
    * **`Grammar.scan_snd_eq_openAfter`**: where delimiters do not overlap, both ways of
      reading agree on whether a comment is open.
    * **`Grammar.scan_append_renderAll`**: tags behind the end of all comments are
      comments, so that nothing is left of them. -/

namespace Marginalia

open Text

namespace Grammar

variable {g : Grammar}

/-! ## Section 1: Reading step by step -/

/-- Reads a text from left to right: the characters outside of comments, and whether a
    comment is open at the end. The first `skip` characters belong to a delimiter. -/
def scan (g : Grammar) : Nat → Bool → List Char → List Char × Bool
  | _, inside, [] => ([], inside)
  | skip + 1, inside, _ :: s => g.scan skip inside s
  | 0, false, c :: s =>
    if g.opener.isPrefixOf (c :: s) then g.scan (g.opener.length - 1) true s
    else (c :: (g.scan 0 false s).1, (g.scan 0 false s).2)
  | 0, true, c :: s =>
    if g.closer.isPrefixOf (c :: s) then g.scan (g.closer.length - 1) false s
    else g.scan 0 true s

/-- Reading a text leaves the characters `code`, from a state to a state: whether a
    comment is open at the beginning, and whether one is at the end. -/
inductive Scanned (g : Grammar) : Bool → List Char → List Char → Bool → Prop where
  | nil (b : Bool) : Scanned g b [] [] b
  | opened {s code : List Char} {e : Bool} (rest : Scanned g true s code e) :
      Scanned g false (g.opener ++ s) code e
  | code {c : Char} {s code : List Char} {e : Bool} (no : ¬ g.opener <+: c :: s)
      (rest : Scanned g false s code e) : Scanned g false (c :: s) (c :: code) e
  | closed {s code : List Char} {e : Bool} (rest : Scanned g false s code e) :
      Scanned g true (g.closer ++ s) code e
  | comment {c : Char} {s code : List Char} {e : Bool} (no : ¬ g.closer <+: c :: s)
      (rest : Scanned g true s code e) : Scanned g true (c :: s) code e

theorem scan_append_of_length (p s : List Char) (b : Bool) :
    g.scan p.length b (p ++ s) = g.scan 0 b s := by
  induction p with
  | nil => rfl
  | cons c p ih =>
    rw [List.length_cons, List.cons_append, scan]
    exact ih

theorem scan_opener_append (s : List Char) :
    g.scan 0 false (g.opener ++ s) = g.scan 0 true s := by
  obtain ⟨c, p, hp⟩ := List.exists_cons_of_ne_nil g.opener_ne_nil
  have hprefix : g.opener.isPrefixOf (c :: (p ++ s)) = true := by
    simp [hp]
  have hlen : g.opener.length - 1 = p.length := by
    simp [hp]
  rw [hp, List.cons_append, scan, if_pos hprefix, hlen, scan_append_of_length]

theorem scan_closer_append (s : List Char) :
    g.scan 0 true (g.closer ++ s) = g.scan 0 false s := by
  obtain ⟨c, p, hp⟩ := List.exists_cons_of_ne_nil g.closer_ne_nil
  have hprefix : g.closer.isPrefixOf (c :: (p ++ s)) = true := by
    simp [hp]
  have hlen : g.closer.length - 1 = p.length := by
    simp [hp]
  rw [hp, List.cons_append, scan, if_pos hprefix, hlen, scan_append_of_length]

theorem Scanned.scan_eq {b e : Bool} {s code : List Char} (h : g.Scanned b s code e) :
    g.scan 0 b s = (code, e) := by
  induction h with
  | nil b => cases b <;> rfl
  | opened _ ih => rw [scan_opener_append, ih]
  | code no _ ih => rw [scan, if_neg (by simpa using no), ih]
  | closed _ ih => rw [scan_closer_append, ih]
  | comment no _ ih => rw [scan, if_neg (by simpa using no), ih]

/-- Every text can be read. -/
theorem exists_scanned (g : Grammar) (b : Bool) (s : List Char) :
    ∃ code e, g.Scanned b s code e := by
  -- a delimiter takes several characters at once, so the induction is on the length
  induction hlen : s.length using Nat.strongRecOn generalizing b s with
  | _ len ih =>
    subst hlen
    cases s with
    | nil => exact ⟨[], b, .nil b⟩
    | cons c s =>
      have hnext := fun b => ih s.length (by simp) b s rfl
      cases b with
      | false =>
        by_cases ho : g.opener <+: c :: s
        · obtain ⟨v, hv⟩ := ho
          have hpos := List.length_pos_iff.2 g.opener_ne_nil
          have hlt : v.length < (c :: s).length := by
            rw [← hv, List.length_append]
            omega
          obtain ⟨code, e, h⟩ := ih v.length hlt true v rfl
          exact ⟨code, e, hv ▸ .opened h⟩
        · obtain ⟨code, e, h⟩ := hnext false
          exact ⟨c :: code, e, .code ho h⟩
      | true =>
        by_cases hc : g.closer <+: c :: s
        · obtain ⟨v, hv⟩ := hc
          have hpos := List.length_pos_iff.2 g.closer_ne_nil
          have hlt : v.length < (c :: s).length := by
            rw [← hv, List.length_append]
            omega
          obtain ⟨code, e, h⟩ := ih v.length hlt false v rfl
          exact ⟨code, e, hv ▸ .closed h⟩
        · obtain ⟨code, e, h⟩ := hnext true
          exact ⟨code, e, .comment hc h⟩

theorem scanned_scan (g : Grammar) (b : Bool) (s : List Char) :
    g.Scanned b s (g.scan 0 b s).1 (g.scan 0 b s).2 := by
  obtain ⟨code, e, h⟩ := g.exists_scanned b s
  rw [h.scan_eq]
  exact h

/-! ## Section 2: Both ways of reading -/

/-- No opener of the text overlaps a closer. -/
def Apart (g : Grammar) (s : List Char) : Prop :=
  ∀ i < s.length, ∀ j < s.length, g.opener <+: s.drop i → g.closer <+: s.drop j →
    i + g.opener.length ≤ j ∨ j + g.closer.length ≤ i

instance (g : Grammar) (s : List Char) : Decidable (g.Apart s) :=
  inferInstanceAs (Decidable (∀ i < s.length, ∀ j < s.length, g.opener <+: s.drop i →
    g.closer <+: s.drop j → i + g.opener.length ≤ j ∨ j + g.closer.length ≤ i))

theorem lt_length_of_isPrefix_drop {p s : List Char} {i : Nat} (hp : p ≠ [])
    (h : p <+: s.drop i) : i < s.length := by
  have hlen := h.length_le
  have hpos := List.length_pos_iff.2 hp
  rw [List.length_drop] at hlen
  omega

theorem Apart.disjoint {s : List Char} (h : g.Apart s) {i j : Nat} (hi : g.opener <+: s.drop i)
    (hj : g.closer <+: s.drop j) : i + g.opener.length ≤ j ∨ j + g.closer.length ≤ i :=
  h i (lt_length_of_isPrefix_drop g.opener_ne_nil hi) j
    (lt_length_of_isPrefix_drop g.closer_ne_nil hj) hi hj

theorem Apart.of_append {u s : List Char} (h : g.Apart (u ++ s)) : g.Apart s := by
  intro i _ j _ hi hj
  have hi' : g.opener <+: (u ++ s).drop (u.length + i) := by
    rwa [List.drop_length_add_append]
  have hj' : g.closer <+: (u ++ s).drop (u.length + j) := by
    rwa [List.drop_length_add_append]
  rcases h.disjoint hi' hj' with hd | hd
  · left
    omega
  · right
    omega

/-- A comment is open at the end of a text: it holds an opener below all its closers, or
    one was open before and it holds no closer. -/
def LeavesOpen (g : Grammar) (before : Bool) (s : List Char) : Prop :=
  (∃ i, g.opener <+: s.drop i ∧ ∀ j, g.closer <+: s.drop j → j < i) ∨
    (before = true ∧ ∀ j, ¬ g.closer <+: s.drop j)

theorem not_isPrefix_drop_nil {p : List Char} (hp : p ≠ []) (i : Nat) :
    ¬ p <+: ([] : List Char).drop i := by
  intro h
  rw [List.drop_nil, List.prefix_nil] at h
  exact hp h

theorem leavesOpen_nil {b : Bool} : g.LeavesOpen b [] ↔ b = true := by
  constructor
  · intro hopen
    rcases hopen with ⟨i, hi, -⟩ | ⟨hb, -⟩
    · exact absurd hi (not_isPrefix_drop_nil g.opener_ne_nil i)
    · exact hb
  · intro hb
    exact .inr ⟨hb, not_isPrefix_drop_nil g.closer_ne_nil⟩

/-- A place behind the first of two texts is a place in the other. -/
theorem exists_drop_append {u s : List Char} {i : Nat} (h : u.length ≤ i) :
    ∃ k, i = u.length + k ∧ (u ++ s).drop i = s.drop k := by
  obtain ⟨k, rfl⟩ := Nat.exists_eq_add_of_le h
  exact ⟨k, rfl, List.drop_length_add_append k⟩

/-- An opener leaves a comment open that the rest of the text may close. -/
theorem leavesOpen_opener_append {b : Bool} {s : List Char} (ha : g.Apart (g.opener ++ s)) :
    g.LeavesOpen b (g.opener ++ s) ↔ g.LeavesOpen true s := by
  have hfirst : g.opener <+: (g.opener ++ s).drop 0 := List.prefix_append _ _
  -- no closer begins inside of the opener
  have hshift : ∀ j, g.closer <+: (g.opener ++ s).drop j →
      ∃ k, j = g.opener.length + k ∧ g.closer <+: s.drop k := by
    intro j hj
    have hpos := List.length_pos_iff.2 g.closer_ne_nil
    rcases ha.disjoint hfirst hj with hd | hd
    · obtain ⟨k, rfl, hk⟩ := exists_drop_append (u := g.opener) (s := s) (i := j) (by omega)
      exact ⟨k, rfl, hk ▸ hj⟩
    · omega
  constructor
  · intro hopen
    rcases hopen with ⟨i, hi, hlast⟩ | ⟨-, hno⟩
    · by_cases hlt : i < g.opener.length
      · -- the first opener is below all closers, so the rest holds none
        refine .inr ⟨rfl, ?_⟩
        intro k hk
        have := hlast (g.opener.length + k) (by rwa [List.drop_length_add_append])
        omega
      · obtain ⟨k, rfl, hk⟩ := exists_drop_append (u := g.opener) (s := s) (Nat.le_of_not_lt hlt)
        refine .inl ⟨k, hk ▸ hi, ?_⟩
        intro j hj
        have := hlast (g.opener.length + j) (by rwa [List.drop_length_add_append])
        omega
    · refine .inr ⟨rfl, ?_⟩
      intro k hk
      exact hno (g.opener.length + k) (by rwa [List.drop_length_add_append])
  · intro hopen
    rcases hopen with ⟨i, hi, hlast⟩ | ⟨-, hno⟩
    · refine .inl ⟨g.opener.length + i, by rwa [List.drop_length_add_append], ?_⟩
      intro j hj
      obtain ⟨k, rfl, hk⟩ := hshift j hj
      have := hlast k hk
      omega
    · refine .inl ⟨0, hfirst, ?_⟩
      intro j hj
      obtain ⟨k, -, hk⟩ := hshift j hj
      exact absurd hk (hno k)

/-- A closer leaves no comment open, unless the rest of the text opens one. -/
theorem leavesOpen_closer_append {b : Bool} {s : List Char} (ha : g.Apart (g.closer ++ s)) :
    g.LeavesOpen b (g.closer ++ s) ↔ g.LeavesOpen false s := by
  have hfirst : g.closer <+: (g.closer ++ s).drop 0 := List.prefix_append _ _
  constructor
  · intro hopen
    rcases hopen with ⟨i, hi, hlast⟩ | ⟨-, hno⟩
    · have hpos := hlast 0 hfirst
      rcases ha.disjoint hi hfirst with hd | hd
      · omega
      · obtain ⟨k, rfl, hk⟩ := exists_drop_append (u := g.closer) (s := s) (i := i) (by omega)
        refine .inl ⟨k, hk ▸ hi, ?_⟩
        intro j hj
        have := hlast (g.closer.length + j) (by rwa [List.drop_length_add_append])
        omega
    · exact absurd hfirst (hno 0)
  · intro hopen
    rcases hopen with ⟨i, hi, hlast⟩ | ⟨hb, -⟩
    · have hlen := List.length_pos_iff.2 g.closer_ne_nil
      refine .inl ⟨g.closer.length + i, by rwa [List.drop_length_add_append], ?_⟩
      intro j hj
      by_cases hlt : j < g.closer.length
      · omega
      · obtain ⟨k, rfl, hk⟩ := exists_drop_append (u := g.closer) (s := s) (Nat.le_of_not_lt hlt)
        have := hlast k (hk ▸ hj)
        omega
    · exact absurd hb (by decide)

/-- A character of the code changes nothing. -/
theorem leavesOpen_cons_of_not_opener {c : Char} {s : List Char} (h : ¬ g.opener <+: c :: s) :
    g.LeavesOpen false (c :: s) ↔ g.LeavesOpen false s := by
  constructor
  · intro hopen
    rcases hopen with ⟨i, hi, hlast⟩ | ⟨hb, -⟩
    · cases i with
      | zero => exact absurd hi h
      | succ i =>
        refine .inl ⟨i, hi, ?_⟩
        intro j hj
        have := hlast (j + 1) hj
        omega
    · exact absurd hb (by decide)
  · intro hopen
    rcases hopen with ⟨i, hi, hlast⟩ | ⟨hb, -⟩
    · refine .inl ⟨i + 1, hi, ?_⟩
      intro j hj
      cases j with
      | zero => omega
      | succ j =>
        have := hlast j hj
        omega
    · exact absurd hb (by decide)

/-- A character of a comment changes nothing. -/
theorem leavesOpen_cons_of_not_closer {c : Char} {s : List Char} (h : ¬ g.closer <+: c :: s) :
    g.LeavesOpen true (c :: s) ↔ g.LeavesOpen true s := by
  constructor
  · intro hopen
    rcases hopen with ⟨i, hi, hlast⟩ | ⟨-, hno⟩
    · cases i with
      | zero =>
        -- the comment began before this opener, and no closer follows
        refine .inr ⟨rfl, ?_⟩
        intro j hj
        have := hlast (j + 1) hj
        omega
      | succ i =>
        refine .inl ⟨i, hi, ?_⟩
        intro j hj
        have := hlast (j + 1) hj
        omega
    · exact .inr ⟨rfl, fun j hj => hno (j + 1) hj⟩
  · intro hopen
    rcases hopen with ⟨i, hi, hlast⟩ | ⟨-, hno⟩
    · refine .inl ⟨i + 1, hi, ?_⟩
      intro j hj
      cases j with
      | zero => omega
      | succ j =>
        have := hlast j hj
        omega
    · refine .inr ⟨rfl, ?_⟩
      intro j hj
      cases j with
      | zero => exact h hj
      | succ j => exact hno j hj

/-- What reading forwards says about the end of a text. -/
theorem Scanned.eq_true_iff {b e : Bool} {s code : List Char} (h : g.Scanned b s code e)
    (ha : g.Apart s) : e = true ↔ g.LeavesOpen b s := by
  induction h with
  | nil b => exact leavesOpen_nil.symm
  | opened _ ih => rw [ih ha.of_append, leavesOpen_opener_append ha]
  | @code c s _ _ no _ ih =>
    rw [ih (Apart.of_append (u := [c]) ha), leavesOpen_cons_of_not_opener no]
  | closed _ ih => rw [ih ha.of_append, leavesOpen_closer_append ha]
  | @comment c s _ _ no _ ih =>
    rw [ih (Apart.of_append (u := [c]) ha), leavesOpen_cons_of_not_closer no]

theorem occursIn_iff_exists_drop {p s : List Char} :
    occursIn p s = true ↔ ∃ i, p <+: s.drop i := by
  rw [occursIn_iff, List.infix_iff_prefix_suffix]
  constructor
  · intro hex
    obtain ⟨t, hp, ht⟩ := hex
    rw [List.suffix_iff_eq_drop] at ht
    exact ⟨_, ht ▸ hp⟩
  · intro hex
    obtain ⟨i, hp⟩ := hex
    exact ⟨_, hp, List.drop_suffix i s⟩

/-- Where the last place is at which a text occurs. -/
theorem afterLast?_eq_some {p s rest : List Char} (hp : p ≠ [])
    (h : afterLast? p s = some rest) : ∃ i, s.drop i = p ++ rest ∧ ∀ j, p <+: s.drop j → j ≤ i := by
  induction s with
  | nil =>
    have hnil := after?_eq_some_iff.1 h
    exact absurd (List.append_eq_nil_iff.1 hnil.symm).1 hp
  | cons c s ih =>
    unfold afterLast? at h
    split at h
    · next r hr =>
      obtain rfl := Option.some.inj h
      obtain ⟨i, hi, hlast⟩ := ih hr
      refine ⟨i + 1, hi, ?_⟩
      intro j hj
      cases j with
      | zero => omega
      | succ j =>
        have := hlast j hj
        omega
    · next hnone =>
      refine ⟨0, after?_eq_some_iff.1 h, ?_⟩
      intro j hj
      cases j with
      | zero => omega
      | succ j =>
        have hoccurs := occursIn_iff_exists_drop.2 ⟨j, hj⟩
        rw [afterLast?_eq_none_iff.1 hnone] at hoccurs
        exact absurd hoccurs (by decide)

theorem isSuffix_of_afterLast? {p s rest : List Char} (h : afterLast? p s = some rest) :
    rest <:+ s := by
  induction s with
  | nil => exact ⟨p, (after?_eq_some_iff.1 h).symm⟩
  | cons c s ih =>
    unfold afterLast? at h
    split at h
    · next r hr =>
      obtain rfl := Option.some.inj h
      exact (ih hr).trans (List.suffix_cons c s)
    · exact ⟨p, (after?_eq_some_iff.1 h).symm⟩

/-- Lines without closers close no comment. -/
theorem openAfterAll_true {ts : List (List Char)}
    (h : ts.any (occursIn g.closer) = false) : g.openAfterAll true ts = true := by
  induction ts with
  | nil => rfl
  | cons t ts ih =>
    rw [List.any_cons, Bool.or_eq_false_iff] at h
    have hstep : g.openAfter true t = true := by
      unfold openAfter
      split
      · next rest hrest =>
        rw [Bool.not_eq_true', ← Bool.not_eq_true, occursIn_iff]
        intro hoccurs
        have hin := hoccurs.trans (isSuffix_of_afterLast? hrest).isInfix
        rw [← occursIn_iff, h.1] at hin
        exact absurd hin (by decide)
      · rw [h.1]
        rfl
    rw [openAfterAll_cons, hstep]
    exact ih h.2

/-- What searching backwards says about the end of a text. -/
theorem openAfter_eq_true_iff {b : Bool} {s : List Char} (ha : g.Apart s) :
    g.openAfter b s = true ↔ g.LeavesOpen b s := by
  unfold openAfter
  split
  · next rest hrest =>
    obtain ⟨p, hp, hlast⟩ := afterLast?_eq_some g.opener_ne_nil hrest
    have hopener : g.opener <+: s.drop p := ⟨rest, hp.symm⟩
    have hrest' : ∀ k, s.drop (p + g.opener.length + k) = rest.drop k := by
      intro k
      rw [Nat.add_assoc, ← List.drop_drop, hp, List.drop_length_add_append]
    rw [Bool.not_eq_true', ← Bool.not_eq_true, occursIn_iff_exists_drop]
    constructor
    · intro hno
      refine .inl ⟨p, hopener, ?_⟩
      intro j hj
      have hpos := List.length_pos_iff.2 g.closer_ne_nil
      rcases ha.disjoint hopener hj with hd | hd
      · obtain ⟨k, rfl⟩ : ∃ k, j = p + g.opener.length + k :=
          ⟨j - (p + g.opener.length), by omega⟩
        rw [hrest'] at hj
        exact absurd ⟨k, hj⟩ hno
      · omega
    · intro hopen hoccurs
      obtain ⟨k, hk⟩ := hoccurs
      rcases hopen with ⟨i, hi, hbelow⟩ | ⟨-, hno⟩
      · -- the last opener is below any other one
        have hle := hlast i hi
        have := hbelow (p + g.opener.length + k) (by rwa [hrest'])
        omega
      · exact hno (p + g.opener.length + k) (by rwa [hrest'])
  · next hnone =>
    -- only what was open before can still be
    have hno : ∀ i, ¬ g.opener <+: s.drop i := by
      intro i hi
      have hoccurs := occursIn_iff_exists_drop.2 ⟨i, hi⟩
      rw [afterLast?_eq_none_iff.1 hnone] at hoccurs
      exact absurd hoccurs (by decide)
    rw [Bool.and_eq_true, Bool.not_eq_true', ← Bool.not_eq_true, occursIn_iff_exists_drop,
      not_exists]
    constructor
    · intro h
      exact .inr h
    · intro hopen
      rcases hopen with ⟨i, hi, -⟩ | h
      · exact absurd hi (hno i)
      · exact h

/-- Where no opener overlaps a closer, both ways of reading agree on whether a comment is
    open at the end. -/
theorem scan_snd_eq_openAfter {b : Bool} {s : List Char} (ha : g.Apart s) :
    (g.scan 0 b s).2 = g.openAfter b s := by
  rw [Bool.eq_iff_iff, (g.scanned_scan b s).eq_true_iff ha, openAfter_eq_true_iff ha]

/-! ## Section 3: Tags are comments -/

/-- No proper end of a text is a beginning of it. -/
def Unbordered (p : List Char) : Prop :=
  ∀ i < p.length, 0 < i → ¬ p.drop i <+: p

instance (p : List Char) : Decidable (Unbordered p) :=
  inferInstanceAs (Decidable (∀ i < p.length, 0 < i → ¬ p.drop i <+: p))

/-- Read forwards, each tag of the grammar is one comment: its opener cannot begin in what
    stands before it, and the joiner closes nothing. -/
structure Plain (g : Grammar) : Prop where
  unmarked   : g.Unmarked
  unbordered : Unbordered g.opener
  joined     : g.closer ≠ [joiner]

instance (g : Grammar) : Decidable g.Plain :=
  decidable_of_iff (g.Unmarked ∧ Unbordered g.opener ∧ g.closer ≠ [joiner])
    ⟨fun ⟨h₁, h₂, h₃⟩ => ⟨h₁, h₂, h₃⟩, fun ⟨h₁, h₂, h₃⟩ => ⟨h₁, h₂, h₃⟩⟩

/-- A beginning without `x` ends before `x`. -/
theorem isPrefix_of_not_mem {α : Type*} {p u v : List α} {x : α} (hx : x ∉ p)
    (h : p <+: u ++ x :: v) : p <+: u := by
  rcases Nat.lt_or_ge u.length p.length with hlt | hle
  · have hlen : (u ++ [x]).length ≤ p.length := by
      simpa using Nat.succ_le_of_lt hlt
    have hux : u ++ [x] <+: p := List.prefix_of_prefix_length_le ⟨v, by simp⟩ h hlen
    exact absurd (hux.subset (by simp)) hx
  · exact List.prefix_of_prefix_length_le h (List.prefix_append _ _) hle

namespace Scanned

variable {b e : Bool} {s code : List Char}

/-- A mark inside of a comment is passed over, and so is a text before it without a
    closer. -/
theorem passed (hg : g.Unmarked) {u : List Char} {x : Char} (hx : g.isMark x = true)
    (hu : ¬ g.closer <:+: u) (h : g.Scanned true s code e) :
    g.Scanned true (u ++ x :: s) code e := by
  have hmem := hg.not_mem_closer hx
  induction u with
  | nil =>
    refine .comment ?_ h
    intro hp
    have hnil := isPrefix_of_not_mem (u := []) hmem hp
    exact g.closer_ne_nil (List.prefix_nil.1 hnil)
  | cons c u ih =>
    rw [List.infix_cons_iff, not_or] at hu
    refine .comment ?_ (ih hu.2)
    intro hp
    exact hu.1 (isPrefix_of_not_mem hmem hp)

theorem mark (hg : g.Unmarked) {x : Char} (hx : g.isMark x = true)
    (h : g.Scanned true s code e) : g.Scanned true (x :: s) code e := by
  have hnil : ¬ g.closer <:+: [] := by
    rw [List.infix_nil]
    exact g.closer_ne_nil
  exact passed (u := []) hg hx hnil h

/-- A tag outside of comments is a comment. -/
theorem render (hg : g.Plain) {t : Tag} (ht : g.Names t.identifier)
    (h : g.Scanned false s code e) : g.Scanned false (t.render g ++ s) code e := by
  have hjoiner : ¬ g.closer <:+: [joiner] := by
    intro h
    rcases List.infix_cons_iff.1 h with h | h
    · rcases List.prefix_cons_iff.1 h with h | ⟨v, hv, h⟩
      · exact g.closer_ne_nil h
      · obtain rfl := List.prefix_nil.1 h
        exact hg.joined hv
    · exact g.closer_ne_nil (List.infix_nil.1 h)
  have hsep := g.isMark_separator
  have hb := g.isMark_boundary
  have hc := g.isMark_cleanup
  -- backwards from the end of the tag
  have htail : g.Scanned true (g.tailText t.role.closesRange t.cleanup ++ s) code e := by
    unfold tailText
    cases t.role.closesRange <;> cases t.cleanup
    · simpa using h.closed
    · simpa using mark hg.unmarked hc h.closed
    · simpa using mark hg.unmarked hb h.closed
    · simpa using mark hg.unmarked hb (mark hg.unmarked hc h.closed)
  have hid : g.Scanned true (t.identifier ++
      g.separator :: (g.tailText t.role.closesRange t.cleanup ++ s)) code e :=
    passed hg.unmarked hsep ht.noCloser htail
  rw [Tag.render_append]
  unfold headText
  cases t.role.opensRange
  · simpa using (passed hg.unmarked hsep hjoiner hid).opened
  · simpa using (passed hg.unmarked hb hjoiner (mark hg.unmarked hsep hid)).opened

theorem renderAll (hg : g.Plain) {ts : List Tag} (ht : ∀ t ∈ ts, g.Names t.identifier) :
    g.Scanned false (Tag.renderAll g ts) [] false := by
  induction ts with
  | nil => exact .nil false
  | cons t ts ih =>
    rw [Tag.renderAll_cons]
    exact render hg (ht t List.mem_cons_self) (ih fun u hu => ht u (List.mem_cons_of_mem _ hu))

/-- Leaving a comment takes a closer. -/
theorem closer_length_le (h : g.Scanned b s code e) (hb : b = true) (he : e = false) :
    g.closer.length ≤ s.length := by
  induction h with
  | nil b =>
    rw [hb] at he
    exact absurd he (by decide)
  | opened _ _ => exact absurd hb (by decide)
  | code _ _ _ => exact absurd hb (by decide)
  | closed _ _ => simp
  | comment _ _ ih =>
    have hle := ih rfl he
    rw [List.length_cons]
    omega

/-- A text that ends outside of comments is read as it was, whatever follows, if no
    opener begins in it and ends in what follows. -/
theorem append {u code' : List Char} {e' : Bool} (h : g.Scanned b s code e) (he : e = false)
    (hseam : ∀ v, v <:+ s → v ≠ [] → g.opener <+: v ++ u → g.opener <+: v)
    (hu : g.Scanned false u code' e') : g.Scanned b (s ++ u) (code ++ code') e' := by
  induction h with
  | nil b =>
    rw [he]
    exact hu
  | opened _ ih =>
    rw [List.append_assoc]
    exact .opened (ih he fun v hv => hseam v (hv.trans (List.suffix_append _ _)))
  | code no _ ih =>
    refine .code ?_ (ih he fun v hv => hseam v (hv.trans (List.suffix_cons _ _)))
    intro hp
    exact no (hseam _ (List.suffix_refl _) (List.cons_ne_nil _ _) hp)
  | closed _ ih =>
    rw [List.append_assoc]
    exact .closed (ih he fun v hv => hseam v (hv.trans (List.suffix_append _ _)))
  | @comment c s _ _ no rest ih =>
    refine .comment ?_ (ih he fun v hv => hseam v (hv.trans (List.suffix_cons _ _)))
    -- the comment is left in `s`, so a closer fits in what comes before `u`
    intro hp
    have hle := rest.closer_length_le rfl he
    have hle' : g.closer.length ≤ (c :: s).length := by
      rw [List.length_cons]
      omega
    exact no (List.prefix_of_prefix_length_le hp (List.prefix_append (c :: s) u) hle')

end Scanned

theorem isPrefix_of_unbordered {p v w : List Char} (hp : Unbordered p) (hv : v ≠ [])
    (h : p <+: v ++ (p ++ w)) : p <+: v := by
  rcases Nat.lt_or_ge v.length p.length with hlt | hle
  · obtain ⟨q, rfl⟩ := List.prefix_of_prefix_length_le (List.prefix_append v _) h (by omega)
    rw [List.append_assoc, List.prefix_append_right_inj, ← List.append_assoc] at h
    have hq : q <+: v ++ q := List.prefix_of_prefix_length_le h (List.prefix_append _ w) (by simp)
    have hno := hp v.length hlt (List.length_pos_iff.2 hv)
    rw [List.drop_left] at hno
    exact absurd hq hno
  · exact List.prefix_of_prefix_length_le h (List.prefix_append v _) hle

/-- Nothing is left of tags behind a text that ends outside of comments. -/
theorem scan_append_renderAll (hg : g.Plain) {ts : List Tag}
    (ht : ∀ t ∈ ts, g.Names t.identifier) {b : Bool} {s : List Char}
    (hs : ts ≠ [] → (g.scan 0 b s).2 = false) :
    g.scan 0 b (s ++ Tag.renderAll g ts) = g.scan 0 b s := by
  cases ts with
  | nil => simp
  | cons t ts =>
    have hout := hs (List.cons_ne_nil t ts)
    obtain ⟨w, hw⟩ : ∃ w, Tag.renderAll g (t :: ts) = g.opener ++ w := by
      rw [Tag.renderAll_cons, Tag.render_append]
      unfold headText
      rw [List.append_assoc]
      exact ⟨_, rfl⟩
    have hseam : ∀ v, v <:+ s → v ≠ [] → g.opener <+: v ++ Tag.renderAll g (t :: ts) →
        g.opener <+: v := by
      intro v _ hv h
      rw [hw] at h
      exact isPrefix_of_unbordered hg.unbordered hv h
    have happend := (g.scanned_scan b s).append hout hseam (Scanned.renderAll hg ht)
    rw [happend.scan_eq, List.append_nil, ← hout]

end Grammar

end Marginalia
