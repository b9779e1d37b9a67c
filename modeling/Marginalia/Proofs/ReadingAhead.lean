import Mathlib.Data.List.Basic
import Marginalia.Regex.Reader

/-! # Patterns with a text behind them

    A pattern can be read alone, or with a closing parenthesis and more behind it. This
    module shows that the parts of a pattern are read the same way in both cases:

    * **`Closes`**: what the text behind the pattern has to be like.
    * **`Onto`**: what is left to read in both cases. A comment at the end of a pattern
      takes the text behind it as well, so there are two ways to be related.
    * **`Frames`**: reading something in both cases.
    * **`frames_escape?`, `frames_counts?`, `flags?_append`, `name?_append`**: the parts of
      patterns, but for bracket expressions. -/

namespace Marginalia.Regex

open Text

/-! ## Section 1: Text behind a pattern -/

/-- The text `t` closes the group that a pattern stands in, and nothing in it can be taken
    for the end of a class name or of a comment. -/
structure Closes (t : List Char) : Prop where
  closes  : ∃ u, t = ')' :: u
  noClass : ¬ [':', ']'] <:+: t
  oneLine : '\n' ∉ t

/-- The text `s'` is `s` with `t` behind it, unless a comment at the end of `s` took `t` as
    well. -/
def Onto (t s s' : List Char) : Prop :=
  s' = s ++ t ∨ (s = [] ∧ s' = [])

/-- What is read without `t` is read with `t` behind it, and leaves the same. -/
def Frames {α : Type} (t : List Char) (f f' : Option (α × List Char)) : Prop :=
  ∀ x rest, f = some (x, rest) → ∃ rest', f' = some (x, rest') ∧ Onto t rest rest'

variable {t s s' : List Char} {m : Modes}

namespace Onto

theorem append (t s : List Char) : Onto t s (s ++ t) :=
  .inl rfl

theorem of_ne_nil (h : Onto t s s') (hs : s ≠ []) : s' = s ++ t :=
  h.resolve_right fun h => hs h.1

theorem cons {c : Char} (h : Onto t (c :: s) s') : s' = c :: (s ++ t) :=
  h.of_ne_nil (List.cons_ne_nil c s)

/-- Behind the pattern, the next character is the closing parenthesis. -/
theorem of_nil (ht : Closes t) (h : Onto t [] s') : s' = [] ∨ ∃ u, s' = ')' :: u := by
  obtain ⟨u, rfl⟩ := ht.closes
  rcases h with rfl | ⟨-, rfl⟩
  · exact .inr ⟨u, rfl⟩
  · exact .inl rfl

end Onto

namespace Frames

variable {α β : Type}

theorem none (f' : Option (α × List Char)) : Frames t .none f' :=
  fun _ _ h => nomatch h

theorem some (x : α) (h : Onto t s s') : Frames t (.some (x, s)) (.some (x, s')) := by
  rintro y rest hy
  obtain ⟨rfl, rfl⟩ := Prod.mk.inj (Option.some.inj hy)
  exact ⟨s', rfl, h⟩

theorem bind {f f' : Option (α × List Char)} {g g' : α × List Char → Option (β × List Char)}
    (h : Frames t f f')
    (hg : ∀ x rest rest', Onto t rest rest' → Frames t (g (x, rest)) (g' (x, rest'))) :
    Frames t (f.bind g) (f'.bind g') := by
  intro y rest hy
  obtain ⟨⟨x, u⟩, hx, hy⟩ := Option.bind_eq_some_iff.1 hy
  obtain ⟨u', hx', hu⟩ := h x u hx
  obtain ⟨rest', hy', hrest⟩ := hg x u u' hu y rest hy
  exact ⟨rest', by rw [hx']; exact hy', hrest⟩

theorem map {f f' : Option (α × List Char)} (h : Frames t f f') (k : α → β) :
    Frames t (f.map fun (x, rest) => (k x, rest)) (f'.map fun (x, rest) => (k x, rest)) := by
  rw [Option.map_eq_bind, Option.map_eq_bind]
  exact h.bind fun x rest rest' hrest => .some (k x) hrest

/-- A part that does not read. -/
theorem bind_option (o : Option α) {g g' : α → Option (β × List Char)}
    (hg : ∀ x, Frames t (g x) (g' x)) : Frames t (o.bind g) (o.bind g') := by
  cases o with
  | none => exact .none _
  | some x => exact hg x

theorem map_option (o : Option α) (k : α → β) (h : Onto t s s') :
    Frames t (o.map fun x => (k x, s)) (o.map fun x => (k x, s')) := by
  rw [Option.map_eq_bind, Option.map_eq_bind]
  exact .bind_option o fun x => .some (k x) h

end Frames

/-! ### White space -/

/-- A comment takes all of its line. -/
theorem dropBlank_of_not_mem (h : '\n' ∉ s) : dropBlank true s = [] := by
  induction s with
  | nil => rfl
  | cons c s ih =>
    rw [List.mem_cons, not_or] at h
    have hc : (c != '\n') = true := by simpa using Ne.symm h.1
    rw [dropBlank, hc]
    exact ih h.2

theorem dropBlank_onto (ht : Closes t) (comment : Bool) (s : List Char) :
    Onto t (dropBlank comment s) (dropBlank comment (s ++ t)) := by
  induction s generalizing comment with
  | nil =>
    obtain ⟨u, rfl⟩ := ht.closes
    cases comment with
    | false => exact .inl rfl
    | true =>
      -- a comment at the end of the pattern goes on through all of `t`
      exact .inr ⟨rfl, dropBlank_of_not_mem ht.oneLine⟩
  | cons c s ih =>
    cases comment with
    | true => exact ih _
    | false =>
      rw [List.cons_append, dropBlank, dropBlank]
      split
      · exact ih _
      · split
        · exact ih _
        · exact .inl rfl

theorem skipBlank_onto (ht : Closes t) (m : Modes) (s : List Char) :
    Onto t (m.skipBlank s) (m.skipBlank (s ++ t)) := by
  unfold Modes.skipBlank
  split
  · exact dropBlank_onto ht false s
  · exact .append t s

theorem Onto.skipBlank (ht : Closes t) (m : Modes) (h : Onto t s s') :
    Onto t (m.skipBlank s) (m.skipBlank s') := by
  rcases h with rfl | ⟨rfl, rfl⟩
  · exact skipBlank_onto ht m s
  · refine .inr ⟨?_, ?_⟩ <;> cases hm : m.verbose <;> simp [Modes.skipBlank, hm, dropBlank]

theorem length_dropBlank_le (comment : Bool) (s : List Char) :
    (dropBlank comment s).length ≤ s.length := by
  induction s generalizing comment with
  | nil => simp [dropBlank]
  | cons c s ih =>
    cases comment with
    | true => exact Nat.le_succ_of_le (ih _)
    | false =>
      rw [dropBlank]
      split_ifs
      · exact Nat.le_succ_of_le (ih _)
      · exact Nat.le_succ_of_le (ih _)
      · exact Nat.le_refl _

theorem length_skipBlank_le (m : Modes) (s : List Char) :
    (m.skipBlank s).length ≤ s.length := by
  unfold Modes.skipBlank
  split
  · exact length_dropBlank_le false s
  · exact Nat.le_refl _

theorem dropWhile_isBlank_append (ht : Closes t) (s : List Char) :
    (s ++ t).dropWhile isBlank = s.dropWhile isBlank ++ t := by
  obtain ⟨u, rfl⟩ := ht.closes
  induction s with
  | nil => rfl
  | cons c s ih =>
    rw [List.cons_append, List.dropWhile_cons, List.dropWhile_cons, ih]
    split <;> rfl

/-! ## Section 2: Escapes -/

theorem frames_hexDigits? (ht : Closes t) (m : Modes) (n value : Nat) (h : Onto t s s') :
    Frames t (hexDigits? m n value s) (hexDigits? m n value s') := by
  induction n generalizing value s s' with
  | zero => exact .some value h
  | succ n ih =>
    cases s with
    | nil => exact .none _
    | cons c s =>
      obtain rfl := h.cons
      exact .bind_option _ fun d => ih _ (skipBlank_onto ht m s)

/-- If something is left to read, then it is left with `t` behind it. -/
theorem skipBlank_append_of_cons (ht : Closes t) {c : Char} {u : List Char}
    (h : m.skipBlank s = c :: u) : m.skipBlank (s ++ t) = c :: (u ++ t) :=
  (h ▸ skipBlank_onto ht m s).cons

/-- A text in braces ends in the pattern. -/
theorem braced?_append (ht : Closes t) {fuel fuel' : Nat} (hle : fuel ≤ fuel')
    (name : List Char) {x rest : List Char} (hx : braced? m fuel name s = some (x, rest)) :
    braced? m fuel' name (s ++ t) = some (x, rest ++ t) := by
  induction fuel generalizing fuel' name s with
  | zero => cases hx
  | succ fuel ih =>
    obtain ⟨fuel', rfl⟩ : ∃ k, fuel' = k + 1 := ⟨fuel' - 1, by omega⟩
    rw [braced?] at hx ⊢
    cases hs : m.skipBlank s with
    | nil => simp [hs] at hx
    | cons c u =>
      rw [skipBlank_append_of_cons ht hs]
      rw [hs] at hx
      by_cases hc : c = '\x7d'
      · subst hc
        obtain ⟨rfl, rfl⟩ := Prod.mk.inj (Option.some.inj hx)
        rfl
      · simp only at hx ⊢
        exact ih (by omega) _ hx

/-- Behind a text in braces. -/
theorem frames_braced? (ht : Closes t) (m : Modes) (name s : List Char) :
    Frames t (braced? m (s.length + 1) name s) (braced? m ((s ++ t).length + 1) name (s ++ t)) :=
  fun _ rest h => ⟨_, braced?_append ht (by simp) name h, .append t rest⟩

theorem frames_hexEscape? (ht : Closes t) (m : Modes) (digits : Nat) (byte : Bool)
    (s : List Char) :
    Frames t (hexEscape? m digits byte s) (hexEscape? m digits byte (s ++ t)) := by
  have honto := skipBlank_onto ht m s
  -- without a brace, digits follow
  have hplain : ∀ u u', Onto t u u' → Frames t
      ((hexDigits? m digits 0 u).bind fun r =>
        (charOfNat? r.1).bind fun c => some (Escape.literal c byte, r.2))
      ((hexDigits? m digits 0 u').bind fun r =>
        (charOfNat? r.1).bind fun c => some (Escape.literal c byte, r.2)) :=
    fun u u' hu => (frames_hexDigits? ht m digits 0 hu).bind fun value rest rest' hrest =>
      .bind_option _ fun c => .some _ hrest
  unfold hexEscape?
  generalize m.skipBlank s = u at honto
  generalize m.skipBlank (s ++ t) = u' at honto
  cases u with
  | nil =>
    rcases honto.of_nil ht with rfl | ⟨v, rfl⟩
    · exact hplain _ _ honto
    · exact hplain _ _ honto
  | cons c u =>
    obtain rfl := honto.cons
    by_cases hc : c = '\x7b'
    · subst hc
      refine (frames_braced? ht m [] u).bind fun name rest rest' hrest => ?_
      simp only
      split
      · exact .none _
      · exact .bind_option _ fun value => .bind_option _ fun c => .some _ (hrest.skipBlank ht m)
    · split
      · next heq => exact absurd (List.cons.inj heq).1 hc
      · split
        · next heq => exact absurd (List.cons.inj heq).1 hc
        · exact hplain _ _ honto

theorem frames_propertyEscape? (ht : Closes t) (m : Modes) (negated : Bool) (s : List Char) :
    Frames t (propertyEscape? m negated s) (propertyEscape? m negated (s ++ t)) := by
  have honto := skipBlank_onto ht m s
  unfold propertyEscape?
  generalize m.skipBlank s = u at honto
  generalize m.skipBlank (s ++ t) = u' at honto
  cases u with
  | nil => exact .none _
  | cons c u =>
    obtain rfl := honto.cons
    have hrest := skipBlank_onto ht m u
    by_cases hc : c = '\x7b'
    · subst hc
      exact (frames_braced? ht m [] u).bind fun name rest rest' hrest =>
        .bind_option _ fun chars => .some _ hrest
    · split
      · next heq => cases heq
      · next heq => exact absurd (List.cons.inj heq).1 hc
      · next heq =>
        obtain ⟨rfl, rfl⟩ := List.cons.inj heq
        split
        · exact .none _
        · exact .map_option _ _ hrest

theorem frames_edgeName? (ht : Closes t) (m : Modes) {fuel fuel' : Nat} (hle : fuel ≤ fuel')
    (name s : List Char) :
    Frames t (edgeName? m fuel name s) (edgeName? m fuel' name (s ++ t)) := by
  induction fuel generalizing fuel' name s with
  | zero => exact .none _
  | succ fuel ih =>
    obtain ⟨fuel', rfl⟩ : ∃ k, fuel' = k + 1 := ⟨fuel' - 1, by omega⟩
    have honto := skipBlank_onto ht m s
    unfold edgeName?
    generalize m.skipBlank s = u at honto
    generalize m.skipBlank (s ++ t) = u' at honto
    cases u with
    | nil => exact .none _
    | cons c u =>
      obtain rfl := honto.cons
      simp only
      split
      · exact ih (by omega) _ _
      · split
        · exact .some _ (.append t u)
        · exact .none _

theorem edgeEscape?_of_ne (m : Modes) {c : Char} (hc : c ≠ '\x7b') (s : List Char) :
    edgeEscape? m (c :: s) = some (.look (.word .boundary !m.unicode), c :: s) := by
  unfold edgeEscape?
  split
  · next heq => exact absurd (List.cons.inj heq).1 hc
  · rfl

theorem frames_edgeEscape? (ht : Closes t) (m : Modes) (s : List Char) :
    Frames t (edgeEscape? m s) (edgeEscape? m (s ++ t)) := by
  cases s with
  | nil =>
    obtain ⟨u, rfl⟩ := ht.closes
    exact .some _ (.inl rfl)
  | cons c s =>
    by_cases hc : c = '\x7b'
    · subst hc
      have honto := skipBlank_onto ht m s
      simp only [edgeEscape?, List.cons_append]
      generalize m.skipBlank s = u at honto
      generalize m.skipBlank (s ++ t) = u' at honto
      cases u with
      | nil => exact .none _
      | cons c u =>
        obtain rfl := honto.cons
        simp only
        split
        · refine (frames_edgeName? ht m (by simp) [] s).bind fun name rest rest' hrest => ?_
          simp only
          split
          · exact .some _ hrest
          · exact .some _ hrest
          · exact .some _ hrest
          · exact .some _ hrest
          · exact .none _
        · exact .some _ (.inl rfl)
    · rw [List.cons_append, edgeEscape?_of_ne m hc, edgeEscape?_of_ne m hc]
      exact .some _ (.inl rfl)

/-- An escape is read the same way, whatever follows it. -/
theorem frames_escape? (ht : Closes t) (m : Modes) (s : List Char) :
    Frames t (escape? m s) (escape? m (s ++ t)) := by
  cases s with
  | nil => exact .none _
  | cons c s =>
    rw [List.cons_append]
    have honto := Onto.append t s
    unfold escape?
    simp only
    -- an escape is one character, or an escape that goes on
    split
    all_goals first
      | exact frames_hexEscape? ht m _ _ s
      | exact frames_propertyEscape? ht m _ s
      | exact frames_edgeEscape? ht m s
      | exact .some _ honto
      | skip
    split
    · exact .some _ honto
    · exact .none _

/-! ## Section 3: Operators and groups -/

namespace Reader

/-- Behind the pattern, there are no more digits. -/
theorem digits_of_nil (ht : Closes t) (m : Modes) (fuel fuel' : Nat) (ds : List Char)
    (h : Onto t [] s') : (digits m fuel' ds s').1 = (digits m fuel ds []).1 ∧
      Onto t (digits m fuel ds []).2 (digits m fuel' ds s').2 := by
  have hnil : ∀ k, digits m k ds [] = (ds.reverse, []) := fun k => by cases k <;> rfl
  have hclose : ∀ k u, digits m k ds (')' :: u) = (ds.reverse, ')' :: u) :=
    fun k u => by cases k <;> rfl
  rcases h.of_nil ht with rfl | ⟨u, rfl⟩
  · rw [hnil, hnil]
    exact ⟨rfl, h⟩
  · rw [hnil, hclose]
    exact ⟨rfl, h⟩

theorem digits_onto (ht : Closes t) (m : Modes) {fuel fuel' : Nat} (ds : List Char)
    {s s' : List Char} (hs : s.length ≤ fuel) (hle : fuel ≤ fuel') (h : Onto t s s') :
    (digits m fuel' ds s').1 = (digits m fuel ds s).1 ∧
      Onto t (digits m fuel ds s).2 (digits m fuel' ds s').2 := by
  -- the fuel lasts for all of `s`, and no digit follows in `t`
  induction fuel generalizing fuel' ds s s' with
  | zero =>
    obtain rfl := List.length_eq_zero_iff.1 (Nat.le_zero.1 hs)
    exact digits_of_nil ht m 0 fuel' ds h
  | succ fuel ih =>
    cases s with
    | nil => exact digits_of_nil ht m (fuel + 1) fuel' ds h
    | cons c s =>
      obtain rfl := h.cons
      obtain ⟨fuel', rfl⟩ : ∃ k, fuel' = k + 1 := ⟨fuel' - 1, by omega⟩
      rw [digits, digits]
      split
      · have hlen := length_skipBlank_le m s
        simp only [List.length_cons] at hs
        exact ih _ (by omega) (by omega) (skipBlank_onto ht m s)
      · exact ⟨rfl, h⟩

theorem Onto.dropWhile_isBlank (ht : Closes t) (h : Onto t s s') :
    Onto t (s.dropWhile isBlank) (s'.dropWhile isBlank) := by
  rcases h with rfl | ⟨rfl, rfl⟩
  · exact .inl (dropWhile_isBlank_append ht s)
  · exact .inr ⟨rfl, rfl⟩

theorem frames_count? (ht : Closes t) (m : Modes) (h : Onto t s s') :
    Frames t (count? m s) (count? m s') := by
  have honto := Onto.dropWhile_isBlank ht h
  have hlen : (s.dropWhile isBlank).length ≤ (s'.dropWhile isBlank).length := by
    rcases honto with he | ⟨he, -⟩
    · simp [he]
    · simp [he]
  obtain ⟨hds, hrest⟩ := digits_onto ht m [] (Nat.le_refl _) hlen honto
  simp only [count?, hds]
  split
  · exact .none _
  · exact .some _ (Onto.dropWhile_isBlank ht hrest)

theorem greed_of_ne {s : List Char} (hs : s.head? ≠ some '?') : greed s = (true, s) := by
  unfold greed
  split
  · exact absurd rfl hs
  · rfl

/-- The question mark behind an operator stands in the pattern. -/
theorem greed_onto (ht : Closes t) (h : Onto t s s') :
    (greed s').1 = (greed s).1 ∧ Onto t (greed s).2 (greed s').2 := by
  cases s with
  | nil =>
    rcases h.of_nil ht with rfl | ⟨u, rfl⟩
    · exact ⟨rfl, h⟩
    · exact ⟨rfl, h⟩
  | cons c s =>
    obtain rfl := h.cons
    by_cases hc : c = '?'
    · subst hc
      exact ⟨rfl, .append t s⟩
    · rw [greed_of_ne (by simpa using hc), greed_of_ne (by simpa using hc)]
      exact ⟨rfl, h⟩

theorem flags?_append {m m' : Modes} {seen : List Char} {on dangling given : Bool} {ending : Char}
    {s rest : List Char} (h : flags? m seen on dangling s = some (m', given, ending, rest))
    (t : List Char) : flags? m seen on dangling (s ++ t) = some (m', given, ending, rest ++ t) := by
  induction s generalizing m seen on dangling with
  | nil => cases h
  | cons c s ih =>
    rw [flags?] at h
    rw [List.cons_append, flags?]
    split_ifs at h ⊢ with hend hdangling hhyphen hon hseen
    · obtain ⟨rfl, rfl, rfl, rfl⟩ : _ ∧ _ ∧ _ ∧ _ := by simpa using h
      rfl
    · exact ih h
    · cases hswitch : m.switch? on c with
      | none => simp [hswitch] at h
      | some m₁ =>
        rw [hswitch] at h
        exact ih h

/-- Reads what follows the comma between two counts, up to the closing brace. -/
def greatest? (m : Modes) : List Char → Option (Option Nat × List Char)
  | '\x7d' :: s => some (none, '\x7d' :: s)
  | s => (count? m s).map fun (n, s) => (some n, s)

/-- Reads the greatest count of a repetition whose least count was read, up to the closing
    brace. -/
def upperCount? (m : Modes) (low : Nat) : List Char → Option (Option Nat × List Char)
  | ',' :: s => greatest? m (m.skipBlank s)
  | s => some (some low, s)

/-- Reads the closing brace of a repetition and whether it is greedy. -/
def closedCounts? (m : Modes) (low : Nat) (high : Option Nat) (s : List Char) :
    Option ((Bool × Nat × Option Nat) × List Char) :=
  match s with
  | '\x7d' :: s =>
    if high.all (low ≤ ·) then
      some (((greed (m.skipBlank s)).1, low, high), (greed (m.skipBlank s)).2)
    else none
  | _ => none

/-- Reads the counts of a repetition after its opening brace. -/
def counts? (m : Modes) (s : List Char) : Option ((Bool × Nat × Option Nat) × List Char) :=
  (count? m (m.skipBlank s)).bind fun (low, s) =>
    (upperCount? m low s).bind fun (high, s) => closedCounts? m low high s

theorem greatest?_of_ne (m : Modes) (h : ∀ u, s ≠ '\x7d' :: u) :
    greatest? m s = (count? m s).map fun (n, s) => (some n, s) := by
  unfold greatest?
  split
  · exact absurd rfl (h _)
  · rfl

theorem upperCount?_of_ne (m : Modes) (low : Nat) (h : ∀ u, s ≠ ',' :: u) :
    upperCount? m low s = some (some low, s) := by
  unfold upperCount?
  split
  · exact absurd rfl (h _)
  · rfl

theorem closedCounts?_bind (st : Reader) (low : Nat) (high : Option Nat) (v : List Char) :
    (match v with
      | '\x7d' :: s =>
        let (greedy, rest) := greed (st.modes.skipBlank s)
        if high.all (low ≤ ·) then st.repeatLast? greedy low high rest else none
      | _ => none) =
      (closedCounts? st.modes low high v).bind fun ((greedy, low, high), rest) =>
        st.repeatLast? greedy low high rest := by
  unfold closedCounts?
  split
  · simp only
    split <;> rfl
  · rfl

theorem counted?_eq (st : Reader) (s : List Char) :
    st.counted? s = (counts? st.modes s).bind fun ((greedy, low, high), rest) =>
      st.repeatLast? greedy low high rest := by
  simp only [counted?, counts?, Option.bind_eq_bind, Option.bind_assoc, ← closedCounts?_bind]
  refine congrArg _ (funext fun r => ?_)
  obtain ⟨low, u⟩ := r
  dsimp only
  split
  · split
    · next hbrace => exact congrArg (Option.bind · _) (congrArg (greatest? st.modes) hbrace).symm
    · next hbrace => exact congrArg (Option.bind · _) (greatest?_of_ne _ hbrace).symm
  · next hcomma => exact congrArg (Option.bind · _) (upperCount?_of_ne _ low hcomma).symm

theorem frames_greatest? (ht : Closes t) (m : Modes) (h : Onto t s s') :
    Frames t (greatest? m s) (greatest? m s') := by
  have hcount : Frames t ((count? m s).map fun (n, s) => (some n, s))
      ((count? m s').map fun (n, s) => (some n, s)) :=
    (frames_count? ht m h).map some
  cases s with
  | nil =>
    rcases h.of_nil ht with rfl | ⟨v, rfl⟩
    · exact hcount
    · exact hcount
  | cons c s =>
    obtain rfl := h.cons
    by_cases hc : c = '\x7d'
    · subst hc
      exact .some _ h
    · rw [greatest?_of_ne m (by simp [hc]), greatest?_of_ne m (by simp [hc])]
      exact hcount

theorem frames_upperCount? (ht : Closes t) (m : Modes) (low : Nat) (h : Onto t s s') :
    Frames t (upperCount? m low s) (upperCount? m low s') := by
  cases s with
  | nil =>
    rcases h.of_nil ht with rfl | ⟨u, rfl⟩
    · exact .some _ h
    · exact .some _ h
  | cons c s =>
    obtain rfl := h.cons
    by_cases hc : c = ','
    · subst hc
      exact frames_greatest? ht m (skipBlank_onto ht m s)
    · rw [upperCount?_of_ne m low (by simp [hc]), upperCount?_of_ne m low (by simp [hc])]
      exact .some _ h

theorem frames_closedCounts? (ht : Closes t) (m : Modes) (low : Nat) (high : Option Nat)
    (h : Onto t s s') :
    Frames t (closedCounts? m low high s) (closedCounts? m low high s') := by
  cases s with
  | nil => exact .none _
  | cons c s =>
    obtain rfl := h.cons
    by_cases hc : c = '\x7d'
    · subst hc
      obtain ⟨hgreed, hrest⟩ := greed_onto ht (skipBlank_onto ht m s)
      simp only [closedCounts?]
      split
      · rw [hgreed]
        exact .some _ hrest
      · exact .none _
    · have hnone : closedCounts? m low high (c :: s) = none := by
        unfold closedCounts?
        split
        · next heq => exact absurd (List.cons.inj heq).1 hc
        · rfl
      rw [hnone]
      exact .none _

theorem frames_counts? (ht : Closes t) (m : Modes) (s : List Char) :
    Frames t (counts? m s) (counts? m (s ++ t)) :=
  (frames_count? ht m (skipBlank_onto ht m s)).bind fun low _ _ hu =>
    (frames_upperCount? ht m low hu).bind fun high _ _ hv =>
      frames_closedCounts? ht m low high hv

theorem name?_append {name rest : List Char} (h : name? s = some (name, rest)) (t : List Char) :
    name? (s ++ t) = some (name, rest ++ t) := by
  unfold name? at h
  split at h
  · next c cs rest' htake hdrop =>
    have hmem : '>' ∈ s :=
      (List.dropWhile_suffix (· != '>')).subset (hdrop ▸ List.mem_cons_self)
    have hdrop' : (s ++ t).dropWhile (· != '>') = '>' :: (rest' ++ t) := by
      rw [List.dropWhile_append, hdrop]
      rfl
    have htake' : (s ++ t).takeWhile (· != '>') = c :: cs := by
      have hsplit := List.takeWhile_append_dropWhile (p := (· != '>')) (l := s)
      have hsplit' := List.takeWhile_append_dropWhile (p := (· != '>')) (l := s ++ t)
      rw [htake, hdrop] at hsplit
      rw [hdrop'] at hsplit'
      refine List.append_cancel_right (hsplit'.trans ?_)
      rw [← List.cons_append, ← List.append_assoc, hsplit]
    unfold name?
    rw [htake', hdrop']
    simp only
    split at h
    · next hok =>
      obtain ⟨rfl, rfl⟩ := Prod.mk.inj (Option.some.inj h)
      exact if_pos hok
    · cases h
  · cases h

end Reader

end Marginalia.Regex
