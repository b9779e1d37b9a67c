import Marginalia.Proofs.ReadingAhead

/-! # Bracket expressions with a text behind them

    A bracket expression ends in the pattern that it begins in, so nothing that stands
    behind the pattern changes how it is read:

    * **`Bracket.range?_append`, `Bracket.asciiClass?_append`**: what a bracket lists.
    * **`Bracket.open?_append`**: how a bracket begins.
    * **`Bracket.step?_append`, `Bracket.run?_append`**: one step, and from it all steps.
    * **`bracket?_append`**: the whole expression. -/

namespace Marginalia.Regex

open Text

variable {t s s' : List Char} {m : Modes}

namespace Bracket

/-! ## Section 1: Items and ranges -/

theorem item?_of_ne (m : Modes) {c : Char} (hc : c ≠ '\\') (s : List Char) :
    item? m (c :: s) = if m.unicode || c.toNat < 0x80 then some (.literal c, 1, s) else none := by
  unfold item?
  split
  · next heq => cases heq
  · next heq => exact absurd (List.cons.inj heq).1 hc
  · next heq =>
    obtain ⟨rfl, rfl⟩ := List.cons.inj heq
    rfl

theorem item?_append (ht : Closes t) {x : Item} {weight : Nat} {rest : List Char}
    (h : item? m s = some (x, weight, rest)) :
    ∃ rest', item? m (s ++ t) = some (x, weight, rest') ∧ Onto t rest rest' := by
  cases s with
  | nil => cases h
  | cons c s =>
    by_cases hc : c = '\\'
    · subst hc
      have hframes := frames_escape? ht m s
      simp only [item?, List.cons_append] at h ⊢
      cases hescape : escape? m s with
      | none => simp [hescape] at h
      | some found =>
        obtain ⟨e, u⟩ := found
        obtain ⟨u', he, hu⟩ := hframes e u hescape
        rw [hescape] at h
        rw [he]
        cases e with
        | literal a byte =>
          simp only at h ⊢
          split at h
          · next hok =>
            rw [if_pos hok]
            obtain ⟨rfl, rfl, rfl⟩ : _ ∧ _ ∧ _ := by simpa using h
            exact ⟨u', rfl, hu⟩
          · cases h
        | set chars w =>
          obtain ⟨rfl, rfl, rfl⟩ : _ ∧ _ ∧ _ := by simpa using h
          exact ⟨u', rfl, hu⟩
        | look l => cases h
    · rw [List.cons_append, item?_of_ne m hc]
      rw [item?_of_ne m hc] at h
      split at h
      · next hok =>
        rw [if_pos hok]
        obtain ⟨rfl, rfl, rfl⟩ : _ ∧ _ ∧ _ := by simpa using h
        exact ⟨_, rfl, .append t s⟩
      · cases h

/-- Looking beyond a hyphen finds the same in the pattern, and nothing that matters behind
    it. -/
theorem afterHyphen?_append (ht : Closes t) (m : Modes) (s : List Char) :
    afterHyphen? m (s ++ t) = afterHyphen? m s ∨
      (afterHyphen? m s = none ∧ afterHyphen? m (s ++ t) = some ')') := by
  obtain ⟨u, hu⟩ := ht.closes
  have hhead : ∀ v : List Char, (v ++ t).head? = v.head? ∨
      (v.head? = none ∧ (v ++ t).head? = some ')') := by
    intro v
    cases v with
    | nil => exact .inr ⟨rfl, by rw [hu]; rfl⟩
    | cons c v => exact .inl rfl
  unfold afterHyphen?
  split
  · rw [dropWhile_isBlank_append ht]
    cases s.dropWhile isBlank with
    | nil => exact .inr ⟨rfl, by rw [hu]; rfl⟩
    | cons c v =>
      by_cases hc : c = '#'
      · subst hc
        simp only [List.cons_append]
        rw [dropWhile_isBlank_append ht]
        exact hhead _
      · left
        simp [hc]
  · exact hhead s

/-- Whether a hyphen stands for itself is decided in the pattern. -/
theorem isPlainHyphen_append (ht : Closes t) (m : Modes) (s : List Char) :
    (afterHyphen? m (s ++ t) = some ']' ∨ afterHyphen? m (s ++ t) = some '-') ↔
      (afterHyphen? m s = some ']' ∨ afterHyphen? m s = some '-') := by
  rcases afterHyphen?_append ht m s with heq | ⟨hnone, hclose⟩
  · rw [heq]
  · -- neither nothing nor the closing parenthesis is one of the two
    rw [hnone, hclose]
    simp

/-- Reads the other end of a range, behind its hyphen. -/
def rangeTo? (m : Modes) (first : Item) (weight : Nat) (s : List Char) :
    Option (CharSet × Nat × List Char) :=
  match first, item? m (m.skipBlank s) with
  | .literal a, some (.literal b, _, rest) =>
    if a ≤ b then some (m.fold (CharSet.range a b), weight + 1, rest) else none
  | _, _ => none

theorem rangeTo?_append (ht : Closes t) {first : Item} {w : Nat} {chars : CharSet} {weight : Nat}
    {rest : List Char} (h : rangeTo? m first w s = some (chars, weight, rest)) :
    ∃ rest', rangeTo? m first w (s ++ t) = some (chars, weight, rest') ∧ Onto t rest rest' := by
  cases first with
  | set chars' => cases h
  | literal a =>
    unfold rangeTo? at h ⊢
    cases hsecond : item? m (m.skipBlank s) with
    | none => simp [hsecond] at h
    | some found =>
      obtain ⟨b, w', u⟩ := found
      have hne : m.skipBlank s ≠ [] := by
        intro hnil
        rw [hnil] at hsecond
        cases hsecond
      obtain ⟨u', hsecond', hu⟩ := item?_append ht hsecond
      rw [(skipBlank_onto ht m s).of_ne_nil hne, hsecond']
      rw [hsecond] at h
      cases b with
      | set chars' => cases h
      | literal b =>
        simp only at h ⊢
        split at h
        · next hle =>
          rw [if_pos hle]
          obtain ⟨rfl, rfl, rfl⟩ : _ ∧ _ ∧ _ := by simpa using h
          exact ⟨u', rfl, hu⟩
        · cases h

theorem range?_append (ht : Closes t) {chars : CharSet} {weight : Nat} {rest : List Char}
    (h : range? m s = some (chars, weight, rest)) :
    ∃ rest', range? m (s ++ t) = some (chars, weight, rest') ∧ Onto t rest rest' := by
  simp only [range?, Option.bind_eq_bind, Option.bind_eq_some_iff] at h
  obtain ⟨⟨first, w, u⟩, hfirst, h⟩ := h
  obtain ⟨u', hfirst', hu⟩ := item?_append ht hfirst
  have honto := hu.skipBlank ht m
  simp only [range?, Option.bind_eq_bind, hfirst', Option.bind_some]
  simp only at h
  generalize m.skipBlank u = v at h honto
  generalize m.skipBlank u' = v' at honto
  cases v with
  | nil => cases h
  | cons c v =>
    obtain rfl := honto.cons
    by_cases hc : c = '-'
    · subst hc
      simp only at h ⊢
      split at h
      · next hplain =>
        rw [if_pos ((isPlainHyphen_append ht m v).2 hplain)]
        obtain ⟨rfl, rfl, rfl⟩ : _ ∧ _ ∧ _ := by simpa using h
        exact ⟨_, rfl, .append t _⟩
      · next hplain =>
        rw [if_neg fun hplain' => hplain ((isPlainHyphen_append ht m v).1 hplain')]
        exact rangeTo?_append ht h
    · split at h
      · next heq => cases heq
      · next heq => exact absurd (List.cons.inj heq).1 hc
      · split
        · next heq => cases heq
        · next heq => exact absurd (List.cons.inj heq).1 hc
        · obtain ⟨rfl, rfl, rfl⟩ : _ ∧ _ ∧ _ := by simpa using h
          exact ⟨_, rfl, .append t _⟩

/-- The end of a class name stands in the pattern, or nowhere. -/
theorem dropWhile_ne_colon_append (ht : Closes t) (s : List Char) :
    ((s ++ t).dropWhile (· != ':') = s.dropWhile (· != ':') ++ t ∧
      (s ++ t).takeWhile (· != ':') = s.takeWhile (· != ':')) ∨
    (s.dropWhile (· != ':') = [] ∧
      ∀ rest, (s ++ t).dropWhile (· != ':') ≠ ':' :: ']' :: rest) := by
  induction s with
  | nil =>
    -- the end of a class name would stand in `t`
    refine .inr ⟨rfl, fun rest hrest => ht.noClass ?_⟩
    have hsuffix := List.dropWhile_suffix (· != ':') (l := [] ++ t)
    rw [hrest] at hsuffix
    exact (List.prefix_append [':', ']'] rest).isInfix.trans hsuffix.isInfix
  | cons c s ih =>
    by_cases hc : c = ':'
    · left
      subst hc
      simp
    · have hne : (c != ':') = true := by simpa using hc
      simp only [List.cons_append, List.dropWhile_cons, List.takeWhile_cons, hne, if_true]
      exact ih.imp (fun h => ⟨h.1, by rw [h.2]⟩) id

/-- Reads the rest of a class name, when it is known whether the class is negated. -/
def className? (m : Modes) (negated : Bool) (s : List Char) : Option (CharSet × List Char) :=
  match s.dropWhile (· != ':') with
  | ':' :: ']' :: rest =>
    (CharSet.ofAsciiName? (String.ofList (s.takeWhile (· != ':')))).map fun chars =>
      (if negated then (m.fold chars).compl else m.fold chars, rest)
  | _ => none

theorem className?_append (ht : Closes t) (m : Modes) (negated : Bool) (s : List Char) :
    className? m negated (s ++ t) =
      (className? m negated s).map fun (chars, rest) => (chars, rest ++ t) := by
  obtain ⟨v, hv⟩ := ht.closes
  unfold className?
  rcases dropWhile_ne_colon_append ht s with ⟨hdrop, htake⟩ | ⟨hnil, hnot⟩
  · rw [hdrop, htake]
    cases s.dropWhile (· != ':') with
    | nil =>
      rw [hv]
      rfl
    | cons c w =>
      by_cases hc : c = ':'
      · subst hc
        cases w with
        | nil =>
          rw [hv]
          rfl
        | cons d w =>
          by_cases hd : d = ']'
          · subst hd
            simp [Option.map_map, Function.comp_def]
          · simp [hd]
      · simp [hc]
  · rw [hnil]
    split
    · next rest heq => exact absurd heq (hnot rest)
    · rfl

theorem asciiClass?_of_ne (m : Modes) {d : Char} (hd : d ≠ '^') (s : List Char) :
    asciiClass? m (':' :: d :: s) = className? m false (d :: s) := by
  generalize hw : d :: s = w
  unfold asciiClass?
  split
  · next heq =>
    obtain rfl := (List.cons.inj heq).2
    split
    next hmatch =>
      split at hmatch
      · exact absurd (List.cons.inj hw).1 hd
      · obtain ⟨rfl, rfl⟩ := Prod.mk.inj hmatch
        rfl
  · next hne => exact absurd rfl (hne w)

theorem asciiClass?_append (ht : Closes t) (m : Modes) (s : List Char) :
    asciiClass? m (s ++ t) = (asciiClass? m s).map fun (chars, rest) => (chars, rest ++ t) := by
  cases s with
  | nil =>
    obtain ⟨v, rfl⟩ := ht.closes
    rfl
  | cons c s =>
    by_cases hc : c = ':'
    · subst hc
      cases s with
      | nil =>
        have h := className?_append ht m false []
        obtain ⟨v, hv⟩ := ht.closes
        rw [hv] at h ⊢
        exact h
      | cons d s =>
        by_cases hd : d = '^'
        · subst hd
          exact className?_append ht m true s
        · rw [List.cons_append, List.cons_append, asciiClass?_of_ne m hd, asciiClass?_of_ne m hd]
          exact className?_append ht m false (d :: s)
    · simp [asciiClass?, hc]

theorem leadingHyphens_of_ne (m : Modes) {c : Char} (hc : c ≠ '-') (fuel : Nat)
    (s : List Char) : leadingHyphens m (fuel + 1) (c :: s) = (0, c :: s) := by
  unfold leadingHyphens
  split
  · next heq => cases heq
  · next heq => exact absurd (List.cons.inj heq).1 hc
  · rfl

theorem leadingHyphens_append (ht : Closes t) (m : Modes) {fuel fuel' : Nat}
    (hle : fuel ≤ fuel') {s : List Char} (hs : s.length ≤ fuel) {n : Nat} {rest : List Char}
    (h : leadingHyphens m fuel s = (n, rest)) (hne : rest ≠ []) :
    leadingHyphens m fuel' (s ++ t) = (n, rest ++ t) := by
  -- a hyphen is taken for each round, so the fuel lasts
  induction fuel generalizing fuel' s n with
  | zero =>
    obtain rfl := List.length_eq_zero_iff.1 (Nat.le_zero.1 hs)
    obtain ⟨-, rfl⟩ := Prod.mk.inj h
    exact absurd rfl hne
  | succ fuel ih =>
    obtain ⟨fuel', rfl⟩ : ∃ k, fuel' = k + 1 := ⟨fuel' - 1, by omega⟩
    cases s with
    | nil =>
      obtain ⟨-, rfl⟩ := Prod.mk.inj h
      exact absurd rfl hne
    | cons c s =>
      by_cases hc : c = '-'
      · subst hc
        simp only [leadingHyphens, List.cons_append] at h ⊢
        obtain ⟨rfl, hrest⟩ := Prod.mk.inj h
        have hnil : m.skipBlank s ≠ [] := by
          intro hnil
          rw [hnil] at hrest
          cases fuel <;> exact hne hrest.symm
        have hlen := length_skipBlank_le m s
        simp only [List.length_cons] at hs
        rw [(skipBlank_onto ht m s).of_ne_nil hnil,
          ih (by omega) (by omega) (n := (leadingHyphens m fuel (m.skipBlank s)).1)
            (Prod.ext rfl hrest)]
      · rw [leadingHyphens_of_ne m hc] at h
        obtain ⟨rfl, rfl⟩ := Prod.mk.inj h
        exact leadingHyphens_of_ne m hc _ _

theorem leadingHyphens_nil (m : Modes) (fuel : Nat) : leadingHyphens m fuel [] = (0, []) := by
  cases fuel <;> rfl

/-- Reads the hat of a bracket that stands for the characters that it does not list. -/
def hat (m : Modes) : List Char → Bool × List Char
  | '^' :: s => (true, m.skipBlank s)
  | s        => (false, s)

/-- What hyphens or a closing bracket list at the beginning. -/
def listedFirst (m : Modes) : Nat → List Char → CharSet × List Char
  | 0, ']' :: s => (m.fold (CharSet.single ']'), m.skipBlank s)
  | 0, s        => (CharSet.none, s)
  | _, s        => (m.fold (CharSet.single '-'), s)

theorem hat_of_ne (m : Modes) {c : Char} (hc : c ≠ '^') (s : List Char) :
    hat m (c :: s) = (false, c :: s) := by
  unfold hat
  split
  · next heq => exact absurd (List.cons.inj heq).1 hc
  · rfl

theorem hat_append (ht : Closes t) (m : Modes) {s : List Char} {negated : Bool}
    {rest : List Char} (h : hat m s = (negated, rest)) (hne : rest ≠ []) :
    s ≠ [] ∧ hat m (s ++ t) = (negated, rest ++ t) := by
  cases s with
  | nil => exact absurd (Prod.mk.inj h).2.symm hne
  | cons c s =>
    refine ⟨List.cons_ne_nil c s, ?_⟩
    by_cases hc : c = '^'
    · subst hc
      obtain ⟨rfl, rfl⟩ := Prod.mk.inj h
      exact Prod.ext rfl ((skipBlank_onto ht m s).of_ne_nil hne)
    · rw [hat_of_ne m hc] at h
      obtain ⟨rfl, rfl⟩ := Prod.mk.inj h
      exact hat_of_ne m hc _

theorem listedFirst_of_ne (m : Modes) {c : Char} (hc : c ≠ ']') (s : List Char) :
    listedFirst m 0 (c :: s) = (CharSet.none, c :: s) := by
  unfold listedFirst
  split
  · next heq => exact absurd (List.cons.inj heq).1 hc
  · rfl
  · next hne _ => exact absurd rfl hne

theorem listedFirst_append (ht : Closes t) (m : Modes) {n : Nat} {s : List Char}
    {chars : CharSet} {rest : List Char} (h : listedFirst m n s = (chars, rest))
    (hne : rest ≠ []) : s ≠ [] ∧ listedFirst m n (s ++ t) = (chars, rest ++ t) := by
  cases n with
  | succ n =>
    obtain ⟨rfl, rfl⟩ := Prod.mk.inj h
    exact ⟨hne, rfl⟩
  | zero =>
    cases s with
    | nil => exact absurd (Prod.mk.inj h).2.symm hne
    | cons c s =>
      refine ⟨List.cons_ne_nil c s, ?_⟩
      by_cases hc : c = ']'
      · subst hc
        obtain ⟨rfl, rfl⟩ := Prod.mk.inj h
        exact Prod.ext rfl ((skipBlank_onto ht m s).of_ne_nil hne)
      · rw [listedFirst_of_ne m hc] at h
        obtain ⟨rfl, rfl⟩ := Prod.mk.inj h
        exact listedFirst_of_ne m hc _

/-- A state with a text behind what is left to read. -/
def State.append (st : State) (t : List Char) : State :=
  { st with rest := st.rest ++ t }

theorem State.append_mk (listed : CharSet) (stack : List Frame) (weight : Nat)
    (rest t : List Char) :
    State.append ⟨listed, stack, weight, rest⟩ t = ⟨listed, stack, weight, rest ++ t⟩ :=
  rfl

theorem open?_eq (m : Modes) (st : State) : open? m st =
    let (negated, s) := hat m (m.skipBlank st.rest)
    let (hyphens, s) := leadingHyphens m s.length s
    let (listed, s) := listedFirst m hyphens s
    if s.isEmpty then none
    else some { st with listed, stack := .bracket st.listed negated :: st.stack, rest := s } :=
  rfl

/-- The beginning of a bracket ends in the pattern, since something has to follow it. -/
theorem open?_append (ht : Closes t) {st st' : State} (h : open? m st = some st') :
    open? m (st.append t) = some (st'.append t) := by
  rw [open?_eq] at h ⊢
  cases hhat : hat m (m.skipBlank st.rest) with
  | mk negated u =>
    cases hhyphens : leadingHyphens m u.length u with
    | mk hyphens v =>
      cases hlisted : listedFirst m hyphens v with
      | mk listed w =>
        simp only [hhat, hhyphens, hlisted] at h
        split at h
        · cases h
        · next hw =>
          -- from the end: where something is left, something was left before that
          rw [List.isEmpty_iff] at hw
          obtain ⟨hv, hlisted'⟩ := listedFirst_append ht m hlisted hw
          have hu : u ≠ [] := by
            rintro rfl
            rw [leadingHyphens_nil] at hhyphens
            exact hv (Prod.mk.inj hhyphens).2.symm
          have hhyphens' : leadingHyphens m (u ++ t).length (u ++ t) = (hyphens, v ++ t) :=
            leadingHyphens_append ht m (by simp) (Nat.le_refl _) hhyphens hv
          obtain ⟨hs, hhat'⟩ := hat_append ht m hhat hu
          have hrest : m.skipBlank (st.append t).rest = m.skipBlank st.rest ++ t :=
            (skipBlank_onto ht m st.rest).of_ne_nil hs
          simp only [hrest, hhat', hhyphens', hlisted']
          rw [if_neg (by simp [hw])]
          rw [Option.some.injEq] at h
          subst h
          rfl

/-! ### Steps -/

/-- The operator that is written as this character, twice. -/
def operatorOf? : Char → Option SetOp
  | '&' => some .inter
  | '-' => some .diff
  | '~' => some .symmDiff
  | _   => none

/-- Reads an operator between two sets. -/
def operator? : List Char → Option (SetOp × List Char)
  | c :: d :: s => if c = d then (operatorOf? c).map fun op => (op, s) else none
  | _ => none

theorem operator?_append (ht : Closes t) (c : Char) (s : List Char) :
    operator? (c :: (s ++ t)) = (operator? (c :: s)).map fun (op, rest) => (op, rest ++ t) := by
  obtain ⟨u, rfl⟩ := ht.closes
  cases s with
  | nil =>
    have hclose : operatorOf? ')' = none := rfl
    by_cases hc : c = ')'
    · simp [operator?, hc, hclose]
    · simp [operator?, hc]
  | cons d s =>
    by_cases hc : c = d
    · simp [operator?, hc, Function.comp_def]
    · simp [operator?, hc]

theorem step?_eq_of_ne {st : State} {c : Char} {u : List Char} (hs : m.skipBlank st.rest = c :: u)
    (hopen : c ≠ '[') (hclose : c ≠ ']') : step? m st =
      match operator? (c :: u) with
      | some (op, s) => some (.inl (pushOperator m st op s))
      | none => (range? m (c :: u)).map fun (chars, weight, rest) =>
        .inl { st with listed := st.listed.union chars, weight := st.weight + weight, rest } := by
  unfold step?
  rw [hs]
  split
  · next heq => cases heq
  · next heq => exact absurd (List.cons.inj heq).1 hopen
  · next heq => exact absurd (List.cons.inj heq).1 hclose
  · next heq => rw [heq]; rfl
  · next heq => rw [heq]; rfl
  · next heq => rw [heq]; rfl
  · next hinter hdiff hsymm =>
    have hnone : operator? (c :: u) = none := by
      cases u with
      | nil => rfl
      | cons d u =>
        rw [operator?]
        split
        · next hcd =>
          subst hcd
          unfold operatorOf?
          split
          · exact absurd rfl (hinter u)
          · exact absurd rfl (hdiff u)
          · exact absurd rfl (hsymm u)
          · rfl
        · rfl
    rw [hnone]

/-- What a step leads to, with a text behind what is left to read. -/
def appendRest (t : List Char) :
    State ⊕ CharSet × Nat × List Char → State ⊕ CharSet × Nat × List Char :=
  Sum.map (·.append t) fun (chars, weight, rest) => (chars, weight, rest ++ t)

/-- A step that is not the last one in the text is taken the same way, whatever follows. -/
theorem step?_append (ht : Closes t) {st : State} {x : State ⊕ CharSet × Nat × List Char}
    (h : step? m st = some x) (hne : ∀ st', x = .inl st' → st'.rest ≠ []) :
    step? m (st.append t) = some (appendRest t x) := by
  cases hs : m.skipBlank st.rest with
  | nil => simp [step?, hs] at h
  | cons c u =>
    have hs' : m.skipBlank (st.append t).rest = c :: (u ++ t) := skipBlank_append_of_cons ht hs
    by_cases hopen : c = '['
    · -- a class name, or a bracket in the bracket
      subst hopen
      simp only [step?, hs] at h
      simp only [step?, hs', asciiClass?_append ht]
      cases hclass : asciiClass? m u with
      | some found =>
        rw [hclass] at h
        obtain rfl := Option.some.inj h
        rfl
      | none =>
        rw [hclass] at h
        obtain ⟨st', hst', rfl⟩ := Option.map_eq_some_iff.1 h
        exact congrArg (Option.map Sum.inl) (open?_append ht hst')
    · by_cases hclose : c = ']'
      · -- what is listed so far does not depend on what is left to read
        subst hclose
        simp only [step?, hs] at h
        simp only [step?, hs']
        have hoperator : applyOperator m (st.append t).listed (st.append t).stack =
          applyOperator m st.listed st.stack := rfl
        rw [hoperator]
        cases happly : applyOperator m st.listed st.stack with
        | mk chars stack =>
          rw [happly] at h
          cases stack with
          | nil => cases h
          | cons f stack =>
            cases f with
            | operator op left => cases h
            | bracket outer negated =>
              simp only at h ⊢
              split_ifs at h ⊢
              all_goals
                obtain rfl := Option.some.inj h
                rfl
      · rw [step?_eq_of_ne hs hopen hclose] at h
        rw [step?_eq_of_ne hs' hopen hclose, operator?_append ht]
        cases hoperator : operator? (c :: u) with
        | some found =>
          rw [hoperator] at h
          obtain rfl := Option.some.inj h
          rfl
        | none =>
          rw [hoperator] at h
          obtain ⟨⟨chars, weight, rest⟩, hrange, rfl⟩ := Option.map_eq_some_iff.1 h
          obtain ⟨rest', hrange', honto⟩ := range?_append ht hrange
          -- this is where the step must not be the last one
          obtain rfl := honto.of_ne_nil (hne _ rfl)
          exact congrArg (Option.map _) hrange'

theorem step?_eq_none_of_nil {st : State} (h : st.rest = []) : step? m st = none := by
  have hskip : m.skipBlank st.rest = [] := by
    rw [h]
    cases hm : m.verbose <;> simp [Modes.skipBlank, hm, dropBlank]
  rw [step?, hskip]

theorem run?_append (ht : Closes t) {fuel fuel' : Nat} (hle : fuel ≤ fuel') {st : State}
    {chars : CharSet} {weight : Nat} {rest : List Char}
    (h : run? m fuel st = some (chars, weight, rest)) :
    run? m fuel' (st.append t) = some (chars, weight, rest ++ t) := by
  induction fuel generalizing fuel' st with
  | zero => cases h
  | succ fuel ih =>
    obtain ⟨fuel', rfl⟩ : ∃ k, fuel' = k + 1 := ⟨fuel' - 1, by omega⟩
    rw [run?] at h ⊢
    cases hstep : step? m st with
    | none => simp [hstep] at h
    | some x =>
      rw [hstep] at h
      cases x with
      | inr found =>
        obtain rfl := Option.some.inj h
        rw [step?_append ht hstep (by simp)]
        rfl
      | inl st' =>
        have hne : st'.rest ≠ [] := by
          intro hnil
          cases fuel with
          | zero => cases h
          | succ fuel => simp [run?, step?_eq_none_of_nil hnil] at h
        rw [step?_append ht hstep (by rintro _ ⟨⟩; exact hne)]
        exact ih (by omega) h

end Bracket

/-- A bracket expression ends in the pattern. -/
theorem bracket?_append (ht : Closes t) {chars : CharSet} {weight : Nat} {rest : List Char}
    (h : bracket? m s = some (chars, weight, rest)) :
    bracket? m (s ++ t) = some (chars, weight, rest ++ t) := by
  simp only [bracket?, Option.bind_eq_bind, Option.bind_eq_some_iff] at h
  obtain ⟨st, hopen, ⟨chars', weight', rest'⟩, hrun, h⟩ := h
  have hopen' := Bracket.open?_append ht hopen
  rw [Bracket.State.append_mk] at hopen'
  have hrun' : Bracket.run? m ((s ++ t).length + 1) (st.append t) =
      some (chars', weight', rest' ++ t) :=
    Bracket.run?_append ht (by simp) hrun
  simp only [bracket?, Option.bind_eq_bind, hopen', hrun', Option.bind_some]
  split at h
  · next hpermits =>
    obtain ⟨rfl, rfl, rfl⟩ : _ ∧ _ ∧ _ := by simpa using h
    exact if_pos hpermits
  · cases h

end Marginalia.Regex
