/-! # Finding one text in another

    Texts are lists of characters. Three questions are asked of them, each with a
    lemma that says what the answer means:

    * **`after?`**: what follows a given beginning.
    * **`occursIn`**: whether a text has another one somewhere inside it.
    * **`afterLast?`**: what follows the last place at which a text occurs. -/

namespace Marginalia.Text

/-! ## Section 1: A given beginning -/

/-- What follows the beginning `p` of a text, if the text begins with `p`. -/
def after? : List Char → List Char → Option (List Char)
  | [], s => some s
  | _ :: _, [] => none
  | p :: ps, c :: s => if p = c then after? ps s else none

theorem after?_eq_some_iff {p s r : List Char} : after? p s = some r ↔ s = p ++ r := by
  induction p generalizing s with
  | nil => simp [after?]
  | cons a ps ih =>
    cases s with
    | nil => simp [after?]
    | cons c s =>
      by_cases h : a = c
      · simp [after?, h, ih]
      · simp [after?, h, Ne.symm h]

@[simp] theorem after?_append (p r : List Char) : after? p (p ++ r) = some r :=
  after?_eq_some_iff.2 rfl

/-! ## Section 2: Somewhere inside -/

/-- Whether `needle` stands somewhere in a text. -/
def occursIn (needle : List Char) : List Char → Bool
  | [] => needle.isEmpty
  | c :: s => needle.isPrefixOf (c :: s) || occursIn needle s

theorem occursIn_iff {needle s : List Char} : occursIn needle s = true ↔ needle <:+: s := by
  induction s with
  | nil => simp [occursIn]
  | cons c s ih => simp [occursIn, ih, List.infix_cons_iff]

/-! ## Section 3: The last place -/

/-- What follows the last place at which `needle` stands in a text. -/
def afterLast? (needle : List Char) : List Char → Option (List Char)
  | [] => after? needle []
  | c :: s =>
    match afterLast? needle s with
    | some r => some r
    | none => after? needle (c :: s)

/-- Only a text that holds `needle` has something after it. -/
theorem afterLast?_eq_none_iff {needle s : List Char} :
    afterLast? needle s = none ↔ occursIn needle s = false := by
  induction s with
  | nil => cases needle <;> simp [afterLast?, after?, occursIn]
  | cons c s ih =>
    cases h : afterLast? needle s with
    | some r => simp [afterLast?, h, occursIn, ← ih]
    | none =>
      have hs : occursIn needle s = false := ih.1 h
      have hp : after? needle (c :: s) = none ↔ needle.isPrefixOf (c :: s) = false := by
        rw [← Bool.not_eq_true, List.isPrefixOf_iff_prefix, Option.eq_none_iff_forall_ne_some]
        constructor
        · rintro hn ⟨r, hr⟩
          exact hn r (after?_eq_some_iff.2 hr.symm)
        · intro hn r hr
          exact hn ⟨r, (after?_eq_some_iff.1 hr).symm⟩
      simp [afterLast?, h, occursIn, hs, hp]

/-! ## Section 4: One search after the other -/

/-- Searches that find the same go through a list in the same way. -/
theorem findSome?_congr {α β : Type _} {f f' : α → Option β} {l : List α}
    (h : ∀ a ∈ l, f a = f' a) : l.findSome? f = l.findSome? f' := by
  induction l with
  | nil => rfl
  | cons a l ih =>
    rw [List.findSome?_cons, List.findSome?_cons, h a List.mem_cons_self,
      ih fun b hb => h b (List.mem_cons_of_mem a hb)]

end Marginalia.Text
