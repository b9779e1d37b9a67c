/-! # The order of texts

    Names are sorted by the numbers of their characters, the first difference being
    what counts. This is also the order of their bytes.

    * **`precedes`**: the order, which is strict and total. -/

namespace Marginalia.Text

/-- The first text comes before the second. -/
def precedes : List Char → List Char → Bool
  | _, []          => false
  | [], _ :: _     => true
  | a :: s, b :: t => decide (a.toNat < b.toNat) || (a == b && precedes s t)

theorem precedes_cons {a b : Char} {s t : List Char} :
    precedes (a :: s) (b :: t) = true ↔ a.toNat < b.toNat ∨ (a = b ∧ precedes s t = true) := by
  simp [precedes]

/-- No text comes before itself. -/
theorem precedes_irrefl (s : List Char) : precedes s s = false := by
  induction s with
  | nil => rfl
  | cons a s ih => simp [precedes, ih]

theorem precedes_trans {s t u : List Char} (h : precedes s t = true) (k : precedes t u = true) :
    precedes s u = true := by
  induction s generalizing t u with
  | nil =>
    cases t with
    | nil => simp [precedes] at h
    | cons b t =>
      cases u with
      | nil => simp [precedes] at k
      | cons c u => rfl
  | cons a s ih =>
    cases t with
    | nil => simp [precedes] at h
    | cons b t =>
      cases u with
      | nil => simp [precedes] at k
      | cons c u =>
        rw [precedes_cons] at h k ⊢
        rcases h with h | ⟨rfl, h⟩
        · rcases k with k | ⟨rfl, _⟩
          · exact .inl (Nat.lt_trans h k)
          · exact .inl h
        · exact k.imp id fun ⟨hc, k⟩ => ⟨hc, ih h k⟩

/-- Of two different texts, one comes before the other. -/
theorem precedes_of_ne {s t : List Char} (h : s ≠ t) (k : precedes s t = false) :
    precedes t s = true := by
  induction s generalizing t with
  | nil =>
    cases t with
    | nil => exact absurd rfl h
    | cons b t => simp [precedes] at k
  | cons a s ih =>
    cases t with
    | nil => rfl
    | cons b t =>
      rw [← Bool.not_eq_true, precedes_cons] at k
      rw [precedes_cons]
      by_cases hab : a = b
      · subst hab
        refine .inr ⟨rfl, ih (fun hs => h (hs ▸ rfl)) ?_⟩
        simpa using fun hs => k (.inr ⟨rfl, hs⟩)
      · have hne : a.toNat ≠ b.toNat := fun hn => hab (Char.toNat_inj.1 hn)
        have hlt : ¬ a.toNat < b.toNat := fun hn => k (.inl hn)
        exact .inl (by omega)

theorem precedes_asymm {s t : List Char} (h : precedes s t = true) : precedes t s = false := by
  rw [← Bool.not_eq_true]
  intro k
  have hs := precedes_trans h k
  rw [precedes_irrefl] at hs
  contradiction

/-- What comes before neither of two texts in a row does not come before the first. -/
theorem precedes_eq_false_trans {s t u : List Char} (h : precedes t s = false)
    (k : precedes u t = false) : precedes u s = false := by
  rw [← Bool.not_eq_true]
  intro hus
  by_cases hut : u = t
  · rw [hut, h] at hus
    contradiction
  · have hts := precedes_trans (precedes_of_ne hut k) hus
    rw [h] at hts
    contradiction

end Marginalia.Text
