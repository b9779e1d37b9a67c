/-! # Totals

    * **`total`**: the sum of some counts.
    * **`byteLength`**: how many bytes a text takes in UTF-8. -/

namespace Marginalia

/-- The sum of some counts. -/
def total : List Nat → Nat
  | []      => 0
  | n :: ns => n + total ns

@[simp] theorem total_nil : total [] = 0 := rfl

@[simp] theorem total_cons (n : Nat) (ns : List Nat) : total (n :: ns) = n + total ns := rfl

@[simp] theorem total_append (ms ns : List Nat) : total (ms ++ ns) = total ms + total ns := by
  induction ms with
  | nil => simp
  | cons m ms ih => simp [ih, Nat.add_assoc]

/-- Only counts of nothing make up nothing. -/
theorem total_eq_zero_iff {ns : List Nat} : total ns = 0 ↔ ∀ n ∈ ns, n = 0 := by
  induction ns with
  | nil => simp
  | cons n ns ih => simp [ih]

/-- The length of a text in bytes of UTF-8. -/
def byteLength (s : List Char) : Nat :=
  total (s.map Char.utf8Size)

theorem byteLength_append (s t : List Char) :
    byteLength (s ++ t) = byteLength s + byteLength t := by
  simp [byteLength]

end Marginalia
