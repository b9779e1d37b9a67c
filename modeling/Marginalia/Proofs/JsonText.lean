import Mathlib.Data.List.DropRight
import Mathlib.Tactic.IntervalCases
import Marginalia.Json.Reader
import Marginalia.Json.Writer

/-! # JSON that is written and read

    All data made of texts, lists and tables are read from what is written of them.

    * **`string?_string`**: a string ends at its closing quote, whatever is in it.
    * **`Data.isTextual`**: the data that this is about, among them all settings.
    * **`ReadsBack`**: what has been written with at most so many characters is read, whatever
      follows it. It holds for values, items and entries by turns (`readsBack`).
    * **`read?_write`**: so it is for whole texts. -/

namespace Marginalia

/-! ## Section 1: Texts, lists and tables -/

namespace Data

mutual

/-- The data is made of texts, lists and tables. -/
def isTextual : Data → Bool
  | .text _   => true
  | .list ds  => areTextual ds
  | .table es => haveTextual es
  | _         => false

/-- The items are made of texts, lists and tables. -/
def areTextual : List Data → Bool
  | []      => true
  | d :: ds => isTextual d && areTextual ds

/-- The values of the entries are made of texts, lists and tables. -/
def haveTextual : List (Text × Data) → Bool
  | []           => true
  | (_, d) :: es => isTextual d && haveTextual es

end

end Data

namespace Json

open Data (isTextual areTextual haveTextual)

/-! ## Section 2: Strings -/

/-- The four digits of a control character stand for it. -/
theorem hex4_of_lt {n : Nat} (h : n < 0x20) :
    ∃ a b c d, hex4 n = [a, b, c, d] ∧ hex4? a b c d = some n := by
  interval_cases n <;> exact ⟨_, _, _, _, rfl, rfl⟩

/-- A control character is read back from its digits. -/
theorem string?_escapeControl (fuel : Nat) {c : Char} (hcontrol : c.toNat < 0x20)
    (s : List Char) :
    string? (fuel + 1) ('\\' :: 'u' :: hex4 c.toNat ++ s) = (string? fuel s).map (consChar c) := by
  obtain ⟨a, b, c₃, c₄, hdigits, hvalue⟩ := hex4_of_lt hcontrol
  rw [hdigits]
  show ((hex4? a b c₃ c₄).bind fun high => _) = _
  -- it is no half of a pair
  have hhigh : ¬ (0xD800 ≤ c.toNat ∧ c.toNat < 0xDC00) := by omega
  have hlow : ¬ (0xDC00 ≤ c.toNat ∧ c.toNat < 0xE000) := by omega
  rw [hvalue, Option.bind_some, if_neg hhigh, if_neg hlow, Char.ofNat_toNat]
  rfl

/-- A character that needs no escape stands for itself. -/
theorem string?_cons_plain (fuel : Nat) {c : Char} (hquote : c ≠ '"') (hback : c ≠ '\\')
    (hcontrol : ¬ c.toNat < 0x20) (s : List Char) :
    string? (fuel + 1) (c :: s) = (string? fuel s).map (consChar c) := by
  conv_lhs => unfold string?
  split
  · next heq => exact absurd heq (by simp)
  · next heq => exact absurd (List.cons.inj heq).1 hquote
  · next heq => exact absurd (List.cons.inj heq).1 hback
  · next heq => exact absurd (List.cons.inj heq).1 hback
  · next heq =>
    obtain ⟨rfl, rfl⟩ := List.cons.inj heq
    rw [if_neg (by simp [hback, hcontrol])]

/-- A character of a string is read back. -/
theorem string?_stringChar (fuel : Nat) (c : Char) (s : List Char) :
    string? (fuel + 1) (stringChar c ++ s) = (string? fuel s).map (consChar c) := by
  unfold stringChar
  by_cases hquote : c = '"'
  · rw [if_pos hquote, hquote]
    rfl
  rw [if_neg hquote]
  by_cases hback : c = '\\'
  · rw [if_pos hback, hback]
    rfl
  rw [if_neg hback]
  by_cases hfeed : c = '\n'
  · rw [if_pos hfeed, hfeed]
    rfl
  rw [if_neg hfeed]
  by_cases hreturn : c = '\r'
  · rw [if_pos hreturn, hreturn]
    rfl
  rw [if_neg hreturn]
  by_cases htab : c = '\t'
  · rw [if_pos htab, htab]
    rfl
  rw [if_neg htab]
  by_cases height : c = Char.ofNat 8
  · rw [if_pos height, height]
    rfl
  rw [if_neg height]
  by_cases htwelve : c = Char.ofNat 12
  · rw [if_pos htwelve, htwelve]
    rfl
  rw [if_neg htwelve]
  by_cases hcontrol : c.toNat < 0x20
  · rw [if_pos hcontrol]
    exact string?_escapeControl fuel hcontrol s
  · rw [if_neg hcontrol]
    exact string?_cons_plain fuel hquote hback hcontrol s

/-- The text of a string is read back, up to its closing quote. -/
theorem string?_string (t : Text) (rest : List Char) {fuel : Nat} (hfuel : t.length < fuel) :
    string? fuel (t.flatMap stringChar ++ '"' :: rest) = some (some t, rest) := by
  induction t generalizing fuel with
  | nil =>
    obtain ⟨fuel, rfl⟩ := Nat.exists_eq_succ_of_ne_zero (Nat.ne_of_gt hfuel)
    rfl
  | cons c t ih =>
    obtain ⟨fuel, rfl⟩ := Nat.exists_eq_succ_of_ne_zero (Nat.ne_of_gt (Nat.zero_lt_of_lt hfuel))
    rw [List.flatMap_cons, List.append_assoc, Nat.succ_eq_add_one, string?_stringChar,
      ih (by simpa using hfuel)]
    rfl

theorem length_le_flatMap_stringChar (t : Text) : t.length ≤ (t.flatMap stringChar).length := by
  induction t with
  | nil => exact Nat.le_refl 0
  | cons c t ih =>
    have hone : 1 ≤ (stringChar c).length := by
      unfold stringChar
      split_ifs <;> simp
    rw [List.flatMap_cons, List.length_append, List.length_cons]
    omega

theorem length_le_key (t : Text) (s : List Char) :
    t.length ≤ (t.flatMap stringChar ++ '"' :: s).length := by
  have hle := length_le_flatMap_stringChar t
  rw [List.length_append]
  omega

/-! ## Section 3: Blanks -/

theorem skip_cons_of_not_isSpace {c : Char} (h : isSpace c = false) (s : List Char) :
    skip (c :: s) = c :: s := by
  unfold skip
  rw [List.dropWhile_cons_of_neg (by simp [h])]

theorem skip_space (s : List Char) : skip (' ' :: s) = skip s :=
  List.dropWhile_cons_of_pos rfl

theorem skip_newline (level : Nat) (s : List Char) : skip (newline level ++ s) = skip s := by
  unfold skip newline
  rw [List.cons_append, List.dropWhile_cons_of_pos rfl]
  induction 2 * level with
  | zero => rfl
  | succ n ih =>
    rw [List.replicate_succ, List.cons_append, List.dropWhile_cons_of_pos rfl, ih]

theorem skip_skip (s : List Char) : skip (skip s) = skip s := by
  exact List.dropWhile_idempotent isSpace s

/-- Blanks before a value do not count. -/
theorem value?_skip (fuel : Nat) (s : List Char) : value? fuel (skip s) = value? fuel s := by
  cases fuel with
  | zero => rfl
  | succ fuel =>
    unfold value?
    rw [skip_skip]

theorem items?_skip (fuel : Nat) (s : List Char) : items? fuel (skip s) = items? fuel s := by
  cases fuel with
  | zero => rfl
  | succ fuel =>
    unfold items?
    rw [value?_skip]

theorem entries?_skip (fuel : Nat) (s : List Char) :
    entries? fuel (skip s) = entries? fuel s := by
  cases fuel with
  | zero => rfl
  | succ fuel =>
    unfold entries?
    rw [skip_skip]

/-! ## Section 4: Values -/

/-- Such data begins with a quote or an opening bracket. -/
theorem exists_value_eq_cons {d : Data} (h : isTextual d = true) (level : Nat) :
    ∃ c s, value level d = c :: s ∧ isSpace c = false ∧ c ≠ ']' := by
  cases d with
  | text t => exact ⟨_, _, rfl, rfl, by decide⟩
  | list ds =>
    unfold value bracketed
    split
    · exact ⟨_, _, rfl, rfl, by decide⟩
    · exact ⟨_, _, rfl, rfl, by decide⟩
  | table es =>
    unfold value bracketed
    split
    · exact ⟨_, _, rfl, rfl, by decide⟩
    · exact ⟨_, _, rfl, rfl, by decide⟩
  | null => exact absurd h (by simp [isTextual])
  | bool b => exact absurd h (by simp [isTextual])
  | int n => exact absurd h (by simp [isTextual])
  | literal s => exact absurd h (by simp [isTextual])

theorem items_cons (level : Nat) (d : Data) (ds : List Data) :
    items level true (d :: ds) = newline level ++ (value level d ++ items level false ds) := by
  rw [items]
  simp [separator]

theorem items_false_cons (level : Nat) (d : Data) (ds : List Data) :
    items level false (d :: ds) = ',' :: items level true (d :: ds) := by
  rw [items_cons, items]
  simp [separator]

theorem entries_cons (level : Nat) (k : Text) (d : Data) (es : List (Text × Data)) :
    entries level true ((k, d) :: es) =
      newline level ++ ('"' :: (k.flatMap stringChar ++ '"' :: ':' :: ' ' ::
        (value level d ++ entries level false es))) := by
  rw [entries]
  simp [separator, string]

theorem entries_false_cons (level : Nat) (e : Text × Data) (es : List (Text × Data)) :
    entries level false (e :: es) = ',' :: entries level true (e :: es) := by
  obtain ⟨k, d⟩ := e
  rw [entries_cons, entries]
  simp [separator, string]

theorem value_list_cons (level : Nat) (d : Data) (ds : List Data) :
    value level (.list (d :: ds)) =
      '[' :: (items (level + 1) true (d :: ds) ++ (newline level ++ [']'])) := by
  simp [value, bracketed, items_cons, newline]

theorem value_table_cons (level : Nat) (e : Text × Data) (es : List (Text × Data)) :
    value level (.table (e :: es)) =
      '\x7b' :: (entries (level + 1) true (e :: es) ++ (newline level ++ ['\x7d'])) := by
  obtain ⟨k, d⟩ := e
  simp [value, bracketed, entries_cons, newline]

/-- What has been written with at most `fuel` characters is read, whatever follows it. Items
    are followed by the bracket that closes their list, and entries by the brace that closes
    their table. -/
structure ReadsBack (fuel : Nat) : Prop where
  value : ∀ level d rest, isTextual d = true → (Json.value level d).length ≤ fuel →
    value? fuel (Json.value level d ++ rest) = some (d, rest)
  items : ∀ level below d ds rest, areTextual (d :: ds) = true →
    (Json.items level true (d :: ds)).length ≤ fuel →
    items? fuel (Json.items level true (d :: ds) ++ (newline below ++ ']' :: rest)) =
      some (d :: ds, rest)
  entries : ∀ level below e es rest, haveTextual (e :: es) = true →
    (Json.entries level true (e :: es)).length ≤ fuel →
    entries? fuel (Json.entries level true (e :: es) ++ (newline below ++ '\x7d' :: rest)) =
      some (e :: es, rest)

/-- Nothing is written with no characters. -/
theorem readsBack_zero : ReadsBack 0 := by
  refine ⟨?_, ?_, ?_⟩
  · intro level d rest h hlength
    obtain ⟨c, s, hvalue, -⟩ := exists_value_eq_cons h level
    rw [hvalue] at hlength
    exact absurd hlength (by simp)
  · intro level below d ds rest h hlength
    rw [items_cons] at hlength
    exact absurd hlength (by simp [newline])
  · intro level below e es rest h hlength
    rw [entries_cons] at hlength
    exact absurd hlength (by simp [newline])

namespace ReadsBack

variable {fuel : Nat}

/-- The first item is a value, and others follow behind a comma. -/
theorem items_succ (h : ReadsBack fuel) (level below : Nat) (d : Data) (ds : List Data)
    (rest : List Char) (htextual : areTextual (d :: ds) = true)
    (hlength : (Json.items level true (d :: ds)).length ≤ fuel + 1) :
    items? (fuel + 1) (Json.items level true (d :: ds) ++ (newline below ++ ']' :: rest)) =
      some (d :: ds, rest) := by
  rw [areTextual, Bool.and_eq_true] at htextual
  rw [items_cons] at hlength ⊢
  simp only [List.length_append, newline, List.length_cons] at hlength
  have hfirst : value? fuel (newline level ++ (Json.value level d ++ Json.items level false ds) ++
      (newline below ++ ']' :: rest)) =
        some (d, Json.items level false ds ++ (newline below ++ ']' :: rest)) := by
    rw [← value?_skip, List.append_assoc, skip_newline, value?_skip, List.append_assoc]
    exact h.value level d _ htextual.1 (by omega)
  unfold items?
  rw [hfirst, Option.bind_some]
  -- the next character says whether another item follows
  cases ds with
  | nil =>
    have hclose : skip (Json.items level false [] ++ (newline below ++ ']' :: rest)) =
        ']' :: rest := by
      rw [Json.items, List.nil_append, skip_newline, skip_cons_of_not_isSpace rfl]
    simp only [hclose]
  | cons e ds =>
    have hcomma : isSpace ',' = false := rfl
    rw [items_false_cons] at hlength ⊢
    simp only [List.cons_append, skip_cons_of_not_isSpace hcomma]
    rw [List.length_cons] at hlength
    rw [h.items level below e ds rest htextual.2 (by omega)]
    rfl

/-- The first entry is a key and a value, and others follow behind a comma. -/
theorem entries_succ (h : ReadsBack fuel) (level below : Nat) (e : Text × Data)
    (es : List (Text × Data)) (rest : List Char) (htextual : haveTextual (e :: es) = true)
    (hlength : (Json.entries level true (e :: es)).length ≤ fuel + 1) :
    entries? (fuel + 1) (Json.entries level true (e :: es) ++ (newline below ++ '\x7d' :: rest)) =
      some (e :: es, rest) := by
  obtain ⟨k, d⟩ := e
  rw [haveTextual, Bool.and_eq_true] at htextual
  rw [entries_cons] at hlength ⊢
  simp only [List.length_append, newline, List.length_cons] at hlength
  have hopen : isSpace '"' = false := rfl
  have hcolon : isSpace ':' = false := rfl
  have hcomma : isSpace ',' = false := rfl
  -- what follows the key, and what follows the value
  generalize htail : Json.entries level false es ++ (newline below ++ '\x7d' :: rest) = tail
  have hkey := string?_string k (':' :: ' ' :: (Json.value level d ++ tail))
    (Nat.lt_succ_of_le (length_le_key k (':' :: ' ' :: (Json.value level d ++ tail))))
  have hvalue : value? fuel (' ' :: (Json.value level d ++ tail)) = some (d, tail) := by
    rw [← value?_skip, skip_space, value?_skip]
    exact h.value level d tail htextual.1 (by omega)
  have hstart : skip (newline level ++ ('"' :: (k.flatMap stringChar ++ '"' :: ':' :: ' ' ::
      (Json.value level d ++ Json.entries level false es))) ++
        (newline below ++ '\x7d' :: rest)) =
      '"' :: (k.flatMap stringChar ++ '"' :: ':' :: ' ' :: (Json.value level d ++ tail)) := by
    rw [List.append_assoc, skip_newline, List.cons_append, skip_cons_of_not_isSpace hopen, ← htail]
    simp only [List.append_assoc, List.cons_append]
  unfold entries?
  simp only [hstart, hkey, Option.bind_some, skip_cons_of_not_isSpace hcolon, hvalue]
  -- the next character says whether another entry follows
  cases es with
  | nil =>
    have hclose : skip tail = '\x7d' :: rest := by
      rw [← htail, Json.entries, List.nil_append, skip_newline, skip_cons_of_not_isSpace rfl]
    simp only [hclose]
  | cons e es =>
    rw [entries_false_cons, List.length_cons] at hlength
    rw [entries_false_cons, List.cons_append] at htail
    rw [← htail]
    simp only [skip_cons_of_not_isSpace hcomma]
    rw [h.entries level below e es rest htextual.2 (by omega)]
    rfl

theorem list_succ (h : ReadsBack fuel) (level : Nat) (d : Data) (ds : List Data)
    (rest : List Char) (htextual : areTextual (d :: ds) = true)
    (hlength : (Json.value level (.list (d :: ds))).length ≤ fuel + 1) :
    value? (fuel + 1) (Json.value level (.list (d :: ds)) ++ rest) =
      some (.list (d :: ds), rest) := by
  rw [value_list_cons, List.length_cons, List.length_append] at hlength
  have hopen : isSpace '[' = false := rfl
  have hinner := h.items (level + 1) level d ds rest htextual (by omega)
  -- the list does not end at once
  rw [areTextual, Bool.and_eq_true] at htextual
  obtain ⟨c, s, hfirst, hspace, hc⟩ := exists_value_eq_cons htextual.1 (level + 1)
  have hstart : skip (Json.items (level + 1) true (d :: ds) ++ (newline level ++ ']' :: rest)) =
      c :: (s ++ (Json.items (level + 1) false ds ++ (newline level ++ ']' :: rest))) := by
    rw [items_cons, List.append_assoc, skip_newline, hfirst, List.append_assoc, List.cons_append,
      skip_cons_of_not_isSpace hspace]
  rw [← items?_skip, hstart] at hinner
  rw [value_list_cons, List.cons_append, List.append_assoc, List.append_assoc,
    List.singleton_append]
  unfold value?
  simp only [skip_cons_of_not_isSpace hopen, hstart]
  split
  · next heq => exact absurd (List.cons.inj heq).1 hc
  · rw [hinner]
    rfl

theorem table_succ (h : ReadsBack fuel) (level : Nat) (e : Text × Data) (es : List (Text × Data))
    (rest : List Char) (htextual : haveTextual (e :: es) = true)
    (hlength : (Json.value level (.table (e :: es))).length ≤ fuel + 1) :
    value? (fuel + 1) (Json.value level (.table (e :: es)) ++ rest) =
      some (.table (e :: es), rest) := by
  rw [value_table_cons, List.length_cons, List.length_append] at hlength
  have hopen : isSpace '\x7b' = false := rfl
  have hquote : isSpace '"' = false := rfl
  have hinner := h.entries (level + 1) level e es rest htextual (by omega)
  -- the table does not end at once
  obtain ⟨s, hstart⟩ : ∃ s, skip (Json.entries (level + 1) true (e :: es) ++
      (newline level ++ '\x7d' :: rest)) = '"' :: s := by
    obtain ⟨k, d⟩ := e
    rw [entries_cons, List.append_assoc, skip_newline, List.cons_append,
      skip_cons_of_not_isSpace hquote]
    exact ⟨_, rfl⟩
  rw [← entries?_skip, hstart] at hinner
  rw [value_table_cons, List.cons_append, List.append_assoc, List.append_assoc,
    List.singleton_append]
  unfold value?
  simp only [skip_cons_of_not_isSpace hopen, hstart]
  show (entries? fuel ('"' :: s)).map (fun r => (Data.table r.1, r.2)) = _
  rw [hinner]
  rfl

/-- A value is a string, or what is between two brackets. -/
theorem value_succ (h : ReadsBack fuel) (level : Nat) (d : Data) (rest : List Char)
    (htextual : isTextual d = true) (hlength : (Json.value level d).length ≤ fuel + 1) :
    value? (fuel + 1) (Json.value level d ++ rest) = some (d, rest) := by
  cases d with
  | text t =>
    have hquote : isSpace '"' = false := rfl
    have hvalue : Json.value level (.text t) ++ rest =
        '"' :: (t.flatMap stringChar ++ '"' :: rest) := by
      simp [Json.value, string]
    have hstring := string?_string t rest (Nat.lt_succ_of_le (length_le_key t rest))
    unfold value?
    simp only [hvalue, skip_cons_of_not_isSpace hquote, hstring, Option.map_some,
      Option.getD_some]
  | list ds =>
    cases ds with
    | nil => rfl
    | cons d ds => exact h.list_succ level d ds rest htextual hlength
  | table es =>
    cases es with
    | nil => rfl
    | cons e es => exact h.table_succ level e es rest htextual hlength
  | null => exact absurd htextual (by simp [isTextual])
  | bool b => exact absurd htextual (by simp [isTextual])
  | int n => exact absurd htextual (by simp [isTextual])
  | literal s => exact absurd htextual (by simp [isTextual])

theorem succ (h : ReadsBack fuel) : ReadsBack (fuel + 1) :=
  ⟨h.value_succ, h.items_succ, h.entries_succ⟩

end ReadsBack

theorem readsBack (fuel : Nat) : ReadsBack fuel := by
  induction fuel with
  | zero => exact readsBack_zero
  | succ fuel ih => exact ih.succ

/-- A whole text is read back. -/
theorem read?_write {d : Data} (h : isTextual d = true) : read? (write d) = some d := by
  have hvalue : value? ((write d).length + 1) (write d ++ []) = some (d, []) :=
    (readsBack ((write d).length + 1)).value 0 d [] h (Nat.le_succ _)
  rw [List.append_nil] at hvalue
  unfold read?
  rw [hvalue]
  rfl

end Json

end Marginalia
