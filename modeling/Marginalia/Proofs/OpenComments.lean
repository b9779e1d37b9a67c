import Mathlib.Data.List.Induction
import Marginalia.Proofs.Grammar
import Marginalia.Region

/-! # Comments that are open between two lines

    The comment around a line is searched for backwards, from its last opener. Read
    forwards, the same search is a walk over the lines that only remembers whether a
    comment is open:

    * **`Grammar.openAfter`**: one step of the walk.
    * **`Region.crosses`**: a comment that is open above line `k` is closed on that line
      or below, so that a line put there would be inside of it.
    * **`Region.crosses_succ_iff`**: the comment around a line goes on below it exactly
      if one crosses into the next line. -/

namespace Marginalia

open Text

/-! ## Section 1: The walk -/

namespace Grammar

variable {g : Grammar}

/-- Whether a comment is open at the end of a line, given whether one is at its
    beginning. -/
def openAfter (g : Grammar) (before : Bool) (text : List Char) : Bool :=
  match afterLast? g.opener text with
  | some rest => !occursIn g.closer rest
  | none      => before && !occursIn g.closer text

/-- Whether a comment is open at the end of some lines. -/
def openAfterAll (g : Grammar) (before : Bool) (texts : List (List Char)) : Bool :=
  texts.foldl g.openAfter before

@[simp] theorem openAfterAll_nil (before : Bool) : g.openAfterAll before [] = before := rfl

@[simp] theorem openAfterAll_cons (before : Bool) (t : List Char) (ts : List (List Char)) :
    g.openAfterAll before (t :: ts) = g.openAfterAll (g.openAfter before t) ts := rfl

theorem openAfterAll_append (before : Bool) (ts us : List (List Char)) :
    g.openAfterAll before (ts ++ us) = g.openAfterAll (g.openAfterAll before ts) us :=
  List.foldl_append

/-- A blank line leaves everything as it is. -/
theorem openAfter_of_allBlank (before : Bool) {t : List Char} (h : allBlank t = true) :
    g.openAfter before t = before := by
  have ho := not_occursIn_opener_of_allBlank (g := g) h
  have hc := not_occursIn_closer_of_allBlank (g := g) h
  unfold openAfter
  rw [afterLast?_eq_none_iff.2 ho, hc]
  simp

@[simp] theorem openAfter_nil (before : Bool) : g.openAfter before [] = before :=
  openAfter_of_allBlank before rfl

@[simp] theorem not_occursIn_closer_nil (g : Grammar) : occursIn g.closer [] = false :=
  not_occursIn_closer_of_allBlank rfl

/-- Lines without openers can only close a comment. -/
theorem openAfterAll_of_no_opener (before : Bool) {ts : List (List Char)}
    (h : ∀ t ∈ ts, afterLast? g.opener t = none) :
    g.openAfterAll before ts = (before && !ts.any (occursIn g.closer)) := by
  induction ts generalizing before with
  | nil => simp
  | cons t ts ih =>
    have ht := h t List.mem_cons_self
    have hstep : g.openAfter before t = (before && !occursIn g.closer t) := by
      unfold openAfter
      rw [ht]
    rw [openAfterAll_cons, ih _ (fun u hu => h u (List.mem_cons_of_mem _ hu)), hstep,
      List.any_cons]
    cases before <;> cases occursIn g.closer t <;> simp

end Grammar

/-! ## Section 2: Crossing from one line to the next -/

namespace Region

variable {g : Grammar}

/-- A comment that is open above line `k` is closed on this line or below. -/
def crosses (g : Grammar) (before : Bool) (texts : List (List Char)) (k : Nat) : Bool :=
  g.openAfterAll before (texts.take k) && (texts.drop k).any (occursIn g.closer)

theorem crosses_zero (before : Bool) (texts : List (List Char)) :
    crosses g before texts 0 = (before && texts.any (occursIn g.closer)) := by
  simp [crosses]

@[simp] theorem crosses_cons_succ (before : Bool) (t : List Char) (ts : List (List Char))
    (k : Nat) : crosses g before (t :: ts) (k + 1) = crosses g (g.openAfter before t) ts k := by
  simp [crosses]

theorem any_insertIdx_nil (texts : List (List Char)) (k : Nat) :
    (texts.insertIdx k []).any (occursIn g.closer) = texts.any (occursIn g.closer) := by
  induction texts generalizing k with
  | nil => cases k <;> simp
  | cons t ts ih =>
    cases k with
    | zero => simp
    | succ k => simp [ih]

/-- An empty line does not matter to what happens above it. -/
theorem crosses_insertIdx_of_le (before : Bool) {texts : List (List Char)} {j k : Nat}
    (hj : j ≤ k) : crosses g before (texts.insertIdx k []) j = crosses g before texts j := by
  induction texts generalizing before j k with
  | nil =>
    cases j with
    | zero => rw [crosses_zero, crosses_zero, any_insertIdx_nil]
    | succ j =>
      obtain ⟨k, rfl⟩ : ∃ m, k = m + 1 := ⟨k - 1, by omega⟩
      rfl
  | cons t ts ih =>
    cases j with
    | zero => rw [crosses_zero, crosses_zero, any_insertIdx_nil]
    | succ j =>
      obtain ⟨k, rfl⟩ : ∃ m, k = m + 1 := ⟨k - 1, by omega⟩
      rw [List.insertIdx_succ_cons, crosses_cons_succ, crosses_cons_succ]
      exact ih _ (by omega)

/-- An empty line moves down what happens below it. -/
theorem crosses_insertIdx_of_ge (before : Bool) {texts : List (List Char)} {j k : Nat}
    (hk : k ≤ texts.length) (hj : k ≤ j) :
    crosses g before (texts.insertIdx k []) (j + 1) = crosses g before texts j := by
  induction texts generalizing before j k with
  | nil =>
    obtain rfl : k = 0 := by simpa using hk
    simp
  | cons t ts ih =>
    cases k with
    | zero => simp
    | succ k =>
      obtain ⟨j, rfl⟩ : ∃ m, j = m + 1 := ⟨j - 1, by omega⟩
      rw [List.insertIdx_succ_cons, crosses_cons_succ, crosses_cons_succ]
      exact ih _ (by simpa using hk) (by omega)

/-! ## Section 3: The search for the comment around a line -/

/-- Where the backward search ends: there is no opener, or the last line with one is
    between lines `as` above it and lines `bs` without any. -/
theorem lastOpener?_cases (g : Grammar) (texts : List (List Char)) (i : Nat) :
    ((∀ t ∈ texts.take (i + 1), afterLast? g.opener t = none) ∧
      lastOpener? g texts i = none) ∨
    ∃ as t bs rest, texts.take (i + 1) = as ++ t :: bs ∧ afterLast? g.opener t = some rest ∧
      (∀ b ∈ bs, afterLast? g.opener b = none) ∧
      lastOpener? g texts i = some (as.length, rest) := by
  unfold lastOpener?
  generalize texts.take (i + 1) = ls
  induction ls using List.reverseRecOn with
  | nil => simp
  | append_singleton ls l ih =>
    rw [List.zipIdx_append, List.reverse_append]
    cases hl : afterLast? g.opener l with
    | some rest =>
      right
      refine ⟨ls, l, [], rest, rfl, hl, by simp, ?_⟩
      simp [hl]
    | none =>
      rcases ih with ⟨hnone, hsearch⟩ | ⟨as, t, bs, rest, rfl, ht, hbs, hsearch⟩
      · left
        refine ⟨?_, ?_⟩
        · intro t ht
          rcases List.mem_append.1 ht with ht | ht
          · exact hnone t ht
          · rw [List.mem_singleton.1 ht]
            exact hl
        · simpa [hl] using hsearch
      · right
        refine ⟨as, t, bs ++ [l], rest, by simp, ht, ?_, ?_⟩
        · intro b hb
          rcases List.mem_append.1 hb with hb | hb
          · exact hbs b hb
          · rw [List.mem_singleton.1 hb]
            exact hl
        · simpa [hl] using hsearch

/-- The backward search ends at the line with an opener below which there are no others. -/
theorem lastOpener?_eq_some_iff {texts : List (List Char)} {i o : Nat} {rest : List Char} :
    lastOpener? g texts i = some (o, rest) ↔
      o ≤ i ∧ (∃ t, texts[o]? = some t ∧ afterLast? g.opener t = some rest) ∧
        ∀ k t, o < k ∧ k ≤ i → texts[k]? = some t → afterLast? g.opener t = none := by
  have htake : ∀ {k}, k ≤ i → (texts.take (i + 1))[k]? = texts[k]? := by
    intro k hk
    rw [List.getElem?_take_of_lt (by omega)]
  rcases lastOpener?_cases g texts i with
    ⟨hnone, hsearch⟩ | ⟨as, t, bs, rest', hsplit, ht, hbs, hsearch⟩
  · rw [hsearch]
    constructor
    · intro h
      exact absurd h (by simp)
    · intro h
      obtain ⟨hle, ⟨t, hget, ht⟩, -⟩ := h
      rw [← htake hle] at hget
      exact absurd (hnone t (List.mem_of_getElem? hget)) (by simp [ht])
  · have hopener : texts[as.length]? = some t ∧ as.length ≤ i := by
      have hget : (texts.take (i + 1))[as.length]? = some t := by
        rw [hsplit]
        simp
      have hlt : as.length < (texts.take (i + 1)).length :=
        (List.getElem?_eq_some_iff.1 hget).1
      have hle : as.length ≤ i := by
        rw [List.length_take] at hlt
        omega
      exact ⟨(htake hle).symm.trans hget, hle⟩
    have hbelow : ∀ k u, as.length < k ∧ k ≤ i → texts[k]? = some u →
        afterLast? g.opener u = none := by
      intro k u hk hu
      rw [← htake hk.2, hsplit, List.getElem?_append_right (by omega)] at hu
      obtain ⟨m, hm⟩ : ∃ m, k - as.length = m + 1 := ⟨k - as.length - 1, by omega⟩
      rw [hm, List.getElem?_cons_succ] at hu
      exact hbs u (List.mem_of_getElem? hu)
    rw [hsearch]
    constructor
    · intro h
      obtain ⟨rfl, rfl⟩ := Prod.mk.inj (Option.some.inj h)
      exact ⟨hopener.2, ⟨t, hopener.1, ht⟩, hbelow⟩
    · intro h
      obtain ⟨hle, ⟨u, hu, hrest⟩, hlast⟩ := h
      -- neither of the two lines with openers is below the other
      have hnot : ¬ o < as.length := fun hlt =>
        absurd (hlast _ _ ⟨hlt, hopener.2⟩ hopener.1) (by simp [ht])
      have hnot' : ¬ as.length < o := fun hlt =>
        absurd (hbelow _ _ ⟨hlt, hle⟩ hu) (by simp [hrest])
      obtain rfl : o = as.length := by omega
      obtain rfl : t = u := Option.some.inj (hopener.1.symm.trans hu)
      rw [Option.some.inj (ht.symm.trans hrest)]

/-- The forward search ends at the first line with a closer. -/
theorem nextCloser?_eq_some_iff {texts : List (List Char)} {start c : Nat} :
    nextCloser? g texts start = some c ↔
      start ≤ c ∧ (∃ t, texts[c]? = some t ∧ occursIn g.closer t = true) ∧
        ∀ k t, start ≤ k ∧ k < c → texts[k]? = some t → occursIn g.closer t = false := by
  unfold nextCloser?
  rw [Option.map_eq_some_iff]
  constructor
  · intro h
    obtain ⟨j, hj, rfl⟩ := h
    obtain ⟨hlt, hfound, hbefore⟩ := List.findIdx?_eq_some_iff_getElem.1 hj
    rw [List.length_drop] at hlt
    rw [List.getElem_drop] at hfound
    refine ⟨by omega, ⟨_, List.getElem?_eq_getElem (by omega), hfound⟩, ?_⟩
    intro k t hk ht
    have hno := hbefore (k - start) (by omega)
    obtain ⟨-, rfl⟩ := List.getElem?_eq_some_iff.1 ht
    simpa [List.getElem_drop, Nat.add_sub_cancel' hk.1] using hno
  · intro h
    obtain ⟨hle, ⟨t, ht, hfound⟩, hbefore⟩ := h
    obtain ⟨hlt, rfl⟩ := List.getElem?_eq_some_iff.1 ht
    refine ⟨c - start, List.findIdx?_eq_some_iff_getElem.2 ⟨?_, ?_, ?_⟩, by omega⟩
    · rw [List.length_drop]
      omega
    · simpa [List.getElem_drop, Nat.add_sub_cancel' hle] using hfound
    · intro j hj
      rw [List.getElem_drop, Bool.not_eq_true]
      exact hbefore (start + j) _ (by omega) (List.getElem?_eq_getElem (by omega))

/-- The last line that opens a comment decides whether one is open. -/
theorem openAfterAll_of_last_opener {as bs : List (List Char)} {t rest : List Char}
    (ht : afterLast? g.opener t = some rest) (hbs : ∀ b ∈ bs, afterLast? g.opener b = none)
    (before : Bool) :
    g.openAfterAll before (as ++ t :: bs) =
      (!occursIn g.closer rest && !bs.any (occursIn g.closer)) := by
  have hstep : ∀ b, g.openAfter b t = !occursIn g.closer rest := by
    intro b
    unfold Grammar.openAfter
    rw [ht]
  rw [Grammar.openAfterAll_append, Grammar.openAfterAll_cons, hstep,
    Grammar.openAfterAll_of_no_opener _ hbs]

/-- The line on which a comment closes that opens on line `o`, with `rest` behind its
    opener. -/
def closing? (g : Grammar) (texts : List (List Char)) (o : Nat) (rest : List Char) : Option Nat :=
  if occursIn g.closer rest then some o else nextCloser? g texts (o + 1)

/-- The search for the comment around a line, step by step. -/
theorem enclosing_eq_bind (g : Grammar) (texts : List (List Char)) (i : Nat) :
    enclosing g texts i = (lastOpener? g texts i).bind fun o =>
      (closing? g texts o.1 o.2).bind fun c => if i ≤ c then some ⟨o.1, c⟩ else none := by
  unfold enclosing closing?
  cases lastOpener? g texts i with
  | none => rfl
  | some o =>
    simp only [Option.bind_eq_bind, Option.bind_some]
    split <;> rfl

theorem enclosing_eq_some_iff {texts : List (List Char)} {i : Nat} {r : Region} :
    enclosing g texts i = some r ↔
      ∃ rest, lastOpener? g texts i = some (r.opensAt, rest) ∧
        closing? g texts r.opensAt rest = some r.closesAt ∧ i ≤ r.closesAt := by
  rw [enclosing_eq_bind]
  constructor
  · intro h
    obtain ⟨⟨o, rest⟩, ho, h⟩ := Option.bind_eq_some_iff.1 h
    obtain ⟨c, hc, h⟩ := Option.bind_eq_some_iff.1 h
    split at h
    · next hle =>
      obtain rfl := Option.some.inj h
      exact ⟨rest, ho, hc, hle⟩
    · exact absurd h (by simp)
  · intro hex
    obtain ⟨rest, ho, hc, hle⟩ := hex
    simp [ho, hc, hle]

/-- A comment around a line begins on or above it, and ends in the document. -/
theorem enclosing_bounds {texts : List (List Char)} {i : Nat} {r : Region}
    (h : enclosing g texts i = some r) :
    r.opensAt ≤ i ∧ i ≤ r.closesAt ∧ r.closesAt < texts.length := by
  obtain ⟨rest, ho, hc, hle⟩ := enclosing_eq_some_iff.1 h
  obtain ⟨hopens, ⟨t, ht, -⟩, -⟩ := lastOpener?_eq_some_iff.1 ho
  refine ⟨hopens, hle, ?_⟩
  unfold closing? at hc
  split at hc
  · rw [← Option.some.inj hc]
    exact (List.getElem?_eq_some_iff.1 ht).1
  · obtain ⟨-, ⟨u, hu, -⟩, -⟩ := nextCloser?_eq_some_iff.1 hc
    exact (List.getElem?_eq_some_iff.1 hu).1

/-- What is looked for is found behind the first of two lists exactly if it is not in
    that one but in the other. -/
theorem exists_findIdx?_append_iff {α : Type*} (p : α → Bool) (bs ds : List α) :
    (∃ j, (bs ++ ds).findIdx? p = some j ∧ bs.length ≤ j) ↔
      bs.any p = false ∧ ds.any p = true := by
  rw [List.findIdx?_append, ← List.findIdx?_isSome, ← List.findIdx?_isSome]
  cases hbs : bs.findIdx? p with
  | some k =>
    obtain ⟨hk, -⟩ := List.findIdx?_eq_some_iff_getElem.1 hbs
    constructor
    · intro hex
      obtain ⟨j, hj, hle⟩ := hex
      obtain rfl : k = j := by simpa using hj
      omega
    · intro hex
      obtain ⟨hno, -⟩ := hex
      exact absurd hno (by simp)
  | none =>
    cases hds : ds.findIdx? p with
    | some k => simp
    | none => simp

/-- A comment closes below line `i` exactly if there is no closer between its opener and
    the end of this line, but one below. -/
theorem exists_closing_below_iff {texts as bs : List (List Char)} {t : List Char} {i : Nat}
    (htake : texts.take (i + 1) = as ++ t :: bs) (hi : i = as.length + bs.length)
    (rest : List Char) :
    (∃ c, closing? g texts as.length rest = some c ∧ i < c) ↔
      (!occursIn g.closer rest && !bs.any (occursIn g.closer)) = true ∧
        (texts.drop (i + 1)).any (occursIn g.closer) = true := by
  -- behind the line of the opener come `bs` and the lines below line `i`
  have hdrop : texts.drop (as.length + 1) = bs ++ texts.drop (i + 1) := by
    conv_lhs => rw [← List.take_append_drop (i + 1) texts, htake]
    simp [List.drop_append]
  unfold closing? nextCloser?
  cases hrest : occursIn g.closer rest with
  | true =>
    constructor
    · intro hex
      obtain ⟨c, hc, hlt⟩ := hex
      obtain rfl : as.length = c := by simpa using hc
      omega
    · intro hex
      obtain ⟨hno, -⟩ := hex
      exact absurd hno (by simp)
  | false =>
    have hsplit := exists_findIdx?_append_iff (occursIn g.closer) bs (texts.drop (i + 1))
    rw [Bool.not_false, Bool.true_and, Bool.not_eq_true', ← hsplit, ← hdrop]
    simp only [Bool.false_eq_true, if_false, Option.map_eq_some_iff]
    constructor
    · intro hex
      obtain ⟨c, ⟨j, hj, rfl⟩, hlt⟩ := hex
      exact ⟨j, hj, by omega⟩
    · intro hex
      obtain ⟨j, hj, hle⟩ := hex
      exact ⟨_, ⟨j, hj, rfl⟩, by omega⟩

/-- The comment around a line goes on below it exactly if one crosses into the next
    line. -/
theorem crosses_succ_iff {texts : List (List Char)} {i : Nat} :
    crosses g false texts (i + 1) = true ↔
      ∃ r, enclosing g texts i = some r ∧ i < r.closesAt := by
  by_cases hlen : i < texts.length
  · simp only [enclosing_eq_some_iff]
    unfold crosses
    rw [Bool.and_eq_true]
    rcases lastOpener?_cases g texts i with
      ⟨hall, hnone⟩ | ⟨as, t, bs, rest, htake, ht, hbs, hsome⟩
    · rw [Grammar.openAfterAll_of_no_opener _ hall, hnone]
      simp
    · have hi : i = as.length + bs.length := by
        have hlen' := congrArg List.length htake
        rw [List.length_take, List.length_append, List.length_cons] at hlen'
        omega
      rw [htake, openAfterAll_of_last_opener ht hbs, ← exists_closing_below_iff htake hi rest,
        hsome]
      constructor
      · intro hex
        obtain ⟨c, hc, hlt⟩ := hex
        exact ⟨⟨as.length, c⟩, ⟨rest, rfl, hc, by simpa using Nat.le_of_lt hlt⟩, hlt⟩
      · intro hex
        obtain ⟨r, ⟨rest', ho, hc, -⟩, hlt⟩ := hex
        obtain ⟨heq, rfl⟩ := Prod.mk.inj (Option.some.inj ho)
        exact ⟨r.closesAt, by rw [heq]; exact hc, hlt⟩
  · -- there is nothing below the last line
    have hdrop : texts.drop (i + 1) = [] := List.drop_eq_nil_of_le (by omega)
    constructor
    · intro h
      simp [crosses, hdrop] at h
    · intro hex
      obtain ⟨r, hr, hlt⟩ := hex
      have := (enclosing_bounds hr).2.2
      omega

/-- The first place that is looked for is still the first one behind some others. -/
theorem findIdx?_drop {α : Type*} {p : α → Bool} {l : List α} {j k : Nat}
    (h : l.findIdx? p = some j) (hk : k ≤ j) : (l.drop k).findIdx? p = some (j - k) := by
  obtain ⟨hlt, hfound, hbefore⟩ := List.findIdx?_eq_some_iff_getElem.1 h
  have hsum : k + (j - k) = j := by omega
  refine List.findIdx?_eq_some_iff_getElem.2 ⟨?_, ?_, ?_⟩
  · rw [List.length_drop]
    omega
  · simpa [hsum] using hfound
  · intro i hi
    simpa using hbefore (k + i) (by omega)

/-- The search for a comment that goes on below line `i` ends with the first closer below. -/
theorem nextCloser?_of_enclosing {texts : List (List Char)} {i : Nat}
    {r : Region} (h : enclosing g texts i = some r) (hlt : i < r.closesAt) :
    nextCloser? g texts (i + 1) = some r.closesAt := by
  obtain ⟨rest, -, hclosing, -⟩ := enclosing_eq_some_iff.1 h
  have hopen := (enclosing_bounds h).1
  unfold closing? at hclosing
  split at hclosing
  · -- a comment that ends on the line of its opener does not go on below
    have := Option.some.inj hclosing
    omega
  · obtain ⟨j, hj, hsum⟩ := Option.map_eq_some_iff.1 hclosing
    -- the search has passed line `i`
    have hpassed := findIdx?_drop hj (k := i - r.opensAt) (by omega)
    have hdrop : r.opensAt + 1 + (i - r.opensAt) = i + 1 := by omega
    rw [List.drop_drop, hdrop] at hpassed
    refine Option.map_eq_some_iff.2 ⟨_, hpassed, ?_⟩
    omega

/-- Where no comment crosses into the next line, the comment around a line, if there is
    one, closes on this line. -/
theorem closesAt_eq_of_crosses_eq_false {texts : List (List Char)} {i : Nat} {r : Region}
    (h : crosses g false texts (i + 1) = false) (hr : enclosing g texts i = some r) :
    r.closesAt = i := by
  have hle := (enclosing_bounds hr).2.1
  by_contra hne
  have hcross : crosses g false texts (i + 1) = true :=
    crosses_succ_iff.2 ⟨r, hr, by omega⟩
  rw [h] at hcross
  exact absurd hcross (by decide)

end Region

end Marginalia
