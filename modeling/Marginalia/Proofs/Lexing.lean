import Marginalia.Proofs.Scanning

/-! # Comments in the order of the text

    A reader who begins at the first line meets comments one after the other: outside of a
    comment the next opener counts, inside of one the first closer behind its opener. The
    search for the comment around a line begins at that line and goes back to the last
    opener, even if this one stands in a comment that was open before.

    * **`Grammar.lex`**, **`Grammar.lexLines`**: the comments that a reader has met, each
      with the lines on which it begins and ends, and the line on which the one began that
      is still open.
    * **`Grammar.mem_lexLines_iff`**: the comment that a reader is inside of at the
      end of a line closes with the first closer below.
    * **`Document.enclosing_iff_lexed`**: where delimiters do not overlap, the search finds
      a comment that goes on below a line exactly if a reader is inside of one there, and
      it closes on the same line. -/

namespace Marginalia

open Text Region

namespace Grammar

variable {g : Grammar}

/-! ## Section 1: One line -/

/-- Reads line `n` from left to right, where `opened` is the line on which the comment
    began that is open, if one is. The result are the comments that are closed, and
    `opened` for what follows. The first `skip` characters belong to a delimiter. -/
def lex (g : Grammar) (n : Nat) : Nat → Option Nat → List Char → List Region × Option Nat
  | _, opened, [] => ([], opened)
  | skip + 1, opened, _ :: s => g.lex n skip opened s
  | 0, none, c :: s =>
    if g.opener.isPrefixOf (c :: s) then g.lex n (g.opener.length - 1) (some n) s
    else g.lex n 0 none s
  | 0, some o, c :: s =>
    if g.closer.isPrefixOf (c :: s) then
      let rest := g.lex n (g.closer.length - 1) none s
      (⟨o, n⟩ :: rest.1, rest.2)
    else g.lex n 0 (some o) s

/-- A reader who keeps the comments is inside of one exactly if a reader who skips them
    is. -/
theorem isSome_lex (n skip : Nat) (opened : Option Nat) (s : List Char) :
    (g.lex n skip opened s).2.isSome = (g.scan skip opened.isSome s).2 := by
  induction s generalizing skip opened with
  | nil => rfl
  | cons c s ih =>
    cases skip with
    | succ skip => exact ih skip opened
    | zero =>
      cases opened with
      | none =>
        simp only [lex, scan, Option.isSome_none]
        split
        · exact ih _ _
        · exact ih _ _
      | some o =>
        simp only [lex, scan, Option.isSome_some]
        split
        · exact ih _ _
        · exact ih _ _

/-- What a reader meets on line `n` closes there. It began there as well, unless it was open
    before. -/
theorem lex_spec (n skip : Nat) (opened : Option Nat) (s : List Char) :
    (∀ r ∈ (g.lex n skip opened s).1, r.closesAt = n ∧ (r.opensAt = n ∨ opened = some r.opensAt)) ∧
      ∀ o, (g.lex n skip opened s).2 = some o → o = n ∨ opened = some o := by
  induction s generalizing skip opened with
  | nil => exact ⟨by simp [lex], fun o ho => .inr ho⟩
  | cons c s ih =>
    cases skip with
    | succ skip => exact ih skip opened
    | zero =>
      cases opened with
      | none =>
        simp only [lex]
        split
        · -- the comment begins here
          obtain ⟨hclosed, hopen⟩ := ih (g.opener.length - 1) (some n)
          refine ⟨fun r hr => ?_, fun o ho => ?_⟩
          · obtain ⟨hline, hfrom⟩ := hclosed r hr
            exact ⟨hline, .inl (hfrom.elim id fun h => (Option.some.inj h).symm)⟩
          · exact .inl ((hopen o ho).elim id fun h => (Option.some.inj h).symm)
        · exact ih 0 none
      | some o =>
        simp only [lex]
        split
        · -- the comment that was open ends here
          obtain ⟨hclosed, hopen⟩ := ih (g.closer.length - 1) none
          refine ⟨fun r hr => ?_, fun o' ho' => ?_⟩
          · rcases List.mem_cons.1 hr with rfl | hr
            · exact ⟨rfl, .inr rfl⟩
            · obtain ⟨hline, hfrom⟩ := hclosed r hr
              exact ⟨hline, .inl (hfrom.resolve_right (by simp))⟩
          · exact .inl ((hopen o' ho').resolve_right (by simp))
        · exact ih 0 (some o)

/-- A line without closers is read inside of the comment that is open. -/
theorem lex_of_no_closer (n o : Nat) {s : List Char} (h : occursIn g.closer s = false) :
    g.lex n 0 (some o) s = ([], some o) := by
  induction s with
  | nil => rfl
  | cons c s ih =>
    rw [occursIn, Bool.or_eq_false_iff] at h
    rw [lex, h.1, if_neg Bool.false_ne_true]
    exact ih h.2

/-- The comment that is open ends at the first closer. All others begin behind it. -/
theorem exists_lex_of_closer (n o : Nat) {s : List Char} (h : occursIn g.closer s = true) :
    ∃ rest, (g.lex n 0 (some o) s).1 = ⟨o, n⟩ :: rest ∧ (∀ r ∈ rest, r.opensAt = n) ∧
      ∀ o', (g.lex n 0 (some o) s).2 = some o' → o' = n := by
  induction s with
  | nil =>
    rw [not_occursIn_closer_nil] at h
    exact absurd h (by decide)
  | cons c s ih =>
    rw [lex]
    split
    · obtain ⟨hclosed, hopen⟩ := lex_spec (g := g) n (g.closer.length - 1) none s
      refine ⟨_, rfl, fun r hr => ?_, fun o' ho' => ?_⟩
      · exact (hclosed r hr).2.resolve_right (by simp)
      · exact (hopen o' ho').resolve_right (by simp)
    · next hno =>
      rw [occursIn, Bool.eq_false_iff.2 hno, Bool.false_or] at h
      exact ih h

/-! ## Section 2: All lines -/

/-- Reads lines one after the other, the first of which is line `n`. -/
def lexLines (g : Grammar) : Nat → Option Nat → List (List Char) → List Region × Option Nat
  | _, opened, [] => ([], opened)
  | n, opened, t :: ts =>
    let line := g.lex n 0 opened t
    let rest := g.lexLines (n + 1) line.2 ts
    (line.1 ++ rest.1, rest.2)

theorem lexLines_append (n : Nat) (opened : Option Nat) (ts us : List (List Char)) :
    g.lexLines n opened (ts ++ us) =
      ((g.lexLines n opened ts).1 ++
          (g.lexLines (n + ts.length) (g.lexLines n opened ts).2 us).1,
        (g.lexLines (n + ts.length) (g.lexLines n opened ts).2 us).2) := by
  induction ts generalizing n opened with
  | nil => rfl
  | cons t ts ih =>
    simp only [List.cons_append, lexLines, ih, List.append_assoc, List.length_cons]
    rw [Nat.add_right_comm n 1, Nat.add_assoc n]

/-- Where delimiters do not overlap, a reader is inside of a comment exactly if the search
    for openers says that one is open. -/
theorem isSome_lexLines (n : Nat) (opened : Option Nat) {ts : List (List Char)}
    (ha : ∀ t ∈ ts, g.Apart t) :
    (g.lexLines n opened ts).2.isSome = g.openAfterAll opened.isSome ts := by
  induction ts generalizing n opened with
  | nil => rfl
  | cons t ts ih =>
    rw [openAfterAll_cons, ← scan_snd_eq_openAfter (ha t List.mem_cons_self), ← isSome_lex n]
    exact ih _ _ fun u hu => ha u (List.mem_cons_of_mem t hu)

/-- What a reader meets from line `n` on closes on the lines that are read. It began on them
    as well, unless it was open before. -/
theorem lexLines_spec (n : Nat) (opened : Option Nat) (ts : List (List Char)) :
    (∀ r ∈ (g.lexLines n opened ts).1,
        r.closesAt < n + ts.length ∧ (n ≤ r.opensAt ∨ opened = some r.opensAt)) ∧
      ∀ o, (g.lexLines n opened ts).2 = some o → n ≤ o ∧ o < n + ts.length ∨ opened = some o := by
  induction ts generalizing n opened with
  | nil => exact ⟨by simp [lexLines], fun o ho => .inr ho⟩
  | cons t ts ih =>
    obtain ⟨hclosed, hopen⟩ := lex_spec (g := g) n 0 opened t
    obtain ⟨hclosed', hopen'⟩ := ih (n + 1) (g.lex n 0 opened t).2
    rw [List.length_cons]
    refine ⟨fun r hr => ?_, fun o ho => ?_⟩
    · rcases List.mem_append.1 hr with hr | hr
      · obtain ⟨hline, hfrom⟩ := hclosed r hr
        exact ⟨by omega, hfrom.imp (fun h => Nat.le_of_eq h.symm) id⟩
      · obtain ⟨hlt, hfrom⟩ := hclosed' r hr
        refine ⟨by omega, ?_⟩
        rcases hfrom with hle | hbefore
        · exact .inl (by omega)
        · exact (hopen _ hbefore).imp (fun h => by omega) id
    · rcases hopen' o ho with ⟨hle, hlt⟩ | hbefore
      · exact .inl ⟨by omega, by omega⟩
      · exact (hopen o hbefore).imp (fun h => by omega) id

/-- Lines without closers are read inside of the comment that is open. -/
theorem lexLines_of_no_closer (n o : Nat) {ts : List (List Char)}
    (h : ts.findIdx? (occursIn g.closer) = none) : g.lexLines n (some o) ts = ([], some o) := by
  induction ts generalizing n with
  | nil => rfl
  | cons t ts ih =>
    rw [List.findIdx?_eq_none_iff] at h
    have ht := h t List.mem_cons_self
    have hts := List.findIdx?_eq_none_iff.2 fun u hu => h u (List.mem_cons_of_mem t hu)
    simp only [lexLines, lex_of_no_closer n o ht, ih (n + 1) hts, List.append_nil]

/-- The comment that is open ends on the first line with a closer. All others begin on the
    lines that are read. -/
theorem exists_lexLines_of_closer (n o : Nat) {ts : List (List Char)} {j : Nat}
    (h : ts.findIdx? (occursIn g.closer) = some j) :
    ∃ rest, (g.lexLines n (some o) ts).1 = ⟨o, n + j⟩ :: rest ∧ ∀ r ∈ rest, n ≤ r.opensAt := by
  induction ts generalizing n j with
  | nil => exact absurd h (by simp)
  | cons t ts ih =>
    rw [List.findIdx?_cons] at h
    split at h
    · next ht =>
      obtain rfl := Option.some.inj h
      obtain ⟨rest, hrest, hline, hopen⟩ := exists_lex_of_closer n o ht
      refine ⟨rest ++ (g.lexLines (n + 1) (g.lex n 0 (some o) t).2 ts).1, ?_, fun r hr => ?_⟩
      · simp only [lexLines, hrest]
        rfl
      · rcases List.mem_append.1 hr with hr | hr
        · exact Nat.le_of_eq (hline r hr).symm
        · rcases ((lexLines_spec _ _ _).1 r hr).2 with hle | hbefore
          · omega
          · exact Nat.le_of_eq (hopen _ hbefore).symm
    · next ht =>
      obtain ⟨j, hj, rfl⟩ := Option.map_eq_some_iff.1 h
      obtain ⟨rest, hrest, hline⟩ := ih (n + 1) hj
      refine ⟨rest, ?_, fun r hr => by have := hline r hr; omega⟩
      simp only [lexLines, lex_of_no_closer n o (Bool.eq_false_iff.2 ht), hrest, List.nil_append]
      congr 2
      omega

/-- Of the comments that a reader meets from line `n` on, only the one that was open began
    above, and it ends with the first closer. -/
theorem mem_lexLines_opensAt_lt_iff {n : Nat} {opened : Option Nat} {ts : List (List Char)}
    (hopened : ∀ o, opened = some o → o < n) {r : Region} :
    (r ∈ (g.lexLines n opened ts).1 ∧ r.opensAt < n) ↔
      opened = some r.opensAt ∧
        (ts.findIdx? (occursIn g.closer)).map (n + ·) = some r.closesAt := by
  cases opened with
  | none =>
    constructor
    · intro h
      obtain ⟨hr, hlt⟩ := h
      rcases ((lexLines_spec _ _ _).1 r hr).2 with hge | hbefore
      · omega
      · exact absurd hbefore (by simp)
    · intro h
      exact absurd h.1 (by simp)
  | some o =>
    have ho : o < n := hopened o rfl
    cases hnext : ts.findIdx? (occursIn g.closer) with
    | none =>
      rw [lexLines_of_no_closer n o hnext]
      simp
    | some j =>
      obtain ⟨rest, hrest, hbelow⟩ := exists_lexLines_of_closer n o hnext
      rw [hrest, List.mem_cons, Option.map_some, Option.some.injEq, Option.some.injEq]
      constructor
      · intro h
        obtain ⟨rfl | hr, hlt⟩ := h
        · exact ⟨rfl, rfl⟩
        · have := hbelow r hr
          omega
      · intro h
        obtain ⟨hfrom, hto⟩ := h
        exact ⟨.inl (by rw [hfrom, hto]), by omega⟩

/-- The comments that begin on or above line `i` and end below it: there is one exactly if a
    reader is inside of it at the end of line `i`, and then it ends with the first closer
    below. -/
theorem mem_lexLines_iff {texts : List (List Char)} {i : Nat} {r : Region} :
    (r ∈ (g.lexLines 0 none texts).1 ∧ r.opensAt ≤ i ∧ i < r.closesAt) ↔
      (g.lexLines 0 none (texts.take (i + 1))).2 = some r.opensAt ∧
        nextCloser? g texts (i + 1) = some r.closesAt := by
  by_cases hlen : i < texts.length
  · have htake : (texts.take (i + 1)).length = i + 1 := by
      rw [List.length_take]
      omega
    obtain ⟨hclosed, hopen⟩ := lexLines_spec (g := g) 0 none (texts.take (i + 1))
    have hsplit := lexLines_append (g := g) 0 none (texts.take (i + 1)) (texts.drop (i + 1))
    rw [List.take_append_drop, htake, Nat.zero_add] at hsplit
    rw [htake, Nat.zero_add] at hclosed hopen
    have hopened : ∀ o, (g.lexLines 0 none (texts.take (i + 1))).2 = some o → o < i + 1 := by
      intro o ho
      rcases hopen o ho with ⟨-, hlt⟩ | hbefore
      · exact hlt
      · exact absurd hbefore (by simp)
    rw [hsplit, List.mem_append]
    constructor
    · intro h
      obtain ⟨hr | hr, hle, hlt⟩ := h
      · -- what was closed before does not end below line `i`
        have := (hclosed r hr).1
        omega
      · exact (mem_lexLines_opensAt_lt_iff hopened).1 ⟨hr, Nat.lt_succ_of_le hle⟩
    · intro h
      obtain ⟨hr, hlt⟩ := (mem_lexLines_opensAt_lt_iff hopened).2 h
      obtain ⟨j, -, hj⟩ := Option.map_eq_some_iff.1 h.2
      exact ⟨.inr hr, Nat.le_of_lt_succ hlt, by omega⟩
  · -- nothing closes below the last line
    have hnone : nextCloser? g texts (i + 1) = none := by
      unfold nextCloser?
      rw [List.drop_eq_nil_of_le (by omega)]
      rfl
    rw [hnone]
    constructor
    · intro h
      obtain ⟨hr, -, hlt⟩ := h
      have := ((lexLines_spec _ _ _).1 r hr).1
      omega
    · intro h
      obtain ⟨-, hno⟩ := h
      exact absurd hno (by simp)

end Grammar

/-! ## Section 3: The search for the comment around a line -/

namespace Document

variable {g : Grammar}

/-- The comments of a document in the order in which a reader meets them. -/
def comments (g : Grammar) (d : Document) : List Region :=
  (g.lexLines 0 none (d.untagged g)).1

/-- The line on which the comment began that a reader is inside of at the end of line `i`,
    if there is one. -/
def openedAt (g : Grammar) (d : Document) (i : Nat) : Option Nat :=
  (g.lexLines 0 none ((d.untagged g).take (i + 1))).2

/-- Where delimiters do not overlap, the search finds a comment that goes on below line `i`
    exactly if a reader is inside of one at the end of this line and a closer follows below.
    Both comments close on the same line. -/
theorem enclosing_iff_lexed {d : Document} (ha : ∀ t ∈ d.untagged g, g.Apart t) (i : Nat) :
    ((∃ r, d.enclosing g i = some r ∧ i < r.closesAt) ↔
        (∃ o, d.openedAt g i = some o) ∧
          ∃ t ∈ (d.untagged g).drop (i + 1), occursIn g.closer t = true) ∧
      ∀ r, d.enclosing g i = some r → i < r.closesAt →
        ∃ o, d.openedAt g i = some o ∧
          ∀ c, (c ∈ d.comments g ∧ c.opensAt ≤ i ∧ i < c.closesAt) ↔ c = ⟨o, r.closesAt⟩ := by
  have hstate : (∃ o, d.openedAt g i = some o) ↔
      g.openAfterAll false ((d.untagged g).take (i + 1)) = true := by
    have ha' : ∀ t ∈ (d.untagged g).take (i + 1), g.Apart t :=
      fun t ht => ha t (List.mem_of_mem_take ht)
    rw [← Option.isSome_iff_exists]
    unfold openedAt
    rw [Grammar.isSome_lexLines 0 none ha']
    rfl
  have hsearch : (∃ r, d.enclosing g i = some r ∧ i < r.closesAt) ↔
      (∃ o, d.openedAt g i = some o) ∧
        ∃ t ∈ (d.untagged g).drop (i + 1), occursIn g.closer t = true := by
    rw [hstate, ← List.any_eq_true, ← Bool.and_eq_true]
    exact crosses_succ_iff.symm
  refine ⟨hsearch, ?_⟩
  intro r hr hlt
  obtain ⟨⟨o, ho⟩, -⟩ := hsearch.1 ⟨r, hr, hlt⟩
  have hnext := nextCloser?_of_enclosing hr hlt
  refine ⟨o, ho, ?_⟩
  intro c
  unfold comments
  unfold openedAt at ho
  rw [Grammar.mem_lexLines_iff, ho, hnext]
  constructor
  · intro hc
    obtain ⟨hfrom, hto⟩ := hc
    rw [Option.some.inj hfrom, Option.some.inj hto]
  · intro hc
    rw [hc]
    exact ⟨rfl, rfl⟩

/-- An opener inside of a comment, a tag on a comment's line, and a comment that begins where
    another one ends. -/
theorem enclosing_iff_lexed_reopened :
    let d := parse "a /* b\n/* c\n*/ d /*-?|t|?*//* e\n*/ f\n".toList
    d.enclosing .standard 1 = some ⟨1, 2⟩ ∧ d.openedAt .standard 1 = some 0 ∧
      (∃ t ∈ (d.untagged .standard).drop 2, occursIn Grammar.standard.closer t = true) ∧
      ⟨0, 2⟩ ∈ d.comments .standard ∧ d.comments .standard = [⟨0, 2⟩, ⟨2, 3⟩] := by
  intro d
  have hr : d.enclosing .standard 1 = some ⟨1, 2⟩ := by decide
  obtain ⟨hiff, hclose⟩ := enclosing_iff_lexed (d := d) (g := .standard) (by decide) 1
  obtain ⟨o, ho, hcomments⟩ := hclose _ hr (by decide)
  have hopened : d.openedAt .standard 1 = some 0 := by decide
  obtain rfl : o = 0 := Option.some.inj (ho.symm.trans hopened)
  exact ⟨hr, hopened, (hiff.1 ⟨_, hr, by decide⟩).2, ((hcomments _).2 rfl).1, by decide⟩

end Document

end Marginalia
