import Marginalia.Proofs.Grammar
import Marginalia.Proofs.Matching
import Marginalia.Tag.Selector

/-! # The expression of a tag

    A tag pattern stands for an expression that spells out a head, the identifier and a
    tail, in which the joiner and the marks are optional. This module follows the
    matcher through such an expression:

    * **`Regex.stays_ends`**: an expression changes no groups but its own.
    * **`Regex.row?`**: the match of several expressions, one after the other.
    * **`row?_literal`, `row?_maybe_single`**: what texts and optional marks contribute.
    * **`TagPattern.Spells`**: the pattern stands for the expression of the tags whose
      identifier matches `r`.
    * **`TagPattern.Spells.sighting?_eq`**: such a pattern tries the heads and the tails
      in the same order in which they are tried without a pattern. -/

namespace Marginalia

open Text

namespace Regex

/-! ## Section 1: Groups -/

/-- The numbers of the groups in an expression. -/
def groupNumbers : Regex → List Nat
  | .empty       => []
  | .set _       => []
  | .look _      => []
  | .group i r   => i :: r.groupNumbers
  | .seq r s     => r.groupNumbers ++ s.groupNumbers
  | .alt r s     => r.groupNumbers ++ s.groupNumbers
  | .rep _ _ _ r => r.groupNumbers

/-- From places with `Q`, a step leads to places with `Q` only. -/
def Stays (Q : Place → Prop) (step : Place → List Place) : Prop :=
  ∀ p, Q p → ∀ q ∈ step p, Q q

namespace Stays

variable {Q : Place → Prop} {step : Place → List Place} {ps : List Place} {p : Place}

theorem distinct (h : ∀ q ∈ ps, Q q) : ∀ q ∈ Place.distinct ps, Q q :=
  fun q hq => h q (Place.mem_of_mem_distinct hq)

theorem flatMap (h : Stays Q step) (hps : ∀ p ∈ ps, Q p) : ∀ q ∈ ps.flatMap step, Q q := by
  intro q hq
  obtain ⟨p, hp, hq⟩ := List.mem_flatMap.1 hq
  exact h p (hps p hp) q hq

theorem repeatFrom (h : Stays Q step) (greedy bounded : Bool) {n : Nat} {w : Walk}
    (hw : ∀ q ∈ w.2, Q q) (hp : Q p) : ∀ q ∈ (repeatFrom greedy bounded step n w p).2, Q q := by
  have henter : ∀ {w : Walk} {p : Place} (key), (∀ q ∈ w.2, Q q) → Q p →
      ∀ q ∈ (enter greedy key p w).2, Q q := by
    intro w p key hw hp q hq
    rcases mem_enter_iff.1 hq with ⟨-, rfl⟩ | hq
    · exact hp
    · exact hw q hq
  have hleave : ∀ {w : Walk} {p : Place}, (∀ q ∈ w.2, Q q) → Q p →
      ∀ q ∈ (leave greedy p w).2, Q q := by
    intro w p hw hp q hq
    rcases mem_leave_iff.1 hq with ⟨-, rfl⟩ | hq
    · exact hp
    · exact hw q hq
  induction n generalizing w p with
  | zero =>
    rw [repeatFrom_zero]
    split
    · exact hw
    · exact hleave (henter _ hw hp) hp
  | succ n ih =>
    rw [repeatFrom_succ]
    split
    · exact hw
    · refine hleave ?_ hp
      have hnext : ∀ q ∈ walkNext bounded step p, Q q := by
        intro q hq
        cases bounded
        · exact h p hp q (List.mem_filter.1 hq).1
        · exact h p hp q hq
      exact List.foldlRecOn (motive := fun w : Walk => ∀ q ∈ w.2, Q q) _ _ (henter _ hw hp)
        fun w hw q hq => ih hw (hnext q hq)

theorem exactly (h : Stays Q step) (n : Nat) (hps : ∀ p ∈ ps, Q p) :
    ∀ q ∈ exactly step n ps, Q q := by
  induction n generalizing ps with
  | zero => cases ps <;> exact hps
  | succ n ih =>
    rw [exactly_succ]
    exact ih (distinct (h.flatMap hps))

theorem atMost (h : Stays Q step) (greedy : Bool) (n : Nat) : Stays Q (atMost greedy step n) :=
  fun _ hp => distinct fun q hq => h.repeatFrom greedy true (by simp) hp q (List.mem_reverse.1 hq)

theorem anyTimes (h : Stays Q step) (greedy : Bool) : Stays Q (anyTimes greedy step) :=
  fun _ hp => distinct fun q hq => h.repeatFrom greedy false (by simp) hp q (List.mem_reverse.1 hq)

theorem atLeastOnce (h : Stays Q step) (greedy : Bool) (hps : ∀ p ∈ ps, Q p) :
    ∀ q ∈ atLeastOnce greedy step ps, Q q := by
  rw [atLeastOnce_eq]
  have hfirst : ∀ w : Walk, (∀ q ∈ w.2, Q q) → ∀ p, ∀ q, Q q →
      ∀ r ∈ (firstVisit greedy step p w q).2, Q r := by
    intro w hw p q hq r hr
    unfold firstVisit at hr
    split_ifs at hr
    · exact h.repeatFrom greedy false hw hq r hr
    · exact hw r hr
    · rcases List.mem_cons.1 hr with rfl | hr
      · exact hq
      · exact hw r hr
  have hfold := List.foldlRecOn (motive := fun w : Walk => ∀ q ∈ w.2, Q q) ps
    (fun w p => (step p).foldl (firstVisit greedy step p) w) (b := ([], [])) (by simp)
    fun w hw p hp => List.foldlRecOn (motive := fun w : Walk => ∀ q ∈ w.2, Q q) _ _ hw
      fun w hw q hq => hfirst w hw p q (h p (hps p hp) q hq)
  exact distinct fun q hq => hfold q (List.mem_reverse.1 hq)

end Stays

/-- An expression changes no groups but its own. -/
theorem stays_ends {i : Nat} {content : Option (List Char)} {r : Regex}
    (hi : i ∉ r.groupNumbers) :
    Stays (fun p => p.group? i = content) r.ends := by
  induction r with
  | empty => exact fun p hp q hq => List.mem_singleton.1 hq ▸ hp
  | set s =>
    intro p hp q hq
    simp only [ends] at hq
    split at hq
    · cases hq
    · split at hq
      · exact List.mem_singleton.1 hq ▸ hp
      · cases hq
  | look l =>
    intro p hp q hq
    simp only [ends] at hq
    split at hq
    · exact List.mem_singleton.1 hq ▸ hp
    · cases hq
  | group j r ih =>
    -- the group that is closed here is another one
    simp only [groupNumbers, List.mem_cons, not_or] at hi
    intro p hp q hq
    obtain ⟨q, hq', rfl⟩ := List.mem_map.1 hq
    rw [← ih hi.2 p hp q hq']
    have hne : (i == j) = false := by simpa using hi.1
    simp [Place.group?, List.lookup_cons, hne]
  | seq r s ihr ihs =>
    simp only [groupNumbers, List.mem_append, not_or] at hi
    exact fun p hp => Stays.distinct ((ihs hi.2).flatMap (ihr hi.1 p hp))
  | alt r s ihr ihs =>
    simp only [groupNumbers, List.mem_append, not_or] at hi
    exact fun p hp => Stays.distinct fun q hq =>
      (List.mem_append.1 hq).elim (ihr hi.1 p hp q) (ihs hi.2 p hp q)
  | rep greedy n m r ih =>
    have ih := ih hi
    intro p hp
    have hone : ∀ q ∈ [p], Place.group? q i = content := by simpa using hp
    cases m with
    | some m => exact Stays.distinct ((ih.atMost greedy (m - n)).flatMap (ih.exactly n hone))
    | none =>
      cases n with
      | zero =>
        rw [ends]
        split
        · refine Stays.distinct fun q hq => ?_
          exact (mem_prefer.1 hq).elim (ih.atLeastOnce greedy hone q) (hone q)
        · exact ih.anyTimes greedy p hp
      | succ n => exact ih.atLeastOnce greedy (ih.exactly n hone)

/-! ## Section 2: Expressions in a row -/

/-- Several expressions, one after the other. -/
def inRow : List Regex → Regex
  | []      => .empty
  | [r]     => r
  | r :: rs => .seq r (inRow rs)

/-- The preferred match of several expressions, one after the other. -/
def row? : List Regex → Place → Option Place
  | [], p      => some p
  | r :: rs, p => (r.ends p).findSome? (row? rs)

theorem matchAt?_seq (r s : Regex) (p : Place) :
    (seq r s).matchAt? p = (r.ends p).findSome? s.matchAt? := by
  simp only [matchAt?, ends, Place.head?_distinct, List.head?_flatMap]
  rfl

theorem matchAt?_inRow (rs : List Regex) (p : Place) : (inRow rs).matchAt? p = row? rs p := by
  induction rs generalizing p with
  | nil => rfl
  | cons r rs ih =>
    cases rs with
    | nil =>
      simp only [inRow, row?, matchAt?]
      cases r.ends p <;> rfl
    | cons s rs =>
      rw [inRow, matchAt?_seq, row?]
      · exact congrArg (List.findSome? · (r.ends p)) (funext ih)
      · simp

/-! ## Section 3: Texts and optional marks -/

/-- The expression of a text. -/
def literal (s : List Char) : List Regex :=
  s.map fun c => .set (CharSet.single c)

/-- The expression of something that may be missing. -/
def maybe (r : Regex) : Regex :=
  .rep true 0 (some 1) r

/-- The place behind the word `w`, with the groups that were closed on the way. -/
def behind (p : Place) (w rest : List Char) (groups : List (Nat × List Char)) : Place :=
  ⟨p.offset + w.length, lastChar p.prev w, rest, groups ++ p.groups⟩

theorem behind_behind (p : Place) (u v rest rest' : List Char)
    (gs hs : List (Nat × List Char)) :
    behind (behind p u rest gs) v rest' hs = behind p (u ++ v) rest' (hs ++ gs) := by
  simp [behind, Nat.add_assoc]

@[simp] theorem rest_behind (p : Place) (w rest : List Char) (groups : List (Nat × List Char)) :
    (behind p w rest groups).rest = rest := rfl

@[simp] theorem behind_nil (p : Place) : behind p [] p.rest [] = p := by
  simp [behind]

theorem ends_single (c : Char) (p : Place) :
    (Regex.set (CharSet.single c)).ends p =
      ((after? [c] p.rest).map fun rest => behind p [c] rest []).toList := by
  rw [ends]
  split
  · next h => simp [h, after?]
  · next a rest h =>
    by_cases hac : c = a
    · simp [h, after?, hac, CharSet.single, behind, Place.advance, lastChar]
    · simp [h, after?, hac, Ne.symm hac, CharSet.single]

theorem row?_literal (s : List Char) (rs : List Regex) (p : Place) :
    row? (literal s ++ rs) p = (after? s p.rest).bind fun rest => row? rs (behind p s rest []) := by
  induction s generalizing p with
  | nil => simp [literal, after?]
  | cons c s ih =>
    have hcons : literal (c :: s) ++ rs = .set (CharSet.single c) :: (literal s ++ rs) := rfl
    rw [hcons, row?, ends_single]
    cases hrest : p.rest with
    | nil => simp [after?]
    | cons a rest =>
      by_cases hac : c = a
      · have hafter : after? [c] (a :: rest) = some rest := by simp [after?, hac]
        rw [hafter, after?, if_pos hac]
        simp only [Option.map_some, Option.toList_some, List.findSome?_singleton]
        rw [ih (behind p [c] rest [])]
        simp only [behind_behind, List.singleton_append, List.nil_append]
        rfl
      · simp [after?, hac]

theorem ends_maybe {r : Regex} {p : Place} (q : Option Place) (h : r.ends p = q.toList)
    (hne : ∀ q' ∈ q, q'.offset ≠ p.offset) : (maybe r).ends p = q.toList ++ [p] := by
  have hne' : ∀ q' ∈ q, p.offset ≠ q'.offset := fun q' hq => (hne q' hq).symm
  cases q with
  | none => simp [maybe, ends, exactly, atMost, repeatFrom, Place.distinct, h]
  | some q =>
    simp at hne hne'
    simp [maybe, ends, exactly, atMost, repeatFrom, Place.distinct, h, hne, hne']

theorem row?_maybe {r : Regex} {p : Place} (rs : List Regex) (q : Option Place)
    (h : r.ends p = q.toList) (hne : ∀ q' ∈ q, q'.offset ≠ p.offset) :
    row? (maybe r :: rs) p = (q.bind (row? rs)).or (row? rs p) := by
  rw [row?, ends_maybe q h hne, List.findSome?_append]
  cases q <;> simp

/-- A character that may be missing. -/
theorem row?_maybe_single (c : Char) (rs : List Regex) (p : Place) :
    row? (maybe (.set (CharSet.single c)) :: rs) p =
      ((after? [c] p.rest).bind fun rest => row? rs (behind p [c] rest [])).or (row? rs p) := by
  rw [row?_maybe rs _ (ends_single c p)]
  · rw [Option.bind_map]
    rfl
  · intro q hq
    obtain ⟨rest, -, rfl⟩ := Option.map_eq_some_iff.1 hq
    simp [behind]

/-- A character that may be missing, in a group. -/
theorem row?_maybe_group (i : Nat) (c : Char) (rs : List Regex) (p : Place) :
    row? (maybe (.group i (.set (CharSet.single c))) :: rs) p =
      ((after? [c] p.rest).bind fun rest => row? rs (behind p [c] rest [(i, [c])])).or
        (row? rs p) := by
  have hends : (Regex.group i (.set (CharSet.single c))).ends p =
      ((after? [c] p.rest).map fun rest => behind p [c] rest [(i, [c])]).toList := by
    rw [ends, ends_single]
    cases h : after? [c] p.rest with
    | none => rfl
    | some rest =>
      have hrest := after?_eq_some_iff.1 h
      simp [behind, hrest]
  rw [row?_maybe rs _ hends]
  · rw [Option.bind_map]
    rfl
  · intro q hq
    obtain ⟨rest, -, rfl⟩ := Option.map_eq_some_iff.1 hq
    simp [behind]

end Regex

/-! ## Section 4: Heads and tails -/

/-- The first of several results comes from the first choice, or else from the others. -/
theorem findSome?_cons_eq_or {α β : Type*} (f : α → Option β) (a : α) (l : List α) :
    (a :: l).findSome? f = (f a).or (l.findSome? f) := by
  rw [List.findSome?_cons]
  cases f a <;> rfl

/-- Of two ways to go on behind the same beginning, the first that succeeds. -/
theorem bind_or_bind {α β : Type*} (x : Option α) (f h : α → Option β) :
    (x.bind f).or (x.bind h) = x.bind fun a => (f a).or (h a) := by
  cases x <;> rfl

theorem Text.after?_of_append (u v s : List Char) :
    after? (u ++ v) s = (after? u s).bind (after? v) := by
  induction u generalizing s with
  | nil => rfl
  | cons a u ih =>
    cases s with
    | nil => rfl
    | cons c s =>
      simp only [List.cons_append, after?]
      split <;> simp [ih]

namespace Grammar

open Regex

variable (g : Grammar)

/-- The expressions of what precedes an identifier. -/
def headRow : List Regex :=
  literal g.opener ++ (maybe (.set (CharSet.single joiner)) ::
    maybe (.group 1 (.set (CharSet.single g.boundary))) :: literal [g.separator])

/-- The expressions of what follows an identifier. The groups of the two marks come after
    `last`. -/
def tailRow (last : Nat) : List Regex :=
  literal [g.separator] ++
    (maybe (.group (last + 1) (.set (CharSet.single g.boundary))) ::
      maybe (.group (last + 2) (.set (CharSet.single g.cleanup))) :: literal g.closer)

/-- The contents of a group that holds a mark, if it is there. -/
def markGroup (i : Nat) (c : Char) (there : Bool) : List (Nat × List Char) :=
  if there then [(i, [c])] else []

theorem lookup_markGroup_append (i j : Nat) (c : Char) (there : Bool)
    (groups : List (Nat × List Char)) :
    (markGroup i c there ++ groups).lookup j =
      if j = i ∧ there = true then some [c] else groups.lookup j := by
  by_cases hj : j = i
  · cases there <;> simp [markGroup, hj]
  · have hne : (j == i) = false := by simpa using hj
    cases there <;> simp [markGroup, List.lookup_cons, hj, hne]

/-- The expressions of a head try the heads in order. -/
theorem row?_headRow (rs : List Regex) (p : Place) :
    row? (g.headRow ++ rs) p = g.heads.findSome? fun (marked, head) =>
      (after? head p.rest).bind fun rest =>
        row? rs (behind p head rest (markGroup 1 g.boundary marked)) := by
  have hheads : g.heads =
      [(true,  g.opener ++ ([joiner] ++ ([g.boundary] ++ [g.separator]))),
       (false, g.opener ++ ([joiner] ++ [g.separator])),
       (true,  g.opener ++ ([g.boundary] ++ [g.separator])),
       (false, g.opener ++ [g.separator])] := rfl
  rw [headRow, List.append_assoc, row?_literal]
  -- each of the two optional characters doubles the ways to go on, in the order of the heads
  simp only [List.cons_append, row?_maybe_single, row?_maybe_group, row?_literal, behind_behind,
    rest_behind]
  rw [hheads]
  simp only [findSome?_cons_eq_or, List.findSome?_nil, Option.or_none, after?_of_append,
    Option.bind_assoc, ← bind_or_bind, Option.or_assoc]
  simp [markGroup]

/-- The expressions of a tail try the tails in order. -/
theorem row?_tailRow (last : Nat) (p : Place) :
    row? (g.tailRow last) p = g.tails.findSome? fun (marked, cleanup, tail) =>
      (after? tail p.rest).map fun rest => behind p tail rest
        (markGroup (last + 2) g.cleanup cleanup ++ markGroup (last + 1) g.boundary marked) := by
  have htails : g.tails =
      [(true,  true,  [g.separator] ++ ([g.boundary] ++ ([g.cleanup] ++ g.closer))),
       (true,  false, [g.separator] ++ ([g.boundary] ++ g.closer)),
       (false, true,  [g.separator] ++ ([g.cleanup] ++ g.closer)),
       (false, false, [g.separator] ++ g.closer)] := rfl
  have hcloser : ∀ p, row? (literal g.closer) p =
      (after? g.closer p.rest).bind fun rest => some (behind p g.closer rest []) := by
    intro p
    simpa [row?] using row?_literal g.closer [] p
  rw [tailRow, row?_literal]
  simp only [row?_maybe_group, hcloser, behind_behind, rest_behind]
  rw [htails]
  have hmap : ∀ (o : Option (List Char)) (f : List Char → Place),
      o.map f = o.bind fun rest => some (f rest) := fun o f => by cases o <;> rfl
  simp only [findSome?_cons_eq_or, List.findSome?_nil, Option.or_none, after?_of_append,
    Option.bind_assoc, ← bind_or_bind, Option.or_assoc, hmap]
  simp [markGroup]

end Grammar

/-! ## Section 5: Tag patterns -/

namespace TagPattern

open Regex

/-- The pattern stands for the expression of the tags whose identifier matches `r`. The
    groups of `r` have numbers up to `last`. -/
structure Spells (g : Grammar) (p : TagPattern) (r : Regex) (last : Nat) : Prop where
  expr       : p.expr = inRow (g.headRow ++ .group 2 r :: g.tailRow last)
  startName  : p.names.lookup "start".toList = some 1
  idName     : p.names.lookup "id".toList = some 2
  endName    : p.names.lookup "end".toList = some (last + 1)
  cleanupName : p.names.lookup "cleanup".toList = some (last + 2)
  numbers    : ∀ i ∈ r.groupNumbers, 2 < i ∧ i ≤ last
  two_le     : 2 ≤ last

/-- The place behind a head. -/
def behindHead (g : Grammar) (prev : Option Char) (s : List Char) (startMark : Bool)
    (head inner : List Char) : Place :=
  behind ⟨0, prev, s, []⟩ head inner (Grammar.markGroup 1 g.boundary startMark)

variable {g : Grammar} {p : TagPattern} {r : Regex} {last : Nat}

/-- The expression of the identifier leaves the group of the start mark alone, and does
    not touch the groups of the other marks. -/
theorem Spells.group?_of_mem_ends (h : p.Spells g r last) {prev : Option Char} {s : List Char}
    {startMark : Bool} {head inner : List Char} {q : Place}
    (hq : q ∈ r.ends (behindHead g prev s startMark head inner)) {i : Nat}
    (hi : i ≤ 2 ∨ last < i) :
    q.group? i = if i = 1 ∧ startMark = true then some [g.boundary] else none := by
  have hnot : i ∉ r.groupNumbers := fun hmem => by
    have := h.numbers i hmem
    omega
  rw [(stays_ends hnot _ rfl q hq : q.group? i = _), behindHead, Place.group?, behind,
    Grammar.lookup_markGroup_append]
  rfl

/-- What the groups hold behind a tail. -/
theorem group?_behind_tail (g : Grammar) (last : Nat) (q : Place) (identifier tail rest : List Char)
    (endMark cleanup : Bool) (i : Nat) :
    (behind { q with groups := (2, identifier) :: q.groups } tail rest
      (Grammar.markGroup (last + 2) g.cleanup cleanup ++
        Grammar.markGroup (last + 1) g.boundary endMark)).group? i =
    if i = last + 2 ∧ cleanup = true then some [g.cleanup]
    else if i = last + 1 ∧ endMark = true then some [g.boundary]
    else if i = 2 then some identifier else q.group? i := by
  rw [Place.group?, behind, List.append_assoc, Grammar.lookup_markGroup_append,
    Grammar.lookup_markGroup_append, List.lookup_cons]
  by_cases hi : i = 2
  · simp [hi]
  · have hne : (i == 2) = false := by simpa using hi
    simp [hi, hne, Place.group?]

/-- A pattern of tags tries the heads in order, then all words of its identifier, then the
    tails in order. -/
theorem Spells.sighting?_eq (h : p.Spells g r last) (prev : Option Char) (s : List Char) :
    p.sighting? prev s = g.heads.findSome? fun (startMark, head) =>
      (after? head s).bind fun inner =>
        (r.ends (behindHead g prev s startMark head inner)).findSome? fun q =>
          g.tails.findSome? fun (endMark, cleanup, tail) =>
            (after? tail q.rest).map fun _ =>
              { identifier := inner.take (q.offset - head.length)
                startMark, endMark, cleanup
                raw := s.take (q.offset + tail.length) } := by
  -- a head, a word of the identifier and a tail are tried in three nested loops
  rw [sighting?, h.expr, matchAt?_inRow, Grammar.row?_headRow, List.map_findSome?]
  refine findSome?_congr fun r hhead => ?_
  obtain ⟨startMark, head⟩ := r
  rw [Function.comp_apply, Option.map_bind]
  refine congrArg _ (funext fun inner => ?_)
  rw [Function.comp_apply]
  simp only [row?, List.map_findSome?, ends, List.findSome?_map]
  refine findSome?_congr fun q hq => ?_
  simp only [Function.comp_apply, Grammar.row?_tailRow, List.map_findSome?]
  refine findSome?_congr fun r htail => ?_
  obtain ⟨endMark, cleanup, tail⟩ := r
  simp only [Function.comp_apply, Option.map_map]
  refine congrArg (Option.map · _) (funext fun rest => ?_)
  -- what is left is what the groups hold behind the tail
  have htwo := h.two_le
  have hgroup := fun {i} => h.group?_of_mem_ends hq (i := i)
  simp only [Function.comp_apply, group?, h.startName, h.idName, h.endName, h.cleanupName,
    Option.bind_some, group?_behind_tail, hgroup (.inl (Nat.le_succ 1)),
    hgroup (.inr (Nat.lt_succ_self last)), hgroup (.inr (show last < last + 2 by omega))]
  have hne₁ : 2 ≠ last + 1 := by omega
  have hne₂ : last ≠ 0 := by omega
  have hne₃ : last + 1 ≠ 2 := by omega
  cases startMark <;> cases endMark <;> cases cleanup <;> simp [hne₁, hne₂, hne₃, behind]

end TagPattern

end Marginalia
