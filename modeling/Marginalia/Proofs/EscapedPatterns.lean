import Marginalia.Proofs.PatternRemoval
import Marginalia.Proofs.Recognition

/-! # Patterns of escaped texts

    The marks and the delimiters of a grammar are pasted into the patterns of its tags, the
    separator also into a negated bracket. Whatever these characters mean in a pattern, they
    are escaped, so every grammar makes patterns, and these match tags and nothing else:

    * **`bracket?_noneOf`**: the bracket of the characters that an identifier may hold.
    * **`Regex.readAnySize?`**: reading a pattern without the limit on its size, which
      `Grammar.read?_tagPattern_any` and `Grammar.read?_tagPattern_exactly` put back.
    * **`Grammar.run?_tagPattern`**: if the pattern of the identifier is read, then so is the
      pattern of the tag.
    * **`Grammar.matches_spelled`**: the words of a pattern of tags.
    * **`Grammar.tagPatterns_matchExactly`**: what the patterns of all tags, and of the tags
      of one identifier, match.
    * **`TagPattern.pieces_tagPattern_any`, `TagPattern.pieces_tagPattern_exactly`**: these
      patterns cut a line as it is cut without a pattern. -/

namespace Marginalia

namespace Regex

/-! ## Section 1: Reading brackets -/

namespace Bracket

variable {listed : CharSet} {stack : List Frame} {weight : Nat} {s : List Char}

theorem range?_literal {c a : Char} {u : List Char}
    (hitem : item? {} (c :: u) = some (.literal a, 1, s)) (hne : s ≠ [])
    (hs : s.head? ≠ some '-') : range? {} (c :: u) = some (CharSet.single a, 1, s) := by
  have hskip : Modes.skipBlank {} s = s := rfl
  simp only [range?, hitem, Option.bind_eq_bind, Option.bind_some, hskip]
  cases s with
  | nil => exact absurd rfl hne
  | cons d v =>
    split
    · next heq => cases heq
    · next heq => exact absurd (congrArg some (List.cons.inj heq).1) hs
    · rfl

/-- A character is listed, if it is not followed by a hyphen. -/
theorem step?_literal {c a : Char} {u : List Char} (hopen : c ≠ '[') (hclose : c ≠ ']')
    (hoperator : operatorOf? c = none) (hitem : item? {} (c :: u) = some (.literal a, 1, s))
    (hne : s ≠ []) (hs : s.head? ≠ some '-') :
    step? {} ⟨listed, stack, weight, c :: u⟩ =
      some (.inl ⟨listed.union (CharSet.single a), stack, weight + 1, s⟩) := by
  have hnone : operator? (c :: u) = none := by
    cases u with
    | nil => rfl
    | cons d u => simp [operator?, hoperator]
  have hrest : Modes.skipBlank {} (State.mk listed stack weight (c :: u)).rest = c :: u := rfl
  rw [step?_eq_of_ne hrest hopen hclose, hnone]
  simp only [range?_literal hitem hne hs, Option.map_some]

theorem step?_escape {d a : Char} (hescape : escape? {} (d :: s) = some (.literal a false, s))
    (hne : s ≠ []) (hs : s.head? ≠ some '-') :
    step? {} ⟨listed, stack, weight, '\\' :: d :: s⟩ =
      some (.inl ⟨listed.union (CharSet.single a), stack, weight + 1, s⟩) := by
  have hitem : item? {} ('\\' :: d :: s) = some (.literal a, 1, s) := by
    simp only [item?, hescape]
    rfl
  exact step?_literal (by decide) (by decide) rfl hitem hne hs

/-- An escaped character is listed, whatever it means elsewhere. -/
theorem step?_escapePattern (c : Char) (hne : s ≠ []) (hs : s.head? ≠ some '-') :
    step? {} ⟨listed, stack, weight, escapePattern [c] ++ s⟩ =
      some (.inl ⟨listed.union (CharSet.single c), stack, weight + 1, s⟩) := by
  by_cases hc : isPatternMeta c = true
  · have htext : escapePattern [c] ++ s = '\\' :: c :: s := by simp [escapePattern, hc]
    rw [htext]
    exact step?_escape (Reader.escape?_of_isPatternMeta hc s) hne hs
  · -- what stands for itself elsewhere is no operator of brackets either
    have htext : escapePattern [c] ++ s = c :: s := by simp [escapePattern, hc]
    have hplain : ∀ d, isPatternMeta d = true → c ≠ d := by
      rintro d hd rfl
      exact hc hd
    have hitem : item? {} (c :: s) = some (.literal c, 1, s) := by
      rw [item?_of_ne {} (hplain '\\' rfl)]
      rfl
    have hoperator : operatorOf? c = none := by
      unfold operatorOf?
      split
      all_goals first | exact absurd rfl hc | rfl
    rw [htext]
    exact step?_literal (hplain '[' rfl) (hplain ']' rfl) hoperator hitem hne hs

/-- A bracket whose list does not begin with a character that means something there. -/
theorem open?_escapePattern (c : Char) (s : List Char) :
    open? {} ⟨listed, stack, weight, '^' :: (escapePattern [c] ++ s)⟩ =
      some ⟨CharSet.none, .bracket listed true :: stack, weight, escapePattern [c] ++ s⟩ := by
  obtain ⟨d, u, hd, hhyphen, hclose⟩ :
      ∃ d u, escapePattern [c] ++ s = d :: u ∧ d ≠ '-' ∧ d ≠ ']' := by
    by_cases hc : isPatternMeta c = true
    · exact ⟨'\\', c :: s, by simp [escapePattern, hc], by decide, by decide⟩
    · refine ⟨c, s, by simp [escapePattern, hc], ?_, ?_⟩ <;>
        · rintro rfl
          exact hc rfl
  have hhat : hat {} (Modes.skipBlank {} ('^' :: d :: u)) = (true, d :: u) := rfl
  rw [open?_eq, hd]
  simp only [hhat, List.length_cons, leadingHyphens_of_ne {} hhyphen, listedFirst_of_ne {} hclose]
  rfl

theorem run?_of_step? {m : Modes} {st st' : State} (h : step? m st = some (.inl st'))
    (fuel : Nat) : run? m (fuel + 1) st = run? m fuel st' := by
  rw [run?, h]

end Bracket

/-- The characters other than `c` and the line breaks. -/
def noneOf (c : Char) : CharSet :=
  (((CharSet.none.union (.single c)).union (.single '\r')).union (.single '\n')).compl

/-- Reading the bracket around an escaped character and the line breaks. -/
theorem bracket?_noneOf (c : Char) (s : List Char) :
    bracket? {} ('^' :: (escapePattern [c] ++ '\\' :: 'r' :: '\\' :: 'n' :: ']' :: s)) =
      some (noneOf c, 4, s) := by
  obtain ⟨fuel, hfuel⟩ : ∃ fuel,
      ('^' :: (escapePattern [c] ++ '\\' :: 'r' :: '\\' :: 'n' :: ']' :: s)).length + 1 =
        fuel + 1 + 1 + 1 + 1 :=
    ⟨(escapePattern [c]).length + s.length + 3, by simp; omega⟩
  have hrun : Bracket.run? {} (fuel + 1 + 1 + 1 + 1) ⟨CharSet.none, [.bracket CharSet.none true], 1,
      escapePattern [c] ++ '\\' :: 'r' :: '\\' :: 'n' :: ']' :: s⟩ = some (noneOf c, 4, s) :=
    (Bracket.run?_of_step? (Bracket.step?_escapePattern c (by simp) (by simp)) _).trans <|
      (Bracket.run?_of_step? (Bracket.step?_escape rfl (by simp) (by simp)) _).trans <|
        (Bracket.run?_of_step? (Bracket.step?_escape rfl (by simp) (by simp)) _).trans rfl
  simp only [bracket?, Bracket.open?_escapePattern, Option.bind_eq_bind, Option.bind_some, hfuel,
    hrun]
  rfl

theorem noneOf_eq_true_iff {c d : Char} :
    noneOf c d = true ↔ d ≠ c ∧ d ≠ '\r' ∧ d ≠ '\n' := by
  simp [noneOf, CharSet.compl, CharSet.union, CharSet.none, CharSet.single, and_assoc]

/-! ## Section 2: Patterns of any size -/

/-- The expression that a pattern stands for, however many steps of a machine it takes. -/
def readAnySize? (pattern : List Char) : Option (Regex × List (List Char × Nat)) := do
  let st ← (Reader.start pattern).run? pattern.length
  let whole := st.current
  if st.stack.isEmpty && whole.depth ≤ depthLimit then some (whole.toRegex, st.names) else none

/-- Only the size of an expression keeps it from being read. -/
theorem read?_eq_some_iff {pattern : List Char} {x : Regex × List (List Char × Nat)} :
    read? pattern = some x ↔ readAnySize? pattern = some x ∧
      ∀ st, (Reader.start pattern).run? pattern.length = some st →
        st.current.weight ≤ weightLimit := by
  unfold read? readAnySize?
  cases (Reader.start pattern).run? pattern.length with
  | none => simp
  | some st =>
    by_cases hweight : st.current.weight ≤ weightLimit <;> simp [hweight]

namespace Part

theorem depth_sequence_le {ps : List Part} {d : Nat} (h : ∀ p ∈ ps, p.depth ≤ d) :
    (sequence ps).depth ≤ d + 1 := by
  match ps, h with
  | [], _ => exact Nat.zero_le _
  | [p], h => exact Nat.le_succ_of_le (h p List.mem_cons_self)
  | p :: q :: ps, h =>
    rw [sequence_cons_cons]
    refine Nat.succ_le_succ (List.foldlRecOn (motive := (· ≤ d)) _ _ (Nat.zero_le d) ?_)
    intro b hb a ha
    obtain ⟨p', hp', rfl⟩ := List.mem_map.1 ha
    exact Nat.max_le.2 ⟨hb, h p' hp'⟩

/-- A sequence takes no more steps than its parts, but for the empty one. -/
theorem weight_sequence_le (ps : List Part) :
    (sequence ps).weight ≤ total (ps.map weight) + 1 := by
  match ps with
  | [] => exact Nat.le_refl 1
  | [p] => exact Nat.le_succ _
  | p :: q :: ps =>
    rw [sequence_cons_cons]
    exact Nat.le_succ _

theorem depth_of_mem_charPart {p : Part} {w : List Char}
    (h : p ∈ (w.map Reader.charPart).reverse) : p.depth = 0 := by
  obtain ⟨c, -, rfl⟩ := List.mem_map.1 (List.mem_reverse.1 h)
  rfl

theorem total_weight_charPart (w : List Char) :
    total ((w.map Reader.charPart).reverse.map weight) = byteLength w := by
  induction w with
  | nil => rfl
  | cons c w ih =>
    rw [List.map_cons, List.reverse_cons, List.map_append, total_append, ih, byteLength, byteLength,
      List.map_cons, total_cons, Nat.add_comm]
    rfl

/-- Characters in a sequence stand for the text of these characters. -/
theorem toRegex_sequence_charPart (w : List Char) :
    (sequence (w.map Reader.charPart).reverse).toRegex = inRow (literal w) := by
  match w with
  | [] => rfl
  | [c] => rfl
  | c :: d :: w =>
    rw [toRegex_sequence (by simp), inSequence_eq_inRow, List.filterMap_reverse,
      Grammar.filterMap_expr_charPart, List.reverse_reverse]

end Part

namespace Reader

/-- The whole pattern of an identifier, read in a group, leaves these parts. -/
def ReadsAs (inner : List Char) (ps : List Part) : Prop :=
  ∃ k ≤ inner.length, ∀ stack names n s,
    ReadsTo k ⟨{}, [], [], stack, names, n, inner ++ ')' :: s⟩
      ⟨{}, ps, [], stack, names, n, ')' :: s⟩

theorem length_le_escapePattern (w : List Char) : w.length ≤ (escapePattern w).length := by
  induction w with
  | nil => exact Nat.le_refl 0
  | cons c w ih =>
    have hc : 1 ≤ (escapePattern [c]).length := by
      rw [escapePattern, List.flatMap_singleton]
      split <;> simp
    rw [escapePattern_cons, List.length_append, List.length_cons]
    omega

theorem readsAs_escapePattern (w : List Char) :
    ReadsAs (escapePattern w) (w.map charPart).reverse := by
  refine ⟨w.length, length_le_escapePattern w, fun stack names n s => ?_⟩
  have h : ReadsTo w.length ⟨{}, [], [], stack, names, n, escapePattern w ++ ')' :: s⟩
      ⟨{}, (w.map charPart).reverse ++ [], [], stack, names, n, ')' :: s⟩ := readsTo_text w
  rwa [List.append_nil] at h

/-- Some characters, but neither `c` nor line breaks. -/
def someOf (c : Char) : Regex :=
  .rep false 1 none (.set (noneOf c))

theorem readsAs_anyIdentifierPattern (g : Grammar) :
    ReadsAs g.anyIdentifierPattern [⟨some (someOf g.separator), 2, 6⟩] := by
  refine ⟨2, by simp [Grammar.anyIdentifierPattern], fun stack names n s => ?_⟩
  have htext : g.anyIdentifierPattern ++ ')' :: s = '[' :: '^' :: (escapePattern [g.separator] ++
      '\\' :: 'r' :: '\\' :: 'n' :: ']' :: '+' :: '?' :: ')' :: s) := by
    simp [Grammar.anyIdentifierPattern]
  have hbracket : command? {} (g.anyIdentifierPattern ++ ')' :: s) =
      some (.set (noneOf g.separator) 1 4, '+' :: '?' :: ')' :: s) := by
    rw [htext]
    simp only [command?, bracket?_noneOf, Option.map_some]
  rw [htext] at hbracket ⊢
  exact (readsTo_of_command rfl hbracket rfl).trans (readsTo_of_command rfl rfl rfl)

end Reader

end Regex

namespace Grammar

open Regex Reader

variable {g : Grammar} {inner : List Char} {ps : List Part}

/-- The group that holds an identifier. -/
def groupPart (ps : List Part) : Part :=
  Part.grouped (some 2) (Part.sequence ps)

/-- The reader behind the pattern of a tag whose identifier's pattern left these parts. -/
def wholeReader (g : Grammar) (ps : List Part) : Reader where
  modes    := {}
  parts    := g.tailParts 2 ++ groupPart ps :: g.headParts
  branches := []
  stack    := []
  names    := [("cleanup".toList, 4), ("end".toList, 3), ("id".toList, 2), ("start".toList, 1)]
  groups   := 4
  rest     := []

theorem length_tagPattern_ge (g : Grammar) (inner : List Char) :
    g.opener.length + inner.length + g.closer.length + 20 ≤ (g.tagPattern inner).length := by
  have hopener := length_le_escapePattern g.opener
  have hcloser := length_le_escapePattern g.closer
  have hmark : ∀ name c, 6 ≤ (markPattern name c).length := by
    intro name c
    have hbegin : "(?P<".toList.length = 4 := rfl
    rw [← List.append_nil (markPattern name c), markPattern_append]
    simp only [List.length_append, List.length_cons, hbegin]
    omega
  have hstart := hmark "start" g.boundary
  have hend := hmark "end" g.boundary
  have hcleanup := hmark "cleanup" g.cleanup
  have hgroup : "(?P<id>".toList.length = 7 := rfl
  simp only [tagPattern, List.length_append]
  omega

/-- If the pattern of the identifier is read, then so is the pattern of the tag. -/
theorem run?_tagPattern (h : ReadsAs inner ps) :
    (start (g.tagPattern inner)).run? (g.tagPattern inner).length = some (g.wholeReader ps) := by
  obtain ⟨k, hk, hinner⟩ := h
  have hgroup : ReadsTo k (g.groupReader [] (inner ++ ')' :: g.behindGroup))
      (g.groupReader ps (')' :: g.behindGroup)) := hinner _ _ _ _
  have hread : ReadsTo (g.opener.length + 8 + (k + (1 + (1 + (4 + (4 + g.closer.length))))))
      (start (g.tagPattern inner)) (g.wholeReader ps) :=
    (g.readsTo_group inner).trans <| hgroup.trans <| readsTo_close.trans <|
      (readsTo_char g.separator).trans <| readsTo_tail rfl rfl (groupPart ps :: g.headParts) 2
  -- every step takes a character of the pattern
  have hfuel : 0 + (g.opener.length + 8 + (k + (1 + (1 + (4 + (4 + g.closer.length)))))) ≤
      (g.tagPattern inner).length := by
    have hlen := length_tagPattern_ge g inner
    omega
  exact run?_mono hfuel ((hread 0).trans (run?_nil rfl))

/-- How many steps of a machine the pattern of a tag takes. -/
theorem weight_wholeReader_le : (g.wholeReader ps).current.weight ≤
    byteLength g.opener + byteLength g.closer + (Part.sequence ps).weight + 34 := by
  have hweight := Part.weight_sequence_le (g.wholeReader ps).parts
  have hmarks := g.boundary.utf8Size_le_four
  have hseparator := g.separator.utf8Size_le_four
  have hcleanup := g.cleanup.utf8Size_le_four
  have hjoiner : joiner.utf8Size = 1 := rfl
  simp only [wholeReader, tailParts, headParts, List.map_append, List.map_cons, List.map_nil,
    total_append, total_cons, total_nil, Part.total_weight_charPart] at hweight
  simp only [groupPart, Part.grouped, markPart, maybePart, charPart] at hweight
  refine Nat.le_trans hweight ?_
  omega

theorem depth_le_of_mem_parts {p : Part} (h : p ∈ g.tailParts 2 ∨ p ∈ g.headParts) :
    p.depth ≤ 2 := by
  have hchar : ∀ w : List Char, p ∈ (w.map charPart).reverse → p.depth ≤ 2 := by
    intro w hp
    rw [Part.depth_of_mem_charPart hp]
    exact Nat.zero_le 2
  have hmarks : ∀ p ∈ [markPart 4 g.cleanup, markPart 3 g.boundary, charPart g.separator] ++
      [charPart g.separator, markPart 1 g.boundary, maybePart (charPart joiner)],
      p.depth ≤ 2 := by
    simp [markPart, maybePart, charPart, Part.grouped]
  rcases h with hp | hp
  · rcases List.mem_append.1 hp with hp | hp
    · exact hchar _ hp
    · exact hmarks p (List.mem_append_left _ hp)
  · rcases List.mem_append.1 hp with hp | hp
    · exact hmarks p (List.mem_append_right _ hp)
    · exact hchar _ hp

/-- The pattern of a tag nests no deeper than this, however long its texts are. -/
theorem depth_wholeReader_le (hps : ∀ p ∈ ps, p.depth ≤ 2) :
    (g.wholeReader ps).current.depth ≤ 5 := by
  have hgroup : (groupPart ps).depth ≤ 4 := Nat.succ_le_succ (Part.depth_sequence_le hps)
  refine Part.depth_sequence_le (d := 4) fun p hp => ?_
  rcases List.mem_append.1 hp with hp | hp
  · have := depth_le_of_mem_parts (.inl hp)
    omega
  · rcases List.mem_cons.1 hp with rfl | hp
    · exact hgroup
    · have := depth_le_of_mem_parts (.inr hp)
      omega

/-- The pattern of a tag is small enough, unless its texts are long. -/
theorem read?_tagPattern (h : ReadsAs inner ps) (hsize : byteLength g.opener +
      byteLength g.closer + (Part.sequence ps).weight + 34 ≤ weightLimit) :
    read? (g.tagPattern inner) = readAnySize? (g.tagPattern inner) := by
  refine Option.ext fun x => read?_eq_some_iff.trans (and_iff_left fun st hst => ?_)
  obtain rfl := Option.some.inj ((run?_tagPattern h).symm.trans hst)
  exact Nat.le_trans weight_wholeReader_le hsize

/-- The pattern of a tag compiles, and spells the tags whose identifier matches what the
    pattern of the identifier stands for. -/
theorem exists_spells {r : Regex} (h : ReadsAs inner ps) (hps : ∀ p ∈ ps, p.depth ≤ 2)
    (hexpr : (Part.sequence ps).toRegex = r) (hgroups : r.groupNumbers = []) :
    ∃ p : TagPattern, readAnySize? (g.tagPattern inner) = some (p.expr, p.names) ∧
      p.Spells g r 2 := by
  have hdepth : (g.wholeReader ps).current.depth ≤ depthLimit :=
    Nat.le_trans (depth_wholeReader_le hps) (by decide)
  have hpart : (groupPart ps).expr = some (.group 2 r) := by
    rw [← hexpr]
    rfl
  have hcurrent : (g.wholeReader ps).current.toRegex =
      inRow (g.headRow ++ .group 2 r :: g.tailRow 2) := toRegex_sequence hpart 2
  refine ⟨⟨_, (g.wholeReader ps).names⟩, ?_, hcurrent, rfl, rfl, rfl, rfl, by simp [hgroups],
    Nat.le_refl 2⟩
  simp only [readAnySize?, run?_tagPattern h, Option.bind_eq_bind, Option.bind_some]
  exact if_pos (decide_eq_true hdepth)

end Grammar

/-! ## Section 3: Words of tags -/

namespace Regex

theorem matches_inRow_cons (r : Regex) (rs : List Regex) :
    (inRow (r :: rs)).Matches = r.Matches.seq (inRow rs).Matches := by
  cases rs with
  | nil => exact (Words.seq_one _).symm
  | cons s rs => rfl

theorem matches_inRow_append (rs ss : List Regex) :
    (inRow (rs ++ ss)).Matches = (inRow rs).Matches.seq (inRow ss).Matches := by
  induction rs with
  | nil => exact (Words.one_seq _).symm
  | cons r rs ih =>
    rw [List.cons_append, matches_inRow_cons, ih, matches_inRow_cons, Words.seq_assoc]

/-- The expression of a text matches this text, wherever it stands. -/
theorem matches_literal (u : List Char) :
    (inRow (literal u)).Matches = fun _ w _ => w = u := by
  induction u with
  | nil => rfl
  | cons c u ih =>
    have hcons : literal (c :: u) = .set (CharSet.single c) :: literal u := rfl
    rw [hcons, matches_inRow_cons, ih]
    funext prev w rest
    simp only [Words.seq, Matches, CharSet.single, beq_iff_eq, eq_iff_iff]
    constructor
    · rintro ⟨_, _, rfl, ⟨_, rfl, rfl⟩, rfl⟩
      rfl
    · rintro rfl
      exact ⟨[c], u, rfl, ⟨c, rfl, rfl⟩, rfl⟩

/-- A character that may be missing. -/
theorem matches_maybe_single (c : Char) :
    (maybe (.set (CharSet.single c))).Matches =
      fun _ w _ => ∃ there : Bool, w = if there then [c] else [] := by
  funext prev w rest
  simp only [maybe, Matches, Words.timesIn, CharSet.single, beq_iff_eq, eq_iff_iff]
  constructor
  · intro h
    -- the character is there once or not at all
    obtain ⟨k, ⟨-, hk⟩, h⟩ := h
    have hk : k = 0 ∨ k = 1 := by
      have := hk 1 rfl
      omega
    rcases hk with rfl | rfl
    · exact ⟨false, h⟩
    · rw [Words.times_one] at h
      obtain ⟨_, rfl, rfl⟩ := h
      exact ⟨true, rfl⟩
  · rintro ⟨there, rfl⟩
    cases there
    · exact ⟨0, by simp, rfl⟩
    · refine ⟨1, by simp, ?_⟩
      rw [Words.times_one]
      exact ⟨c, rfl, rfl⟩

theorem matches_times_set (s : CharSet) (n : Nat) {prev : Option Char} {w rest : List Char} :
    (Regex.set s).Matches.times n prev w rest ↔ w.length = n ∧ ∀ c ∈ w, s c = true := by
  induction n generalizing prev w with
  | zero =>
    simp only [Words.times, Words.one, List.length_eq_zero_iff]
    constructor
    · rintro rfl
      simp
    · exact And.left
  | succ n ih =>
    simp only [Words.times, Words.seq, ih]
    constructor
    · rintro ⟨_, v, rfl, ⟨c, rfl, hc⟩, hlen, hv⟩
      simpa [hc, hlen] using hv
    · rintro ⟨hlen, hw⟩
      obtain ⟨c, v, rfl⟩ := List.exists_cons_of_length_eq_add_one hlen
      simp only [List.mem_cons, forall_eq_or_imp] at hw
      exact ⟨[c], v, rfl, ⟨c, rfl, hw.1⟩, by simpa using hlen, hw.2⟩

theorem matches_someOf (c : Char) {prev : Option Char} {w rest : List Char} :
    (Reader.someOf c).Matches prev w rest ↔
      w ≠ [] ∧ ∀ d ∈ w, d ≠ c ∧ d ≠ '\r' ∧ d ≠ '\n' := by
  rw [Reader.someOf, Matches, Words.timesIn]
  simp only [matches_times_set, noneOf_eq_true_iff]
  constructor
  · rintro ⟨k, ⟨hk, -⟩, rfl, hw⟩
    exact ⟨List.length_pos_iff.1 hk, hw⟩
  · rintro ⟨hne, hw⟩
    exact ⟨w.length, ⟨List.length_pos_iff.2 hne, by simp⟩, rfl, hw⟩

end Regex

namespace Grammar

open Regex

variable {g : Grammar}

/-- The words before an identifier are the heads. -/
theorem matches_headRow :
    (inRow g.headRow).Matches = fun _ w _ => ∃ joined marked,
      w = g.headText joined marked ++ [g.separator] := by
  have hmark : (Regex.maybe (.group 1 (.set (CharSet.single g.boundary)))).Matches =
      (Regex.maybe (.set (CharSet.single g.boundary))).Matches := rfl
  rw [headRow, matches_inRow_append, matches_inRow_cons, matches_inRow_cons, matches_literal,
    matches_literal, hmark, matches_maybe_single, matches_maybe_single]
  funext prev w rest
  simp only [Words.seq, headText, eq_iff_iff]
  constructor
  · intro h
    -- the opener, the joiner, the mark and the separator
    obtain ⟨_, _, rfl, rfl, _, _, rfl, ⟨joined, rfl⟩, _, _, rfl, ⟨marked, rfl⟩, rfl⟩ := h
    exact ⟨joined, marked, by simp⟩
  · intro h
    obtain ⟨joined, marked, rfl⟩ := h
    exact ⟨_, _, by rw [List.append_assoc, List.append_assoc], rfl, _, _, rfl, ⟨joined, rfl⟩, _, _,
      rfl, ⟨marked, rfl⟩, rfl⟩

/-- The words after an identifier are the tails. -/
theorem matches_tailRow (last : Nat) :
    (inRow (g.tailRow last)).Matches = fun _ w _ => ∃ marked cleanup,
      w = g.separator :: g.tailText marked cleanup := by
  have hmark : ∀ i c, (Regex.maybe (.group i (.set (CharSet.single c)))).Matches =
      (Regex.maybe (.set (CharSet.single c))).Matches := fun _ _ => rfl
  rw [tailRow, matches_inRow_append, matches_inRow_cons, matches_inRow_cons, matches_literal,
    matches_literal, hmark, hmark, matches_maybe_single, matches_maybe_single]
  funext prev w rest
  simp only [Words.seq, tailText, eq_iff_iff]
  constructor
  · intro h
    -- the separator, the two marks and the closer
    obtain ⟨_, _, rfl, rfl, _, _, rfl, ⟨marked, rfl⟩, _, _, rfl, ⟨cleanup, rfl⟩, rfl⟩ := h
    exact ⟨marked, cleanup, rfl⟩
  · intro h
    obtain ⟨marked, cleanup, rfl⟩ := h
    exact ⟨[g.separator], _, rfl, rfl, _, _, rfl, ⟨marked, rfl⟩, _, _, rfl, ⟨cleanup, rfl⟩, rfl⟩

/-- The text is a tag around an identifier: an opener, perhaps the joiner and the boundary
    mark, the identifier between separators, perhaps the boundary and the cleanup mark, and a
    closer. Unlike the tags that are read, it may hold separators in its identifier. -/
def IsTagAround (g : Grammar) (IsIdentifier : List Char → Prop) (w : List Char) : Prop :=
  ∃ joined startMark identifier endMark cleanup, IsIdentifier identifier ∧
    w = g.headText joined startMark ++
      g.separator :: (identifier ++ g.separator :: g.tailText endMark cleanup)

/-- The words of an expression that spells tags are the texts of tags. -/
theorem matches_spelled {r : Regex} {IsIdentifier : List Char → Prop} (last : Nat)
    (h : ∀ prev w rest, r.Matches prev w rest ↔ IsIdentifier w) (prev : Option Char)
    (w rest : List Char) :
    (inRow (g.headRow ++ .group 2 r :: g.tailRow last)).Matches prev w rest ↔
      g.IsTagAround IsIdentifier w := by
  have hgroup : (Regex.group 2 r).Matches = fun _ w _ => IsIdentifier w := by
    funext prev w rest
    exact propext (h prev w rest)
  rw [matches_inRow_append, matches_inRow_cons, matches_headRow, matches_tailRow, hgroup]
  constructor
  · intro h
    obtain ⟨_, _, rfl, ⟨joined, startMark, rfl⟩, identifier, _, rfl, hid, endMark, cleanup, rfl⟩ :=
      h
    exact ⟨joined, startMark, identifier, endMark, cleanup, hid, by simp⟩
  · intro h
    obtain ⟨joined, startMark, identifier, endMark, cleanup, hid, rfl⟩ := h
    exact ⟨_, _, by simp, ⟨joined, startMark, rfl⟩, identifier, _, rfl, hid, endMark, cleanup, rfl⟩

end Grammar

/-! ## Section 4: What the patterns match -/

namespace Regex

/-- Wherever the matcher begins, the texts behind which it can end are those of `L`. -/
def MatchesExactly (r : Regex) (L : List Char → Prop) : Prop :=
  ∀ p w rest, p.rest = w ++ rest → ((∃ q ∈ r.ends p, p.Leads w q) ↔ L w)

theorem matchesExactly_of_matches {r : Regex} {L : List Char → Prop}
    (h : ∀ prev w rest, r.Matches prev w rest ↔ L w) : r.MatchesExactly L := by
  intro p w rest hrest
  constructor
  · intro hends
    obtain ⟨q, hq, hw⟩ := hends
    obtain ⟨w', hw', hmatch⟩ := (realizes_ends r p).sound hq
    obtain ⟨rfl, -⟩ := hw'.unique hw rfl
    exact (h _ _ _).1 hmatch
  · intro hw
    have hleads := Place.Leads.exists_of_rest hrest
    obtain ⟨q, hq, ho⟩ := (realizes_ends r p).complete hleads ((h _ _ _).2 hw)
    obtain ⟨w', hw', -⟩ := (realizes_ends r p).sound hq
    obtain ⟨rfl, -⟩ := hw'.unique hleads ho
    exact ⟨q, hq, hw'⟩

end Regex

namespace Grammar

open Regex Reader

variable {g : Grammar} {p : TagPattern}

/-- The pattern of all tags spells them. -/
theorem exists_spells_any (g : Grammar) : ∃ p : TagPattern,
    readAnySize? (g.tagPattern g.anyIdentifierPattern) = some (p.expr, p.names) ∧
      p.Spells g (someOf g.separator) 2 :=
  exists_spells (readsAs_anyIdentifierPattern g) (by simp) rfl rfl

theorem groupNumbers_literal (w : List Char) : (inRow (literal w)).groupNumbers = [] := by
  induction w with
  | nil => rfl
  | cons c w ih =>
    cases w with
    | nil => rfl
    | cons d w => exact ih

/-- The pattern of the tags of one identifier spells them. -/
theorem exists_spells_exactly (g : Grammar) (identifier : List Char) : ∃ p : TagPattern,
    readAnySize? (g.tagPattern (escapePattern identifier)) = some (p.expr, p.names) ∧
      p.Spells g (inRow (literal identifier)) 2 := by
  refine exists_spells (readsAs_escapePattern identifier) (fun p hp => ?_)
    (Part.toRegex_sequence_charPart identifier) (groupNumbers_literal identifier)
  rw [Part.depth_of_mem_charPart hp]
  exact Nat.zero_le 2

/-- In every grammar, the patterns of all tags and of the tags of any one identifier are
    patterns. They match the texts of the tags with some identifier, in which there is no
    separator and no line break, and of those with the given one, and nothing else. -/
theorem tagPatterns_matchExactly (g : Grammar) (identifier : List Char) :
    (∃ r names, readAnySize? (g.tagPattern g.anyIdentifierPattern) = some (r, names) ∧
      r.MatchesExactly (g.IsTagAround fun i =>
        i ≠ [] ∧ ∀ c ∈ i, c ≠ g.separator ∧ c ≠ '\r' ∧ c ≠ '\n')) ∧
    (∃ r names, readAnySize? (g.tagPattern (escapePattern identifier)) = some (r, names) ∧
      r.MatchesExactly (g.IsTagAround (· = identifier))) := by
  constructor
  · obtain ⟨p, hread, hspells⟩ := g.exists_spells_any
    refine ⟨p.expr, p.names, hread, matchesExactly_of_matches ?_⟩
    rw [hspells.expr]
    exact matches_spelled 2 fun _ _ _ => matches_someOf g.separator
  · obtain ⟨p, hread, hspells⟩ := g.exists_spells_exactly identifier
    refine ⟨p.expr, p.names, hread, matchesExactly_of_matches ?_⟩
    rw [hspells.expr]
    refine matches_spelled 2 fun _ w _ => ?_
    rw [matches_literal]

/-- The limit matters only to delimiters and identifiers of hundreds of thousands of bytes. -/
theorem read?_tagPattern_any (h : byteLength g.opener + byteLength g.closer + 40 ≤ weightLimit) :
    read? (g.tagPattern g.anyIdentifierPattern) =
      readAnySize? (g.tagPattern g.anyIdentifierPattern) :=
  read?_tagPattern (readsAs_anyIdentifierPattern g) h

theorem read?_tagPattern_exactly {identifier : List Char} (h : byteLength g.opener +
      byteLength identifier + byteLength g.closer + 35 ≤ weightLimit) :
    read? (g.tagPattern (escapePattern identifier)) =
      readAnySize? (g.tagPattern (escapePattern identifier)) := by
  have hweight := Part.weight_sequence_le (identifier.map charPart).reverse
  rw [Part.total_weight_charPart] at hweight
  exact read?_tagPattern (readsAs_escapePattern identifier) (by omega)

end Grammar

/-! ## Section 5: Tags with and without a pattern -/

namespace TagPattern

open Text Regex Reader Grammar

variable {g : Grammar} {p : TagPattern} {s : List Char}

/-- The pattern of all tags sights what is read with any identifier. -/
theorem Spells.sighting?_any (h : p.Spells g (someOf g.separator) 2) (prev : Option Char) :
    p.sighting? prev s = g.sighting? g.anyIdentifier? s := by
  have hchar : ∀ c, noneOf g.separator c = true ↔ g.isIdentifierChar c = true := by
    intro c
    rw [noneOf_eq_true_iff]
    simp [isIdentifierChar, isLineBreak, and_comm]
  have htakes : (someOf g.separator).TakesOnly g.isIdentifierChar := fun c => (hchar c).1
  have hselects : ∀ t, g.sighting? g.anyIdentifier? s = some t →
      g.Selects (someOf g.separator) t.identifier := by
    intro t ht
    obtain ⟨hne, hchars, -⟩ := isTag_of_sighting? ht
    exact (matches_someOf g.separator).2
      ⟨hne, fun c hc => noneOf_eq_true_iff.1 ((hchar c).2 (hchars c hc))⟩
  rw [h.sighting?_eq_filter (readsIdentifiers_of_takesOnly htakes rfl s)]
  cases hsighted : g.sighting? g.anyIdentifier? s with
  | none => rfl
  | some t => simp [hselects t hsighted]

/-- Wherever the matcher ends that reads a text behind a head, it has read this text. -/
theorem eq_of_mem_ends_literal {prev : Option Char} {startMark : Bool}
    {head inner identifier : List Char} (hhead : (startMark, head) ∈ g.heads) {q : Place}
    (hq : q ∈ (inRow (literal identifier)).ends
      (behindHead g prev (head ++ inner) startMark head inner)) :
    inner = identifier ++ q.rest ∧ inner.take (q.offset - head.length) = identifier := by
  obtain ⟨w, hinner, hoffset, hw⟩ := exists_of_mem_ends hhead hq
  rw [matches_literal] at hw
  obtain rfl : w = identifier := hw
  refine ⟨hinner, ?_⟩
  rw [hoffset, hinner, Nat.add_sub_cancel_left, List.take_left]

/-- The pattern of the tags of one identifier sights what is read with this identifier. -/
theorem Spells.sighting?_exactly {identifier : List Char}
    (h : p.Spells g (inRow (literal identifier)) 2) (prev : Option Char) :
    p.sighting? prev s = g.sighting? (exactIdentifier? identifier) s := by
  by_cases hhead : ∃ head ∈ g.heads, ∃ inner, s = head.2 ++ inner
  · obtain ⟨⟨startMark, head⟩, hmem, inner, rfl⟩ := hhead
    rw [h.sighting?_head_append prev hmem, Grammar.sighting?_head_append hmem]
    cases hafter : after? identifier inner with
    | none =>
      rw [exactIdentifier?, hafter, List.findSome?_eq_none_iff.2]
      · rfl
      · intro q hq
        have hsome := after?_eq_some_iff.2 (eq_of_mem_ends_literal hmem hq).1
        rw [hafter] at hsome
        cases hsome
    | some outer =>
      obtain rfl := after?_eq_some_iff.1 hafter
      have hmatch : (inRow (literal identifier)).Matches (some g.separator) identifier outer := by
        rw [matches_literal]
      obtain ⟨q, hq, hrest⟩ := exists_mem_ends prev hmem hmatch
      rw [exactIdentifier?, hafter]
      refine findSome?_eq_of_mem hq ?_ fun q' hq' => .inr ?_
      · rw [(eq_of_mem_ends_literal hmem hq).2, hrest]
        rfl
      · obtain ⟨hrest', hid⟩ := eq_of_mem_ends_literal hmem hq'
        rw [hid, ← List.append_cancel_left hrest']
        rfl
  · rw [h.sighting?_of_no_head hhead, Grammar.sighting?_of_no_head hhead]

/-- What the pattern of all tags cuts out of a line is what is cut out without it. -/
theorem pieces_tagPattern_any (g : Grammar) : ∃ p : TagPattern,
    readAnySize? (g.tagPattern g.anyIdentifierPattern) = some (p.expr, p.names) ∧
      ∀ line, (Selector.pattern p).pieces g line = Selector.any.pieces g line := by
  obtain ⟨p, hread, hspells⟩ := g.exists_spells_any
  exact ⟨p, hread, fun line => cut_eq_cut g.finds_sighting?
    (fun _ _ => hspells.sighting?_any) 0 false none⟩

/-- What the pattern of the tags of one identifier cuts out of a line is what is cut out
    without it. -/
theorem pieces_tagPattern_exactly (g : Grammar) (identifier : List Char) : ∃ p : TagPattern,
    readAnySize? (g.tagPattern (escapePattern identifier)) = some (p.expr, p.names) ∧
      ∀ line, (Selector.pattern p).pieces g line =
        (Selector.exactly identifier).pieces g line := by
  obtain ⟨p, hread, hspells⟩ := g.exists_spells_exactly identifier
  exact ⟨p, hread, fun line => cut_eq_cut (g.finds_sighting?_exactly identifier)
    (fun _ _ => hspells.sighting?_exactly) 0 false none⟩

end TagPattern

end Marginalia
