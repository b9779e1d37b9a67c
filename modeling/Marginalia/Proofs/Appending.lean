import Mathlib.Data.List.TakeWhile
import Marginalia.Proofs.Cutting
import Marginalia.Proofs.Scanning

/-! # Tags behind other text

    Tags are appended to lines that hold code, comments and other tags, or what is left of
    tags that somebody edited by hand. A line is read from left to right, so a tag that
    begins in the old text may end in the appended one and hide it: behind `/*-?|a|*`, the
    tag `/*-?|t|?*/` lends its first character to a tag of `a`.

    * **`Grammar.ReportsLast`**: the last thing to be read is the appended tag.
    * **`Grammar.RunsInto`**: a tag begins in the line and ends in the appended text.
    * **`Grammar.reportsLast_iff_not_runsInto`**: nothing else hides an appended tag,
      whatever the delimiters are.
    * **`Grammar.EndsUnfinished`**: the line ends in a tag that lacks only an end of its
      closer, and the opener has what it lacks.
    * **`Grammar.runsInto_iff_endsUnfinished`**: where delimiters hold no marks, only such
      lines hide a tag, and they hide every one. -/

namespace Marginalia

open Text

namespace Grammar

variable {g : Grammar} {line : List Char} {t : Tag}

/-! ## Section 1: Reported and hidden tags -/

/-- The last piece of the line is the tag that was appended to it. -/
def ReportsLast (g : Grammar) (line : List Char) (t : Tag) : Prop :=
  ∃ ps, g.pieces (line ++ t.render g) = ps ++ [.tag (.ofTag g t)] ∧ ps.flatMap Piece.raw = line

/-- A tag that is read begins in the line and ends in the tag that was appended to it. -/
def RunsInto (g : Grammar) (line : List Char) (t : Tag) : Prop :=
  ∃ ps s qs a b, g.pieces (line ++ t.render g) = ps ++ .tag s :: qs ∧ s.raw = a ++ b ∧
    a ≠ [] ∧ b ≠ [] ∧ ps.flatMap Piece.raw ++ a = line ∧ b ++ qs.flatMap Piece.raw = t.render g

theorem pieces_render (ht : g.Names t.identifier) :
    g.pieces (t.render g) = [.tag (.ofTag g t)] := by
  have hsight : g.sighting? g.anyIdentifier? (t.render g ++ []) = some (.ofTag g t) := by
    rw [List.append_nil]
    exact sighting?_render ht
  have hcut := Piece.cut_append_of_some hsight rfl (Tag.render_ne_nil g t)
  rw [List.append_nil] at hcut
  rw [pieces, hcut]
  simp [Piece.cut]

/-- A tag that is not hidden is reported: the pieces behind the line are the pieces of the
    appended text alone. -/
theorem reportsLast_or_runsInto (ht : g.Names t.identifier) (line : List Char) :
    g.ReportsLast line t ∨ g.RunsInto line t := by
  rcases Piece.split_or_cross (g.flatMap_raw_pieces (line ++ t.render g)) with
    ⟨ps, qs, hpieces, hps, hqs⟩ | hcross
  · left
    have hcut := Piece.eq_cut_of_append g.finds_sighting? hpieces
    rw [hqs] at hcut
    exact ⟨ps, by rw [hpieces, hcut, ← pieces, pieces_render ht], hps⟩
  · exact .inr hcross

theorem ReportsLast.not_runsInto (h : g.ReportsLast line t) : ¬ g.RunsInto line t := by
  obtain ⟨ps, hlast, hline⟩ := h
  rintro ⟨ps', s, qs, a, b, hpieces, hs, ha, hb, hline', -⟩
  have hapos := List.length_pos_iff.2 ha
  have hbpos := List.length_pos_iff.2 hb
  have hlen := congrArg List.length hline
  rw [← hline', List.length_append] at hlen
  rw [hlast] at hpieces
  rcases append_cons_eq_append_cons hpieces with ⟨rfl, -, -⟩ | ⟨us, rfl, -⟩ | ⟨us, rfl, -⟩
  · omega
  · simp only [List.flatMap_append, List.flatMap_cons, List.length_append, Piece.raw, hs] at hlen
    omega
  · simp only [List.flatMap_append, List.flatMap_cons, List.length_append] at hlen
    omega

/-- An appended tag is reported unless one that begins before it takes a part of it. -/
theorem reportsLast_iff_not_runsInto (ht : g.Names t.identifier) :
    g.ReportsLast line t ↔ ¬ g.RunsInto line t :=
  ⟨ReportsLast.not_runsInto, (reportsLast_or_runsInto ht line).resolve_right⟩

/-! ## Section 2: Unfinished tags -/

/-- The text of the sighting is that of a tag with its identifier and marks, perhaps
    without the joiner. -/
structure IsTag (g : Grammar) (s : Sighting) : Prop where
  nonempty : s.identifier ≠ []
  chars    : ∀ c ∈ s.identifier, g.isIdentifierChar c = true
  spelled  : ∃ joined, s.raw = g.headText joined s.startMark ++
    g.separator :: (s.identifier ++ g.separator :: g.tailText s.endMark s.cleanup)

/-- The line ends in a tag, but for an end of the closer, and the opener and the joiner of
    another tag begin with what is missing. -/
def EndsUnfinished (g : Grammar) (line : List Char) : Prop :=
  ∃ ps y s m, g.pieces line = ps ++ y.map .plain ∧ g.IsTag s ∧ s.raw = y ++ m ∧
    m ≠ [] ∧ m <:+ g.closer ∧ m <+: g.opener ++ [joiner]

theorem IsTag.separator_not_mem {s : Sighting} (hs : g.IsTag s) : g.separator ∉ s.identifier := by
  intro hm
  have hchar := hs.chars _ hm
  simp [isIdentifierChar] at hchar

theorem chars_of_anyIdentifier? {y identifier outer : List Char}
    (h : g.anyIdentifier? y = some (identifier, outer)) :
    identifier ≠ [] ∧ ∀ c ∈ identifier, g.isIdentifierChar c = true := by
  unfold anyIdentifier? at h
  split at h
  · cases h
  · next hne =>
    obtain ⟨rfl, -⟩ := Prod.mk.inj (Option.some.inj h)
    exact ⟨hne, fun c hc => List.mem_takeWhile_imp hc⟩

/-- Without marks in the delimiters, a tag is read wherever its text stands. -/
theorem sighting?_any_eq_some_iff (hg : g.Unmarked) {y : List Char} {s : Sighting} :
    g.sighting? g.anyIdentifier? y = some s ↔ g.IsTag s ∧ s.raw <+: y := by
  rw [sighting?_eq_some_iff hg]
  constructor
  · rintro ⟨joined, inner, rest, rfl, hid, hraw⟩
    obtain ⟨hne, hchars⟩ := chars_of_anyIdentifier? hid
    refine ⟨⟨hne, hchars, joined, hraw⟩, rest, ?_⟩
    rw [hraw, eq_append_of_anyIdentifier? hid]
    simp
  · rintro ⟨⟨hne, hchars, joined, hraw⟩, rest, rfl⟩
    refine ⟨joined, s.identifier ++ g.separator :: (g.tailText s.endMark s.cleanup ++ rest), rest,
      ?_, anyIdentifier?_of_chars hne hchars _, hraw⟩
    rw [hraw]
    simp

/-- What is read in a text does not depend on what follows it, up to the first piece that
    does not lie in it. -/
theorem cut_append_of_cut (hg : g.Unmarked) {ps qs : List Piece} {x w v : List Char}
    (h : Piece.cut (g.sighting? g.anyIdentifier?) 0 (x ++ (w ++ v)) = ps ++ qs)
    (hx : ps.flatMap Piece.raw = x) :
    Piece.cut (g.sighting? g.anyIdentifier?) 0 (x ++ w) =
      ps ++ Piece.cut (g.sighting? g.anyIdentifier?) 0 w := by
  induction ps generalizing x with
  | nil =>
    subst hx
    rfl
  | cons p ps ih =>
    rw [List.flatMap_cons] at hx
    subst hx
    rw [List.append_assoc] at h ⊢
    cases p with
    | plain c =>
      have hnone := Piece.find_eq_none_of_cut h
      simp only [Piece.raw, List.singleton_append] at h hnone ⊢
      have hnone' : g.sighting? g.anyIdentifier? (c :: (ps.flatMap Piece.raw ++ w)) = none := by
        rw [Option.eq_none_iff_forall_ne_some] at hnone ⊢
        intro s hs
        obtain ⟨htag, hpre⟩ := (sighting?_any_eq_some_iff hg).1 hs
        exact hnone s ((sighting?_any_eq_some_iff hg).2 ⟨htag, hpre.trans ⟨v, by simp⟩⟩)
      rw [Piece.cut_cons_of_none hnone] at h
      rw [Piece.cut_cons_of_none hnone', ih (List.cons.inj h).2 rfl]
      rfl
    | tag s =>
      have hsome := Piece.find_eq_some_of_cut h
      obtain ⟨htag, -⟩ := (sighting?_any_eq_some_iff hg).1 hsome
      have hne := (g.finds_sighting? _ _ hsome).1
      have hsome' : g.sighting? g.anyIdentifier? (s.raw ++ (ps.flatMap Piece.raw ++ w)) = some s :=
        (sighting?_any_eq_some_iff hg).2 ⟨htag, List.prefix_append _ _⟩
      simp only [Piece.raw] at h hsome ⊢
      rw [Piece.cut_append_of_some hsome rfl hne] at h
      rw [Piece.cut_append_of_some hsome' rfl hne, ih (List.cons.inj h).2 rfl]
      rfl

/-- No tag is read in a tag that lacks an end. -/
theorem sighting?_unfinished_eq_none (hg : g.Unmarked) {s : Sighting} (hs : g.IsTag s)
    {y m z : List Char} (hraw : s.raw = y ++ m) (hm : m ≠ []) (hz : z <:+ y) :
    g.sighting? g.anyIdentifier? z = none := by
  rw [Option.eq_none_iff_forall_ne_some]
  intro s' hs'
  obtain ⟨htag, r, hr⟩ := (sighting?_any_eq_some_iff hg).1 hs'
  obtain ⟨joined, hspell⟩ := hs.spelled
  obtain ⟨joined', hspell'⟩ := htag.spelled
  obtain ⟨u, rfl⟩ := hz
  have htail := hg.separator_not_mem_tailText s.endMark s.cleanup
  have htext : (u ++ g.headText joined' s'.startMark) ++ g.separator :: (s'.identifier ++
      g.separator :: (g.tailText s'.endMark s'.cleanup ++ (r ++ m))) =
        g.headText joined s.startMark ++ g.separator :: (s.identifier ++
          g.separator :: g.tailText s.endMark s.cleanup) := by
    rw [← hspell, hraw, ← hr, hspell']
    simp
  -- both tags have two separators, so they are the same ones, and both end behind the closer
  rcases split_at_first (hg.separator_not_mem_headText _ _) htext with ⟨-, hinner⟩ | ⟨k, -, hinner⟩
  · obtain ⟨-, houter⟩ := split_at_first_inj hs.separator_not_mem htag.separator_not_mem hinner
    have hend : g.tailText s'.endMark s'.cleanup ++ (r ++ m) =
        g.tailText s.endMark s.cleanup ++ [] := by
      rw [houter, List.append_nil]
    exact hm (List.append_eq_nil_iff.1 (hg.tailText_inj hend).2.2).2
  · rcases split_at_first hs.separator_not_mem hinner with ⟨-, houter⟩ | ⟨k', -, houter⟩
    · exact htail (by simp [← houter])
    · exact htail (by simp [← houter])

/-- The marks of a tail are passed by where its end begins with no mark. -/
theorem isSuffix_closer_of_isSuffix_tailText {marked cleanup : Bool} {c : Char} {cs : List Char}
    (hc : g.isMark c = false) (h : c :: cs <:+ g.tailText marked cleanup) :
    c :: cs <:+ g.closer := by
  have hboundary : c ≠ g.boundary := by
    rintro rfl
    rw [g.isMark_boundary] at hc
    cases hc
  have hcleanup : c ≠ g.cleanup := by
    rintro rfl
    rw [g.isMark_cleanup] at hc
    cases hc
  unfold tailText at h
  cases marked <;> cases cleanup <;> simpa [List.suffix_cons_iff, hboundary, hcleanup] using h

/-- What a tag begins with and no marks are in is the beginning of its opener, or of that and
    the joiner. -/
theorem isPrefix_opener_of_isPrefix_render {b : List Char}
    (hb : ∀ c, g.isMark c = true → c ∉ b) (h : b <+: t.render g) :
    b <+: g.opener ++ [joiner] := by
  rw [Tag.render_eq] at h
  have hhead : b <+: g.headText true t.role.opensRange :=
    isPrefix_of_not_mem (hb _ g.isMark_separator) h
  unfold headText at hhead
  cases hrole : t.role.opensRange with
  | false => simpa [hrole] using hhead
  | true =>
    rw [hrole] at hhead
    exact isPrefix_of_not_mem (v := []) (hb _ g.isMark_boundary) (by simpa using hhead)

/-- A tag that ends in the next one takes an end of its closer from there: that is all that
    can stand at the beginning of a tag. -/
theorem isSuffix_closer_of_crossing (hg : g.Unmarked) (ht : g.Names t.identifier)
    {s : Sighting} (hs : g.IsTag s) {a b r : List Char} (hraw : s.raw = a ++ b) (ha : a ≠ [])
    (hb : b ≠ []) (hr : b ++ r = t.render g) :
    b <:+ g.closer ∧ b <+: g.opener ++ [joiner] := by
  obtain ⟨joined, hspell⟩ := hs.spelled
  have hsuffix : b <:+ s.raw := ⟨a, hraw.symm⟩
  have hprefix : b <+: t.render g := ⟨r, hr⟩
  rw [Tag.render_eq] at hr
  rw [hspell] at hsuffix
  rcases isSuffix_append_cons hsuffix with ⟨h, hh, rfl⟩ | hsuffix
  · -- from its head on: the heads would end together
    exfalso
    have hnot : g.separator ∉ h := fun hm => hg.separator_not_mem_headText _ _ (hh.subset hm)
    rw [List.append_assoc, List.cons_append] at hr
    obtain ⟨rfl, -⟩ := split_at_first_inj (hg.separator_not_mem_headText _ _) hnot hr
    obtain ⟨u, hu⟩ := hh
    by_cases hnil : u = []
    · rw [hspell, ← hu, hnil, List.nil_append] at hraw
      exact ha (List.append_left_eq_self.1 hraw.symm)
    · exact headText_ne_append hnil hu.symm
  · rcases isSuffix_append_cons hsuffix with ⟨i, hi, rfl⟩ | hsuffix
    · -- from its identifier on: that of the other one would begin with a tail
      exfalso
      have hnot : g.separator ∉ i := fun hm => hs.separator_not_mem (hi.subset hm)
      rw [List.append_assoc, List.cons_append] at hr
      obtain ⟨-, hrest⟩ := split_at_first_inj (hg.separator_not_mem_headText _ _) hnot hr
      exact tailText_append_ne hg ht _ _ _ _ hrest
    · -- from its tail on
      obtain ⟨k, ks, hk⟩ := List.exists_cons_of_ne_nil g.opener_ne_nil
      obtain ⟨c, cs, rfl⟩ := List.exists_cons_of_ne_nil hb
      have hck : c = k := by
        rw [headText, hk] at hr
        exact (List.cons.inj hr).1
      have hmark : g.isMark c = false := by
        rw [hck]
        exact hg k (by simp [hk])
      have hcloser : c :: cs <:+ g.closer := isSuffix_closer_of_isSuffix_tailText hmark hsuffix
      refine ⟨hcloser, isPrefix_opener_of_isPrefix_render ?_ hprefix⟩
      intro x hx hm
      exact hg.not_mem_closer hx (hcloser.subset hm)

/-- A line whose last tag ends behind it ends unfinished. -/
theorem RunsInto.endsUnfinished (hg : g.Unmarked) (ht : g.Names t.identifier)
    (h : g.RunsInto line t) : g.EndsUnfinished line := by
  obtain ⟨ps, s, qs, a, b, hpieces, hs, ha, hb, rfl, hr⟩ := h
  have hfirst := Piece.eq_cut_of_append g.finds_sighting? hpieces
  obtain ⟨htag, -⟩ := (sighting?_any_eq_some_iff hg).1 (Piece.find_eq_some_of_cut hfirst.symm)
  obtain ⟨hcloser, hopener⟩ := isSuffix_closer_of_crossing hg ht htag hs ha hb hr
  refine ⟨ps, a, s, b, ?_, htag, hs, hb, hcloser, hopener⟩
  have hplain : Piece.cut (g.sighting? g.anyIdentifier?) 0 (a ++ []) = a.map .plain ++ [] := by
    refine (Piece.cut_append_of_none fun z hz _ => ?_).trans (by simp [Piece.cut])
    rw [List.append_nil]
    exact sighting?_unfinished_eq_none hg htag hs hb hz
  simp only [List.append_nil] at hplain
  rw [pieces, List.append_assoc] at hpieces
  rw [pieces, cut_append_of_cut hg hpieces rfl, hplain]

/-- An unfinished tag takes what it lacks from any tag behind it, or another one that
    begins before it does. -/
theorem EndsUnfinished.runsInto (hg : g.Unmarked) (ht : g.Names t.identifier)
    (h : g.EndsUnfinished line) : g.RunsInto line t := by
  obtain ⟨ps, y, s, m, hpieces, htag, hs, -, hcloser, hopener⟩ := h
  refine (reportsLast_or_runsInto ht line).resolve_left ?_
  rintro ⟨ps', hlast, hps'⟩
  -- the line is cut as before, so behind `ps` begins no tag
  have hsame : g.pieces line = ps' := by
    have hcut := cut_append_of_cut (w := []) hg hlast hps'
    simpa only [List.append_nil, Piece.cut, pieces] using hcut
  have hrest : y.map .plain ++ [.tag (.ofTag g t)] =
      Piece.cut (g.sighting? g.anyIdentifier?) 0 (y ++ t.render g) := by
    rw [← hsame, hpieces, List.append_assoc] at hlast
    have hcut := Piece.eq_cut_of_append g.finds_sighting? hlast
    rw [List.flatMap_append, Piece.flatMap_raw_map_plain] at hcut
    simpa [Piece.raw, Sighting.ofTag] using hcut
  -- but `s` is one
  obtain ⟨c, cs, rfl⟩ : ∃ c cs, y = c :: cs := by
    apply List.exists_cons_of_ne_nil
    rintro rfl
    obtain ⟨joined, hspell⟩ := htag.spelled
    apply hg.not_mem_closer g.isMark_separator
    apply hcloser.subset
    rw [← List.nil_append m, ← hs, hspell]
    simp
  have hnone := Piece.find_eq_none_of_cut hrest.symm
  have hsome : g.sighting? g.anyIdentifier? (c :: cs ++ t.render g) = some s := by
    refine (sighting?_any_eq_some_iff hg).2 ⟨htag, ?_⟩
    rw [hs, List.prefix_append_right_inj]
    refine hopener.trans ?_
    simp [Tag.render_eq, headText]
  rw [hnone] at hsome
  cases hsome

/-- Whether a line hides the tags behind it can be told from the line alone. -/
theorem runsInto_iff_endsUnfinished (hg : g.Unmarked) (ht : g.Names t.identifier) :
    g.RunsInto line t ↔ g.EndsUnfinished line :=
  ⟨RunsInto.endsUnfinished hg ht, EndsUnfinished.runsInto hg ht⟩

/-- No line hides a tag if the opener and the joiner begin with no end of the closer. -/
theorem reportsLast_of_disjoint (hg : g.Unmarked) (ht : g.Names t.identifier)
    (hd : ∀ m, m <:+ g.closer → m <+: g.opener ++ [joiner] → m = []) (line : List Char) :
    g.ReportsLast line t := by
  rw [reportsLast_iff_not_runsInto ht, runsInto_iff_endsUnfinished hg ht]
  rintro ⟨-, -, -, m, -, -, -, hm, hcloser, hopener⟩
  exact hm (hd m hcloser hopener)

/-- When a tag that is appended to a line is reported as its last one. -/
theorem reportsLast_iff_of_accepted (ht : g.identifierFault? t.identifier = none) :
    (g.ReportsLast line t ↔ ¬ g.RunsInto line t) ∧
      (g.Unmarked → (g.RunsInto line t ↔ g.EndsUnfinished line)) := by
  have hname := names_of_identifierFault?_eq_none ht
  exact ⟨reportsLast_iff_not_runsInto hname, fun hg => runsInto_iff_endsUnfinished hg hname⟩

/-- Behind `/*-?|a|*`, a tag of `t` is not reported. -/
theorem reportsLast_iff_of_accepted_lacking_slash :
    standard.identifierFault? ['t'] = none ∧ standard.Unmarked ∧
      ¬ standard.ReportsLast "/*-?|a|*".toList ⟨['t'], .single, false⟩ := by
  have hends : standard.EndsUnfinished "/*-?|a|*".toList :=
    ⟨[], "/*-?|a|*".toList, ⟨['a'], true, false, false, "/*-?|a|*/".toList⟩, ['/'],
      by decide, ⟨by decide, List.forall_mem_singleton.2 (by decide), true, by decide⟩,
      by decide, by decide, by decide, by decide⟩
  have happended := @reportsLast_iff_of_accepted standard "/*-?|a|*".toList
    ⟨['t'], .single, false⟩ (by decide)
  exact ⟨by decide, by decide, fun hreport =>
    happended.1.1 hreport ((happended.2 (by decide)).2 hends)⟩

end Grammar

end Marginalia
