import Mathlib.Data.List.Infix
import Marginalia.Proofs.Scanning

/-! # Where the comment of a tag ends

    A tag is a comment of the file it stands in, and whoever reads that file ends a
    comment at the first closer. Marks and delimiters are free to choose, so a closer can
    come up in a tag of which no part holds one: between `#|` and `|#`, the tag of `#x` is
    `#|-?|#x||#`, whose comment ends before the `x`.

    * **`Tag.content`**: what a tag has between its delimiters.
    * **`Tag.ClosesAtEnd`**: the first closer behind the opener is the last text of the tag.
    * **`Tag.ClosesEarly`**: the places at which another closer can come up.
    * **`Tag.closesAtEnd_iff_not_closesEarly`**: these are all of them.
    * **`Tag.ClosesAtEnd.scan_render_append`**: read forwards, such a tag is one comment,
      whatever follows it. -/

namespace Marginalia

open Grammar

/-! ## Section 1: Between the delimiters -/

/-- A beginning of a text either ends before a certain place or goes over it. -/
theorem isPrefix_append_cons {α : Type*} {c : α} {p u w : List α} (h : p <+: u ++ c :: w) :
    p <+: u ∨ ∃ v, p = u ++ c :: v ∧ v <+: w := by
  obtain ⟨r, hr⟩ := h
  rcases List.append_eq_append_iff.1 hr with ⟨as, hu, -⟩ | ⟨bs, hp, hw⟩
  · exact .inl ⟨as, hu.symm⟩
  · cases bs with
    | nil => exact .inl (by simp [hp])
    | cons b bs =>
      obtain ⟨rfl, hw'⟩ := List.cons.inj hw
      exact .inr ⟨bs, hp, r, hw'.symm⟩

/-- The default marks between the delimiters `#|` and `|#`. -/
def Grammar.hashed : Grammar where
  boundary  := '?'
  separator := '|'
  cleanup   := '~'
  opener    := ['#', '|']
  closer    := ['|', '#']
  accepted  := by decide

namespace Tag

variable {g : Grammar} {t : Tag}

/-- The marks between the joiner and the first separator. -/
def marksBefore (g : Grammar) (t : Tag) : List Char :=
  if t.role.opensRange then [g.boundary] else []

/-- The marks between the second separator and the closer. -/
def marksAfter (g : Grammar) (t : Tag) : List Char :=
  (if t.role.closesRange then [g.boundary] else []) ++ (if t.cleanup then [g.cleanup] else [])

/-- What stands between the delimiters of a tag. -/
def content (g : Grammar) (t : Tag) : List Char :=
  joiner :: t.marksBefore g ++ g.separator :: (t.identifier ++ g.separator :: t.marksAfter g)

theorem render_eq_content (g : Grammar) (t : Tag) :
    t.render g = g.opener ++ (t.content g ++ g.closer) := by
  simp [render, head, tail, content, marksBefore, marksAfter]

theorem isMark_of_mem_marksBefore {c : Char} (h : c ∈ t.marksBefore g) : g.isMark c = true := by
  unfold marksBefore at h
  split at h
  · rw [List.mem_singleton.1 h]
    exact g.isMark_boundary
  · exact absurd h List.not_mem_nil

theorem isMark_of_mem_marksAfter {c : Char} (h : c ∈ t.marksAfter g) : g.isMark c = true := by
  rcases List.mem_append.1 h with h | h
  · split at h
    · rw [List.mem_singleton.1 h]
      exact g.isMark_boundary
    · exact absurd h List.not_mem_nil
  · split at h
    · rw [List.mem_singleton.1 h]
      exact g.isMark_cleanup
    · exact absurd h List.not_mem_nil

/-! ## Section 2: The first closer -/

/-- Nothing follows the first closer behind the opener. -/
def ClosesAtEnd (g : Grammar) (t : Tag) : Prop :=
  ∀ u v, t.render g = g.opener ++ (u ++ (g.closer ++ v)) → v = []

/-- The closer of a tag is the first one if none begins in its content. -/
theorem closesAtEnd_iff_forall_isSuffix :
    t.ClosesAtEnd g ↔ ∀ y, y <:+ t.content g → y ≠ [] → ¬ g.closer <+: y ++ g.closer := by
  constructor
  · intro h y hy hne hpre
    obtain ⟨u, hu⟩ := hy
    obtain ⟨v, hv⟩ := hpre
    have hnil : v = [] := by
      apply h u v
      rw [render_eq_content, ← hu, List.append_assoc, hv]
    -- a closer with nothing behind it begins at the end of the content
    rw [hnil, List.append_nil] at hv
    exact hne (List.append_left_eq_self.1 hv.symm)
  · intro h u v hrender
    rw [render_eq_content] at hrender
    have htext := List.append_cancel_left hrender
    rcases List.append_eq_append_iff.1 htext with ⟨as, -, hcloser⟩ | ⟨bs, hcontent, hcloser⟩
    · have hlen := congrArg List.length hcloser
      simp only [List.length_append] at hlen
      exact List.length_eq_zero_iff.1 (by omega)
    · by_cases hbs : bs = []
      · rw [hbs, List.nil_append] at hcloser
        exact List.append_right_eq_self.1 hcloser
      · exact absurd ⟨v, hcloser⟩ (h bs ⟨u, hcontent.symm⟩ hbs)

instance (g : Grammar) (t : Tag) : Decidable (t.ClosesAtEnd g) :=
  decidable_of_iff (∀ y ∈ (t.content g).tails, y ≠ [] → ¬ g.closer <+: y ++ g.closer) (by
    simp only [List.mem_tails]
    exact closesAtEnd_iff_forall_isSuffix.symm)

/-- A closer comes up before the end of a tag. -/
inductive ClosesEarly (g : Grammar) (t : Tag) : Prop where
  /-- The joiner and the mark behind it hold one. -/
  | ahead (hc : g.closer <:+: joiner :: t.marksBefore g)
  /-- One goes over the first separator. -/
  | before {u v : List Char} (hc : g.closer = u ++ g.separator :: v)
      (hu : u <:+ joiner :: t.marksBefore g)
      (hv : v <+: t.identifier ++ g.separator :: (t.marksAfter g ++ g.closer))
  /-- One begins in the identifier, or directly behind it, and goes over the second
      separator. -/
  | behind {u v : List Char} (hc : g.closer = u ++ g.separator :: v) (hu : u <:+ t.identifier)
      (hv : v <+: t.marksAfter g ++ g.closer)
  /-- One begins with the last marks. -/
  | marks {u : List Char} (hne : u ≠ []) (hu : u <:+ t.marksAfter g)
      (hc : g.closer <+: u ++ g.closer)

/-- A closer that comes up early begins in the content. -/
theorem ClosesEarly.exists_isSuffix (h : t.ClosesEarly g) :
    ∃ y, y <:+ t.content g ∧ y ≠ [] ∧ g.closer <+: y ++ g.closer := by
  cases h with
  | ahead hc =>
    obtain ⟨s, r, hsr⟩ := hc
    refine ⟨g.closer ++ r ++ g.separator :: (t.identifier ++ g.separator :: t.marksAfter g),
      ⟨s, ?_⟩, by simp, ?_⟩
    · rw [content, ← hsr]
      simp
    · rw [List.append_assoc, List.append_assoc]
      exact List.prefix_append _ _
  | @before u v hc hu hv =>
    obtain ⟨s, hs⟩ := hu
    refine ⟨u ++ g.separator :: (t.identifier ++ g.separator :: t.marksAfter g),
      ⟨s, ?_⟩, by simp, ?_⟩
    · rw [content, ← hs]
      simp
    · have hpre : u ++ g.separator :: v <+:
          u ++ g.separator :: (t.identifier ++ g.separator :: (t.marksAfter g ++ g.closer)) :=
        (List.prefix_append_right_inj u).2 (List.cons_prefix_cons.2 ⟨rfl, hv⟩)
      rw [← hc] at hpre
      simpa using hpre
  | @behind u v hc hu hv =>
    obtain ⟨s, hs⟩ := hu
    refine ⟨u ++ g.separator :: t.marksAfter g,
      ⟨joiner :: t.marksBefore g ++ g.separator :: s, ?_⟩, by simp, ?_⟩
    · rw [content, ← hs]
      simp
    · have hpre : u ++ g.separator :: v <+: u ++ g.separator :: (t.marksAfter g ++ g.closer) :=
        (List.prefix_append_right_inj u).2 (List.cons_prefix_cons.2 ⟨rfl, hv⟩)
      rw [← hc] at hpre
      simpa using hpre
  | @marks u hne hu hc =>
    refine ⟨u, hu.trans ?_, hne, hc⟩
    rw [content]
    exact ((List.suffix_cons _ _).trans (List.suffix_append _ _)).trans
      ((List.suffix_cons _ _).trans (List.suffix_append _ _))

/-- Where a closer begins in the content tells how it comes up. The identifier was
    accepted, so it holds none. -/
theorem closesEarly_of_isSuffix (ht : g.Names t.identifier) {y : List Char}
    (hy : y <:+ t.content g) (hne : y ≠ []) (hc : g.closer <+: y ++ g.closer) :
    t.ClosesEarly g := by
  rcases isSuffix_append_cons hy with ⟨a, ha, rfl⟩ | hy
  · -- at the joiner, a mark behind it or the first separator
    rw [List.append_assoc, List.cons_append] at hc
    rcases isPrefix_append_cons hc with hc | ⟨v, hc, hv⟩
    · exact .ahead (hc.isInfix.trans ha.isInfix)
    · exact .before hc ha (by simpa using hv)
  · rcases isSuffix_append_cons hy with ⟨a, ha, rfl⟩ | hy
    · -- in the identifier or at the second separator
      rw [List.append_assoc, List.cons_append] at hc
      rcases isPrefix_append_cons hc with hc | ⟨v, hc, hv⟩
      · exact absurd (hc.isInfix.trans ha.isInfix) ht.noCloser
      · exact .behind hc ha hv
    · exact .marks hne hy hc

/-- The first closer is the last text of a tag unless one comes up at one of these
    places. -/
theorem closesAtEnd_iff_not_closesEarly (ht : g.Names t.identifier) :
    t.ClosesAtEnd g ↔ ¬ t.ClosesEarly g := by
  rw [closesAtEnd_iff_forall_isSuffix]
  constructor
  · intro h hearly
    obtain ⟨y, hy, hne, hc⟩ := hearly.exists_isSuffix
    exact h y hy hne hc
  · intro h y hy hne hc
    exact h (closesEarly_of_isSuffix ht hy hne hc)

/-- Without marks, a closer cannot go over a separator, so it has to be the joiner. -/
theorem closesEarly_iff_of_unmarked (hg : ∀ c ∈ g.closer, g.isMark c = false) :
    t.ClosesEarly g ↔ g.closer = [joiner] := by
  have hsep : ∀ {u v : List Char}, g.closer ≠ u ++ g.separator :: v := by
    intro u v hc
    have hmark := hg g.separator (by simp [hc])
    rw [g.isMark_separator] at hmark
    exact absurd hmark (by decide)
  obtain ⟨k, ks, hk⟩ := List.exists_cons_of_ne_nil g.closer_ne_nil
  constructor
  · intro h
    cases h with
    | ahead hc =>
      rcases List.infix_cons_iff.1 hc with hc | hc
      · rw [hk, List.cons_prefix_cons] at hc
        obtain ⟨hjoiner, hks⟩ := hc
        cases ks with
        | nil => rw [hk, hjoiner]
        | cons c ks =>
          have hmark := hg c (by simp [hk])
          rw [isMark_of_mem_marksBefore (hks.subset List.mem_cons_self)] at hmark
          exact absurd hmark (by decide)
      · have hmark := hg k (by simp [hk])
        rw [isMark_of_mem_marksBefore (hc.subset (by simp [hk]))] at hmark
        exact absurd hmark (by decide)
    | before hc _ _ => exact absurd hc hsep
    | behind hc _ _ => exact absurd hc hsep
    | @marks u hne hu hc =>
      obtain ⟨x, xs, rfl⟩ := List.exists_cons_of_ne_nil hne
      rw [List.cons_append, hk, List.cons_prefix_cons] at hc
      have hmark := hg k (by simp [hk])
      rw [hc.1, isMark_of_mem_marksAfter (hu.subset List.mem_cons_self)] at hmark
      exact absurd hmark (by decide)
  · intro h
    refine .ahead ?_
    rw [h]
    exact List.prefix_append [joiner] _ |>.isInfix

/-! ## Section 3: Tags as comments -/

/-- A comment goes on over a text in which no closer begins. -/
theorem scan_append_of_no_closer {u s : List Char}
    (h : ∀ y, y <:+ u → y ≠ [] → ¬ g.closer <+: y ++ s) :
    g.scan 0 true (u ++ s) = g.scan 0 true s := by
  induction u with
  | nil => rfl
  | cons c u ih =>
    have hc : ¬ g.closer <+: c :: (u ++ s) := h (c :: u) List.suffix_rfl (by simp)
    rw [List.cons_append, scan, if_neg (by simpa using hc)]
    exact ih fun y hy hne => h y (hy.trans (List.suffix_cons c u)) hne

/-- A tag that closes at its end is one comment, and what follows it is no part of that. -/
theorem ClosesAtEnd.scan_render_append (h : t.ClosesAtEnd g) (s : List Char) :
    g.scan 0 false (t.render g ++ s) = g.scan 0 false s := by
  have hcontent : ∀ y, y <:+ t.content g → y ≠ [] → ¬ g.closer <+: y ++ (g.closer ++ s) := by
    intro y hy hne hc
    have hlen : g.closer.length ≤ (y ++ g.closer).length := by simp
    rw [← List.append_assoc] at hc
    exact closesAtEnd_iff_forall_isSuffix.1 h y hy hne
      (List.prefix_of_prefix_length_le hc (List.prefix_append _ s) hlen)
  calc g.scan 0 false (t.render g ++ s)
      = g.scan 0 false (g.opener ++ (t.content g ++ (g.closer ++ s))) := by
        rw [render_eq_content, List.append_assoc, List.append_assoc]
    _ = g.scan 0 true (t.content g ++ (g.closer ++ s)) := scan_opener_append _
    _ = g.scan 0 true (g.closer ++ s) := scan_append_of_no_closer hcontent
    _ = g.scan 0 false s := scan_closer_append s

/-- Whether the comment of a tag ends where the tag does, and what that is good for. -/
theorem closesAtEnd_iff_of_accepted (ht : g.identifierFault? t.identifier = none) :
    (t.ClosesAtEnd g ↔ ¬ t.ClosesEarly g) ∧
      ((∀ c ∈ g.closer, g.isMark c = false) → (t.ClosesEarly g ↔ g.closer = [joiner])) ∧
      (t.ClosesAtEnd g → ∀ s, g.scan 0 false (t.render g ++ s) = g.scan 0 false s) :=
  ⟨closesAtEnd_iff_not_closesEarly (names_of_identifierFault?_eq_none ht),
    closesEarly_iff_of_unmarked, ClosesAtEnd.scan_render_append⟩

/-- Between `#|` and `|#`, the comment of `#|-?|#x||#` ends before the `x`. -/
theorem closesAtEnd_iff_of_accepted_hashed :
    hashed.identifierFault? ['#', 'x'] = none ∧
      ¬ (⟨['#', 'x'], .start, false⟩ : Tag).ClosesAtEnd hashed := by
  refine ⟨by decide, fun hend => ?_⟩
  apply (closesAtEnd_iff_of_accepted (by decide)).1.1 hend
  exact .before (u := []) (v := ['#']) (by decide) List.nil_suffix (by decide)

end Tag

end Marginalia
