import Mathlib.Data.List.Basic
import Marginalia.Proofs.Grammar

/-! # Reading tags back

    A line on which tags were written is its own text, followed by the texts of the
    tags. This module says what is read on such a line:

    * **`sighting?_eq_some_iff`**: when a tag is read at the beginning of a text.
    * **`pieces_append_renderAll`**: reading with any identifier finds the tags that
      were written, and nothing else.
    * **`cut_exactly_cons`**: reading with a given identifier takes whole tags, one or
      several of them, or passes by a tag. -/

namespace Marginalia

open Text

/-! ## Section 1: Splitting lists and texts -/

/-- Lists that are split at one element each are split at the same place, or one of them
    further on. -/
theorem append_cons_eq_append_cons {α : Type*} {u u' v v' : List α} {a b : α}
    (h : u ++ a :: v = u' ++ b :: v') :
    (u = u' ∧ a = b ∧ v = v') ∨ (∃ m, u = u' ++ b :: m ∧ v' = m ++ a :: v) ∨
      ∃ m, u' = u ++ a :: m ∧ v = m ++ b :: v' := by
  rcases List.append_eq_append_iff.1 h with ⟨m, rfl, hm⟩ | ⟨m, rfl, hm⟩
  · rcases m with _ | ⟨c, m⟩
    · obtain ⟨rfl, rfl⟩ := List.cons_eq_cons.1 hm
      exact .inl ⟨by simp, rfl, rfl⟩
    · obtain ⟨rfl, rfl⟩ := List.cons_eq_cons.1 hm
      exact .inr (.inr ⟨m, rfl, rfl⟩)
  · rcases m with _ | ⟨c, m⟩
    · obtain ⟨rfl, rfl⟩ := List.cons_eq_cons.1 hm
      exact .inl ⟨by simp, rfl, rfl⟩
    · obtain ⟨rfl, rfl⟩ := List.cons_eq_cons.1 hm
      exact .inr (.inl ⟨m, rfl, rfl⟩)

/-- If a text without `c` is followed by `c`, then any other place of `c` comes later. -/
theorem split_at_first {α : Type*} {c : α} {p q x y : List α} (hp : c ∉ p)
    (h : x ++ c :: y = p ++ c :: q) :
    (x = p ∧ y = q) ∨ ∃ z, x = p ++ c :: z ∧ z ++ c :: y = q := by
  rcases append_cons_eq_append_cons h with ⟨hx, -, hy⟩ | ⟨z, hx, hq⟩ | ⟨z, hpx, -⟩
  · exact .inl ⟨hx, hy⟩
  · exact .inr ⟨z, hx, hq.symm⟩
  · -- then `p` would hold a `c` as well
    exact absurd (by simp [hpx]) hp

/-- Two texts without `c` that are followed by `c` are equal if everything is. -/
theorem split_at_first_inj {α : Type*} {c : α} {p q x y : List α} (hp : c ∉ p) (hx : c ∉ x)
    (h : x ++ c :: y = p ++ c :: q) : x = p ∧ y = q := by
  rcases split_at_first hp h with h | ⟨z, rfl, -⟩
  · exact h
  · exact absurd (by simp) hx

/-- An end of a text either begins before a certain `c` or lies behind it. -/
theorem isSuffix_append_cons {α : Type*} {c : α} {p q y : List α} (h : y <:+ p ++ c :: q) :
    (∃ a, a <:+ p ∧ y = a ++ c :: q) ∨ y <:+ q := by
  obtain ⟨z, hz⟩ := h
  rcases List.append_eq_append_iff.1 hz with ⟨as, hp, hy⟩ | ⟨bs, hzp, hcq⟩
  · exact .inl ⟨as, ⟨z, hp.symm⟩, hy⟩
  · cases bs with
    | nil => exact .inl ⟨[], List.nil_suffix, by simpa using hcq.symm⟩
    | cons b bs => exact .inr ⟨bs, (List.cons.inj hcq).2.symm⟩

/-! ## Section 2: When a tag is read -/

namespace Grammar

variable {g : Grammar}

/-- The tag `t` stands at the beginning of `s`, where `identifier?` reads its
    identifier. -/
def SightedAt (g : Grammar) (identifier? : List Char → Option (List Char × List Char))
    (s : List Char) (t : Sighting) : Prop :=
  ∃ joined inner rest,
    s = g.headText joined t.startMark ++ g.separator :: inner ∧
    identifier? inner =
      some (t.identifier, g.separator :: (g.tailText t.endMark t.cleanup ++ rest)) ∧
    t.raw = g.headText joined t.startMark ++
      g.separator :: (t.identifier ++ g.separator :: g.tailText t.endMark t.cleanup)

theorem sightedAt_of_sighting? {identifier? : List Char → Option (List Char × List Char)}
    {s : List Char} {t : Sighting} (h : g.sighting? identifier? s = some t) :
    g.SightedAt identifier? s t := by
  unfold sighting? at h
  obtain ⟨⟨startMark, head⟩, hhead, h⟩ := List.exists_of_findSome?_eq_some h
  simp only [Option.bind_eq_bind, Option.bind_eq_some_iff] at h
  obtain ⟨inner, hinner, ⟨identifier, outer⟩, hid, h⟩ := h
  obtain ⟨⟨endMark, cleanup, tail⟩, htail, h⟩ := List.exists_of_findSome?_eq_some h
  simp only [Option.bind_eq_some_iff] at h
  obtain ⟨rest, hrest, h⟩ := h
  obtain rfl := Option.some.inj h
  obtain ⟨joined, rfl⟩ := mem_heads_iff.1 hhead
  obtain rfl := mem_tails_iff.1 htail
  rw [after?_eq_some_iff] at hinner hrest
  refine ⟨joined, inner, rest, ?_, ?_, ?_⟩
  · rw [hinner]
    simp
  · rw [hid, hrest]
    simp
  · simp

/-- At most one tag stands at the beginning of a text. -/
theorem SightedAt.unique (hg : g.Unmarked)
    {identifier? : List Char → Option (List Char × List Char)} {s : List Char}
    {t t' : Sighting} (h : g.SightedAt identifier? s t) (h' : g.SightedAt identifier? s t') :
    t = t' := by
  obtain ⟨joined, inner, rest, hs, hid, hraw⟩ := h
  obtain ⟨joined', inner', rest', hs', hid', hraw'⟩ := h'
  obtain ⟨hhead, rfl⟩ := split_at_first_inj (hg.separator_not_mem_headText _ _)
    (hg.separator_not_mem_headText _ _) (hs.symm.trans hs')
  obtain ⟨rfl, hstart⟩ := headText_inj hhead
  rw [hid] at hid'
  obtain ⟨hidentifier, houter⟩ := Prod.mk.inj (Option.some.inj hid')
  obtain ⟨hend, hcleanup, -⟩ := hg.tailText_inj (List.cons.inj houter).2
  cases t
  cases t'
  simp_all

theorem sighting?_eq_some_iff (hg : g.Unmarked)
    {identifier? : List Char → Option (List Char × List Char)} {s : List Char} {t : Sighting} :
    g.sighting? identifier? s = some t ↔ g.SightedAt identifier? s t := by
  constructor
  · exact sightedAt_of_sighting?
  · intro h
    cases hs : g.sighting? identifier? s with
    | some t' =>
      rw [(sightedAt_of_sighting? hs).unique hg h]
    | none =>
      -- some spelling of head and tail fits, so the search cannot fail
      exfalso
      obtain ⟨joined, inner, rest, rfl, hid, -⟩ := h
      unfold sighting? at hs
      rw [List.findSome?_eq_none_iff] at hs
      have hmem : (t.startMark, g.headText joined t.startMark ++ [g.separator]) ∈ g.heads :=
        mem_heads_iff.2 ⟨joined, rfl⟩
      have hhead := hs _ hmem
      have hinner : after? (g.headText joined t.startMark ++ [g.separator])
          (g.headText joined t.startMark ++ g.separator :: inner) = some inner :=
        after?_eq_some_iff.2 (by simp)
      simp only [hinner, hid, Option.bind_eq_bind, Option.bind_some] at hhead
      rw [List.findSome?_eq_none_iff] at hhead
      have hmem' : (t.endMark, t.cleanup, g.separator :: g.tailText t.endMark t.cleanup) ∈
          g.tails := mem_tails_iff.2 rfl
      have htail := hhead _ hmem'
      have hrest : after? (g.separator :: g.tailText t.endMark t.cleanup)
          (g.separator :: (g.tailText t.endMark t.cleanup ++ rest)) = some rest :=
        after?_eq_some_iff.2 (by simp)
      simp [hrest] at htail

theorem sighting?_eq_none_iff (hg : g.Unmarked)
    {identifier? : List Char → Option (List Char × List Char)} {s : List Char} :
    g.sighting? identifier? s = none ↔ ∀ t, ¬ g.SightedAt identifier? s t := by
  rw [Option.eq_none_iff_forall_ne_some]
  simp only [ne_eq, sighting?_eq_some_iff hg]

end Grammar

/-! ## Section 3: The texts of several tags -/

namespace Tag

/-- The texts of some tags, one after the other. -/
def renderAll (g : Grammar) (tags : List Tag) : List Char :=
  tags.flatMap (render g)

@[simp] theorem renderAll_nil (g : Grammar) : renderAll g [] = [] := rfl

@[simp] theorem renderAll_cons (g : Grammar) (t : Tag) (ts : List Tag) :
    renderAll g (t :: ts) = t.render g ++ renderAll g ts := rfl

@[simp] theorem renderAll_append (g : Grammar) (ts us : List Tag) :
    renderAll g (ts ++ us) = renderAll g ts ++ renderAll g us := by
  simp [renderAll]

theorem render_eq (g : Grammar) (t : Tag) :
    t.render g = g.headText true t.role.opensRange ++
      g.separator :: (t.identifier ++ g.separator :: g.tailText t.role.closesRange t.cleanup) := by
  simp [render, head, tail, Grammar.headText, Grammar.tailText]

theorem render_append (g : Grammar) (t : Tag) (v : List Char) :
    t.render g ++ v = g.headText true t.role.opensRange ++
      g.separator :: (t.identifier ++
        g.separator :: (g.tailText t.role.closesRange t.cleanup ++ v)) := by
  simp [render_eq]

theorem render_ne_nil (g : Grammar) (t : Tag) : t.render g ≠ [] := by
  rw [render_eq]
  simp

end Tag

/-- What is read where a tag was written. -/
def Sighting.ofTag (g : Grammar) (t : Tag) : Sighting :=
  ⟨t.identifier, t.role.opensRange, t.role.closesRange, t.cleanup, t.render g⟩

@[simp] theorem Sighting.tag_ofTag (g : Grammar) (t : Tag) : (Sighting.ofTag g t).tag = t := by
  simp [Sighting.ofTag, Sighting.tag, Sighting.role]

namespace Grammar

variable {g : Grammar}

/-- No head begins in a text without heads, not even one that ends in the tags behind
    it: it would have to share the separator of the first tag, and then be longer than
    heads are. -/
theorem not_isPrefix_append_renderAll (hg : g.Unmarked) {u : List Char} (hu : u ≠ [])
    (hh : g.hasHead u = false) (tags : List Tag) (joined marked : Bool) :
    ¬ g.headText joined marked ++ [g.separator] <+: u ++ Tag.renderAll g tags := by
  intro hpre
  obtain ⟨r, hr⟩ := hpre
  rw [List.append_assoc, List.singleton_append] at hr
  by_cases hs : g.separator ∈ u
  · -- the head ends at the first separator of `u`
    obtain ⟨u₁, u₂, rfl, hu₁⟩ := List.eq_append_cons_of_mem hs
    rw [List.append_assoc, List.cons_append] at hr
    obtain ⟨hhead, -⟩ := split_at_first_inj hu₁ (hg.separator_not_mem_headText _ _) hr
    apply not_isPrefix_of_hasHead_eq_false hh joined marked
    rw [hhead]
    exact ⟨u₂, by simp⟩
  · cases tags with
    | nil =>
      apply hs
      have : g.separator ∈ u ++ Tag.renderAll g [] := by
        rw [← hr]
        simp
      simpa using this
    | cons t ts =>
      -- the head ends at the first separator of the tag `t`
      rw [Tag.renderAll_cons, Tag.render_append, ← List.append_assoc u] at hr
      have hnot : g.separator ∉ u ++ g.headText true t.role.opensRange := by
        simp [hs, hg.separator_not_mem_headText]
      obtain ⟨hhead, -⟩ := split_at_first_inj hnot (hg.separator_not_mem_headText _ _) hr
      exact headText_ne_append hu hhead

theorem sighting?_append_renderAll_eq_none (hg : g.Unmarked)
    (identifier? : List Char → Option (List Char × List Char)) {u : List Char} (hu : u ≠ [])
    (hh : g.hasHead u = false) (tags : List Tag) :
    g.sighting? identifier? (u ++ Tag.renderAll g tags) = none := by
  rw [sighting?_eq_none_iff hg]
  intro t hsighted
  obtain ⟨joined, inner, rest, hs, -, -⟩ := hsighted
  apply not_isPrefix_append_renderAll hg hu hh tags joined t.startMark
  rw [hs]
  exact ⟨inner, by simp⟩

end Grammar

/-! ## Section 4: Cutting a text -/

namespace Piece

variable {find : List Char → Option Sighting}

/-- The characters to skip leave no pieces. -/
theorem cut_length_append (find : List Char → Option Sighting) (x v : List Char) :
    cut find x.length (x ++ v) = cut find 0 v := by
  induction x with
  | nil => simp
  | cons c x ih => simpa [cut] using ih

/-- A text in which no tag begins is cut into its characters. -/
theorem cut_append_of_none {u v : List Char}
    (h : ∀ y, y <:+ u → y ≠ [] → find (y ++ v) = none) :
    cut find 0 (u ++ v) = u.map .plain ++ cut find 0 v := by
  induction u with
  | nil => simp
  | cons c u ih =>
    have hc : find (c :: (u ++ v)) = none := h (c :: u) List.suffix_rfl (by simp)
    have hu := ih (fun y hy hne => h y (hy.trans (List.suffix_cons c u)) hne)
    simp [cut, hc, hu]

/-- A tag is one piece. -/
theorem cut_append_of_some {u v : List Char} {t : Sighting} (h : find (u ++ v) = some t)
    (hraw : t.raw = u) (hne : u ≠ []) :
    cut find 0 (u ++ v) = .tag t :: cut find 0 v := by
  obtain ⟨c, u, rfl⟩ := List.exists_cons_of_ne_nil hne
  have hskip := cut_length_append find u v
  rw [List.cons_append] at h ⊢
  simp [cut, h, hraw, hskip]

@[simp] theorem sightings_append (ps qs : List Piece) :
    sightings (ps ++ qs) = sightings ps ++ sightings qs := by
  simp [sightings]

@[simp] theorem untagged_append (ps qs : List Piece) :
    untagged (ps ++ qs) = untagged ps ++ untagged qs := by
  simp [untagged]

@[simp] theorem sightings_map_plain (s : List Char) : sightings (s.map .plain) = [] := by
  simp [sightings, sighting?]

@[simp] theorem untagged_map_plain (s : List Char) : untagged (s.map .plain) = s := by
  induction s with
  | nil => rfl
  | cons c s ih => simpa [untagged, plain?] using ih

@[simp] theorem sightings_tag_cons (t : Sighting) (ps : List Piece) :
    sightings (.tag t :: ps) = t :: sightings ps := rfl

@[simp] theorem untagged_tag_cons (t : Sighting) (ps : List Piece) :
    untagged (.tag t :: ps) = untagged ps := rfl

/-- What is left of a text without its tags are characters of that text. -/
theorem mem_of_mem_untagged_cut {skip : Nat} {s : List Char} {c : Char}
    (h : c ∈ untagged (cut find skip s)) : c ∈ s := by
  fun_induction cut find skip s with
  | case1 skip => simp [untagged] at h
  | case2 skip b s ih => exact List.mem_cons_of_mem b (ih h)
  | case3 b s t ht ih => exact List.mem_cons_of_mem b (ih h)
  | case4 b s hnone ih =>
    rcases List.mem_cons.1 h with rfl | h
    · exact List.mem_cons_self
    · exact List.mem_cons_of_mem b (ih h)

end Piece

/-! ## Section 5: Reading with any identifier -/

namespace Grammar

variable {g : Grammar}

/-- What precedes the tags of a line is cut into its characters. -/
theorem cut_append_renderAll (hg : g.Unmarked)
    (identifier? : List Char → Option (List Char × List Char)) {u : List Char}
    (hu : g.hasHead u = false) (tags : List Tag) :
    Piece.cut (g.sighting? identifier?) 0 (u ++ Tag.renderAll g tags) =
      u.map .plain ++ Piece.cut (g.sighting? identifier?) 0 (Tag.renderAll g tags) := by
  apply Piece.cut_append_of_none
  intro y hy hne
  exact sighting?_append_renderAll_eq_none hg identifier? hne
    (hasHead_eq_false_of_isSuffix hu hy) tags

/-- A text that may be an identifier is read up to its separator. -/
theorem anyIdentifier?_of_chars {identifier : List Char} (hne : identifier ≠ [])
    (hall : ∀ c ∈ identifier, g.isIdentifierChar c = true) (v : List Char) :
    g.anyIdentifier? (identifier ++ g.separator :: v) = some (identifier, g.separator :: v) := by
  have hstop : g.isIdentifierChar g.separator = false := by
    simp [isIdentifierChar]
  have htake : (identifier ++ g.separator :: v).takeWhile g.isIdentifierChar = identifier := by
    rw [List.takeWhile_append_of_pos hall, List.takeWhile_cons]
    simp [hstop]
  have hdrop : (identifier ++ g.separator :: v).dropWhile g.isIdentifierChar =
      g.separator :: v := by
    rw [List.dropWhile_append_of_pos hall, List.dropWhile_cons]
    simp [hstop]
  obtain ⟨c, cs, rfl⟩ := List.exists_cons_of_ne_nil hne
  simp only [anyIdentifier?, htake, hdrop]

theorem anyIdentifier?_append {identifier : List Char} (h : g.Names identifier) (v : List Char) :
    g.anyIdentifier? (identifier ++ g.separator :: v) = some (identifier, g.separator :: v) := by
  refine anyIdentifier?_of_chars h.nonempty (fun c hc => ?_) v
  have hne : c ≠ g.separator := fun he => h.separator_not_mem (he ▸ hc)
  simp [isIdentifierChar, hne, h.oneLine c hc]

/-- A tag that was written is read, whatever follows it. -/
theorem sightedAt_render {identifier? : List Char → Option (List Char × List Char)} {t : Tag}
    (h : ∀ v, identifier? (t.identifier ++ g.separator :: v) =
      some (t.identifier, g.separator :: v)) (v : List Char) :
    g.SightedAt identifier? (t.render g ++ v) (.ofTag g t) := by
  refine ⟨true, t.identifier ++ g.separator :: (g.tailText t.role.closesRange t.cleanup ++ v), v,
    ?_, ?_, ?_⟩
  · exact Tag.render_append g t v
  · exact h _
  · exact Tag.render_eq g t

/-- A line is read back as its own characters and the tags that were written on it. -/
theorem pieces_append_renderAll (hg : g.Unmarked) {u : List Char} (hu : g.hasHead u = false)
    {tags : List Tag} (ht : ∀ t ∈ tags, g.Names t.identifier) :
    g.pieces (u ++ Tag.renderAll g tags) =
      u.map .plain ++ tags.map fun t => .tag (.ofTag g t) := by
  unfold pieces
  rw [cut_append_renderAll hg _ hu]
  congr 1
  -- the text before the tags plays no part any more
  clear hu
  induction tags with
  | nil => rfl
  | cons t ts ih =>
    have hname := ht t List.mem_cons_self
    have hsight := (sighting?_eq_some_iff hg).2
      (sightedAt_render (anyIdentifier?_append hname) (Tag.renderAll g ts))
    have hts := ih (fun t' h' => ht t' (List.mem_cons_of_mem _ h'))
    rw [Tag.renderAll_cons, Piece.cut_append_of_some hsight rfl (Tag.render_ne_nil g t), hts]
    rfl

/-! ## Section 6: Reading with a given identifier -/

theorem exactIdentifier?_append (identifier v : List Char) :
    exactIdentifier? identifier (identifier ++ v) = some (identifier, v) := by
  simp [exactIdentifier?]

theorem exactIdentifier?_eq_some {identifier s i v : List Char}
    (h : exactIdentifier? identifier s = some (i, v)) : i = identifier ∧ s = identifier ++ v := by
  obtain ⟨w, hw, he⟩ := Option.map_eq_some_iff.1 h
  obtain ⟨rfl, rfl⟩ := Prod.mk.inj he
  exact ⟨rfl, after?_eq_some_iff.1 hw⟩

/-- The end of a tag is not where an identifier begins. -/
theorem tailText_append_ne (hg : g.Unmarked) {identifier : List Char}
    (h : g.Names identifier) (marked cleanup : Bool) (r w : List Char) :
    g.tailText marked cleanup ++ r ≠ identifier ++ g.separator :: w := by
  intro he
  obtain ⟨i, is, rfl⟩ := List.exists_cons_of_ne_nil h.nonempty
  -- no mark stands at its beginning, and no closer in it
  have hi : g.isMark i = false := h.unmarked i List.mem_cons_self
  cases marked with
  | true =>
    simp only [tailText, if_true, List.cons_append] at he
    obtain ⟨rfl, -⟩ := List.cons.inj he
    rw [g.isMark_boundary] at hi
    exact absurd hi (by decide)
  | false =>
    cases cleanup with
    | true =>
      simp only [tailText, if_true, Bool.false_eq_true, if_false, List.nil_append,
        List.cons_append] at he
      obtain ⟨rfl, -⟩ := List.cons.inj he
      rw [g.isMark_cleanup] at hi
      exact absurd hi (by decide)
    | false =>
      simp only [tailText, Bool.false_eq_true, if_false, List.nil_append] at he
      rcases List.append_eq_append_iff.1 he with ⟨as, has, -⟩ | ⟨bs, hbs, hsep⟩
      · exact h.noCloser ⟨[], as, by simp [has]⟩
      · cases bs with
        | nil =>
          rw [List.append_nil] at hbs
          exact h.noCloser ⟨[], [], by simp [hbs]⟩
        | cons b bs =>
          obtain ⟨rfl, -⟩ := List.cons.inj hsep
          apply hg.not_mem_closer g.isMark_separator
          simp [hbs]

/-- Where a given identifier and the end of a tag can be read inside a tag, they end
    with a tag, which is the same one unless the identifier holds separators. -/
theorem identifier_ends_with_tag (hg : g.Unmarked) {ts : List Tag} {t : Tag}
    (ht : ∀ u ∈ t :: ts, g.Names u.identifier) {identifier rest : List Char}
    {marked cleanup : Bool}
    (h : identifier ++ g.separator :: (g.tailText marked cleanup ++ rest) =
      t.identifier ++
        g.separator :: (g.tailText t.role.closesRange t.cleanup ++ Tag.renderAll g ts)) :
    ∃ ts₁ ts₂, ts = ts₁ ++ ts₂ ∧ rest = Tag.renderAll g ts₂ ∧
      (∃ u ∈ t :: ts₁, u.cleanup = cleanup) ∧
      (g.separator ∉ identifier →
        ts₁ = [] ∧ t.identifier = identifier ∧ t.role.closesRange = marked) := by
  induction ts generalizing t identifier with
  | nil =>
    have hname := ht t List.mem_cons_self
    rcases split_at_first hname.separator_not_mem h with ⟨rfl, htail⟩ | ⟨z, -, hz⟩
    · obtain ⟨hmarked, hcleanup, hrest⟩ := hg.tailText_inj htail
      exact ⟨[], [], rfl, hrest, ⟨t, List.mem_cons_self, hcleanup.symm⟩,
        fun _ => ⟨rfl, rfl, hmarked.symm⟩⟩
    · -- there is no separator behind the last tag
      exfalso
      apply hg.separator_not_mem_tailText t.role.closesRange t.cleanup
      have hmem : g.separator ∈ g.tailText t.role.closesRange t.cleanup ++ Tag.renderAll g [] := by
        rw [← hz]
        simp
      simpa using hmem
  | cons t' ts ih =>
    have hname := ht t List.mem_cons_self
    have hname' := ht t' (by simp)
    rcases split_at_first hname.separator_not_mem h with ⟨rfl, htail⟩ | ⟨z, rfl, hz⟩
    · obtain ⟨hmarked, hcleanup, hrest⟩ := hg.tailText_inj htail
      exact ⟨[], t' :: ts, rfl, hrest, ⟨t, List.mem_cons_self, hcleanup.symm⟩,
        fun _ => ⟨rfl, rfl, hmarked.symm⟩⟩
    · -- the identifier holds the separators of `t`, and at least one of `t'`
      rw [Tag.renderAll_cons, Tag.render_append, ← List.append_assoc] at hz
      have hnot : g.separator ∉
          g.tailText t.role.closesRange t.cleanup ++ g.headText true t'.role.opensRange := by
        simp [hg.separator_not_mem_tailText, hg.separator_not_mem_headText]
      rcases split_at_first hnot hz with ⟨-, hbad⟩ | ⟨z', -, hz'⟩
      · exact absurd hbad (tailText_append_ne hg hname' _ _ _ _)
      · obtain ⟨ts₁, ts₂, rfl, hrest, ⟨u, hu, hcleanup⟩, -⟩ :=
          ih (fun u hu => ht u (List.mem_cons_of_mem _ hu)) hz'
        refine ⟨t' :: ts₁, ts₂, rfl, hrest, ⟨u, List.mem_cons_of_mem _ hu, hcleanup⟩, ?_⟩
        intro hsep
        exact absurd (by simp) hsep

/-- Where the beginning of a tag is passed by, the rest of it is, too: a head inside of
    a tag ends with the tag's own head, and no head begins behind that. -/
theorem sighting?_inside_tag_eq_none (hg : g.Unmarked) {t : Tag} {ts : List Tag}
    (ht : g.Names t.identifier) {identifier? : List Char → Option (List Char × List Char)}
    (h : g.sighting? identifier? (t.render g ++ Tag.renderAll g ts) = none) {y : List Char}
    (hy : y <:+ t.render g) (hne : y ≠ []) :
    g.sighting? identifier? (y ++ Tag.renderAll g ts) = none := by
  rw [sighting?_eq_none_iff hg] at h ⊢
  intro s hsighted
  obtain ⟨joined, inner, rest, hs, hid, -⟩ := hsighted
  rw [Tag.render_eq] at hy
  rcases isSuffix_append_cons hy with ⟨a, ha, rfl⟩ | hy
  · -- `y` begins in the head of `t`, so the same identifier is read for `t`
    have hnot : g.separator ∉ a := fun hm => hg.separator_not_mem_headText _ _ (ha.subset hm)
    rw [List.append_assoc, List.cons_append] at hs
    obtain ⟨-, hinner⟩ := split_at_first_inj (hg.separator_not_mem_headText _ _) hnot hs
    rw [List.append_assoc, List.cons_append] at hinner
    apply h { s with
      startMark := t.role.opensRange
      raw := g.headText true t.role.opensRange ++
        g.separator :: (s.identifier ++ g.separator :: g.tailText s.endMark s.cleanup) }
    refine ⟨true, inner, rest, ?_, hid, rfl⟩
    rw [Tag.render_append, ← hinner]
  · rcases isSuffix_append_cons hy with ⟨a, ha, rfl⟩ | hy
    · -- `y` begins in the identifier, which holds no opener
      have hnot : g.separator ∉ a := fun hm => ht.separator_not_mem (ha.subset hm)
      rw [List.append_assoc, List.cons_append] at hs
      obtain ⟨hhead, -⟩ := split_at_first_inj (hg.separator_not_mem_headText _ _) hnot hs
      apply ht.noOpener
      have hpre : g.opener <+: a := by
        rw [hhead]
        exact List.prefix_append _ _
      exact hpre.isInfix.trans ha.isInfix
    · -- `y` lies behind the last separator of `t`
      have hnot : g.separator ∉ y := fun hm => hg.separator_not_mem_tailText _ _ (hy.subset hm)
      apply not_isPrefix_append_renderAll hg hne (hasHead_eq_false_of_separator_not_mem hnot) ts
        joined s.startMark
      rw [hs]
      exact ⟨inner, by simp⟩

/-- What a given identifier is read from at a tag: the text of this tag, and perhaps of some
    that follow. -/
theorem raw_of_sighting?_exactly (hg : g.Unmarked) {t : Tag} {ts : List Tag}
    (ht : ∀ u ∈ t :: ts, g.Names u.identifier) {identifier : List Char} {s : Sighting}
    (h : g.sighting? (exactIdentifier? identifier) (Tag.renderAll g (t :: ts)) = some s) :
    ∃ ts₁ ts₂, ts = ts₁ ++ ts₂ ∧ s.raw = Tag.renderAll g (t :: ts₁) ∧
      (∃ u ∈ t :: ts₁, u.cleanup = s.cleanup) ∧
      (g.separator ∉ identifier → ts₁ = [] ∧ t.identifier = identifier ∧ s = .ofTag g t) := by
  obtain ⟨joined, inner, rest, htext, hid, hraw⟩ := sightedAt_of_sighting? h
  obtain ⟨hs, rfl⟩ := exactIdentifier?_eq_some hid
  rw [Tag.renderAll_cons, Tag.render_append] at htext
  obtain ⟨hhead, hinner⟩ := split_at_first_inj (hg.separator_not_mem_headText _ _)
    (hg.separator_not_mem_headText _ _) htext
  obtain ⟨rfl, hstart⟩ := headText_inj hhead
  obtain ⟨ts₁, ts₂, rfl, rfl, hcleanup, hwhole⟩ := identifier_ends_with_tag hg ht hinner.symm
  refine ⟨ts₁, ts₂, rfl, ?_, hcleanup, ?_⟩
  · -- both texts are followed by the tags that are left
    have hinner' : (t.identifier ++ g.separator ::
          (g.tailText t.role.closesRange t.cleanup ++ Tag.renderAll g ts₁)) ++
            Tag.renderAll g ts₂ =
        (identifier ++ g.separator :: g.tailText s.endMark s.cleanup) ++
          Tag.renderAll g ts₂ := by
      simpa using hinner
    have hcancel := List.append_cancel_right hinner'
    rw [hraw, hs, Tag.renderAll_cons, Tag.render_append, hstart, hcancel]
  · -- without separators, it is the text of `t` alone
    intro hsep
    obtain ⟨hnil, hidentifier, hend⟩ := hwhole hsep
    obtain ⟨u, hu, hc⟩ := hcleanup
    refine ⟨hnil, hidentifier, ?_⟩
    have hut : u = t := by simpa [hnil] using hu
    rw [hut] at hc
    have hraw' : s.raw = t.render g := by
      rw [hraw, hs, Tag.render_eq, hstart, hend, hc, hidentifier]
    cases s
    simp_all [Sighting.ofTag]

/-- Reading with a given identifier at a tag takes this tag, and perhaps some that
    follow, or reads nothing in it. -/
theorem cut_exactly_cons (hg : g.Unmarked) {t : Tag} {ts : List Tag}
    (ht : ∀ u ∈ t :: ts, g.Names u.identifier) (identifier : List Char) :
    (∃ ts₁ ts₂ s, ts = ts₁ ++ ts₂ ∧
      Piece.cut (g.sighting? (exactIdentifier? identifier)) 0 (Tag.renderAll g (t :: ts)) =
        .tag s :: Piece.cut (g.sighting? (exactIdentifier? identifier)) 0 (Tag.renderAll g ts₂) ∧
      (∃ u ∈ t :: ts₁, u.cleanup = s.cleanup) ∧
      (g.separator ∉ identifier → ts₁ = [] ∧ t.identifier = identifier ∧ s = .ofTag g t)) ∨
    (t.identifier ≠ identifier ∧
      Piece.cut (g.sighting? (exactIdentifier? identifier)) 0 (Tag.renderAll g (t :: ts)) =
        (t.render g).map .plain ++
          Piece.cut (g.sighting? (exactIdentifier? identifier)) 0 (Tag.renderAll g ts)) := by
  cases hsight : g.sighting? (exactIdentifier? identifier) (Tag.renderAll g (t :: ts)) with
  | some s =>
    left
    obtain ⟨ts₁, ts₂, rfl, hraw, hcleanup, hwhole⟩ := raw_of_sighting?_exactly hg ht hsight
    refine ⟨ts₁, ts₂, s, rfl, ?_, hcleanup, hwhole⟩
    have hsplit : Tag.renderAll g (t :: (ts₁ ++ ts₂)) = s.raw ++ Tag.renderAll g ts₂ := by
      rw [hraw]
      simp
    have hne : s.raw ≠ [] := by
      rw [hraw, Tag.renderAll_cons]
      exact List.append_ne_nil_of_left_ne_nil (t.render_ne_nil g) _
    rw [hsplit] at hsight ⊢
    exact Piece.cut_append_of_some hsight rfl hne
  | none =>
    right
    -- a tag with this identifier would have been read
    have hne : t.identifier ≠ identifier := by
      intro he
      subst he
      rw [sighting?_eq_none_iff hg] at hsight
      exact hsight _ (sightedAt_render (fun v => exactIdentifier?_append _ (g.separator :: v)) _)
    refine ⟨hne, ?_⟩
    rw [Tag.renderAll_cons]
    apply Piece.cut_append_of_none
    intro y hy hyne
    exact sighting?_inside_tag_eq_none hg (ht t List.mem_cons_self) hsight hy hyne

end Grammar

end Marginalia
