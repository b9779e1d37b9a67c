import Mathlib.Data.List.Nodup
import Mathlib.Data.List.Induction
import Marginalia.Proofs.Decoding
import Marginalia.Proofs.Pairing

/-! # Start and end tags as brackets

    The start and end tags of an identifier are brackets, and an end tag closes the latest
    of its start tags that is still open:

    * **`Balanced`**: brackets that match up completely among themselves.
    * **`Partners`**: a start and an end tag of one identifier whose tags between them
      match up.
    * **`Opened`**: the start tags that wait for an end tag, latest first, each with tags
      behind it that match up.
    * **`Walked`**: what a walk has found out, in terms of the tags it has seen.
    * **`Bracketing`**: every tag once, as a single line, in a pair of partners, or without
      a partner.
    * **`Document.exists_bracketing_listing`**: this is what is listed of a document. -/

namespace Marginalia

/-! ## Section 1: Brackets that match up -/

/-- Brackets that match up completely among themselves. -/
inductive Balanced : List Role → Prop where
  | nil : Balanced []
  /-- A pair of brackets with others inside, and others in front of it. -/
  | pair {before inside : List Role} : Balanced before → Balanced inside →
      Balanced (before ++ .start :: (inside ++ [.finish]))

namespace Balanced

variable {u u' v v' w : List Role}

theorem append (hu : Balanced u) (hv : Balanced v) : Balanced (u ++ v) := by
  induction hv with
  | nil => rwa [List.append_nil]
  | pair _ hinside ihbefore _ =>
    rw [← List.append_assoc]
    exact ihbefore.pair hinside

theorem count_eq (h : Balanced v) : v.count .start = v.count .finish := by
  induction h with
  | nil => rfl
  | pair _ _ ihbefore ihinside => simp [ihbefore, ihinside]

/-- Counted from the end, there are never more start tags than end tags. -/
theorem count_le (h : Balanced w) (hw : w = u ++ v) : v.count .start ≤ v.count .finish := by
  induction h generalizing u v with
  | nil =>
    obtain ⟨-, rfl⟩ := List.append_eq_nil_iff.1 hw.symm
    simp
  | @pair before inside hbefore hinside ihbefore ihinside =>
    have hpair := (Balanced.nil.pair hinside).count_eq
    -- the part that is counted begins in the pair or in front of it
    rcases List.append_eq_append_iff.1 hw with ⟨m, -, hm⟩ | ⟨m, hbefore', rfl⟩
    · rcases List.cons_eq_append_iff.1 hm with ⟨-, rfl⟩ | ⟨m', -, hm'⟩
      · exact Nat.le_of_eq hpair
      -- what is counted inside of the pair is counted with the end tag of the pair
      rcases List.append_eq_append_iff.1 hm' with ⟨s, -, hs⟩ | ⟨s, hinside', rfl⟩
      · rcases List.cons_eq_append_iff.1 hs with ⟨-, rfl⟩ | ⟨s', -, hs'⟩
        · simp
        · obtain ⟨-, rfl⟩ := List.append_eq_nil_iff.1 hs'.symm
          simp
      · have hs := ihinside hinside'
        simp only [List.count_append, List.count_singleton]
        exact Nat.add_le_add hs (by decide)
    · have hm := ihbefore hbefore'
      simp only [List.nil_append] at hpair
      rw [List.count_append, List.count_append, hpair]
      omega

/-- A start tag in front of brackets that match up stays open. -/
theorem ne_append_start (hw : Balanced w) (hv : Balanced v) : w ≠ u ++ .start :: v := by
  intro h
  have hle := hw.count_le h
  rw [List.count_cons_self, List.count_cons_of_ne (by decide), hv.count_eq] at hle
  omega

/-- So at most one start tag is in front of brackets that match up. -/
theorem eq_of_append_start (hv : Balanced v) (hv' : Balanced v')
    (h : u ++ .start :: v = u' ++ .start :: v') : u = u' ∧ v = v' := by
  rcases append_cons_eq_append_cons h with ⟨hu, -, hv⟩ | ⟨m, -, hm⟩ | ⟨m, -, hm⟩
  · exact ⟨hu, hv⟩
  · exact absurd hm (hv'.ne_append_start hv)
  · exact absurd hm (hv.ne_append_start hv')

/-- The last bracket closes a start tag. -/
theorem exists_start (h : Balanced (w ++ [.finish])) :
    ∃ u v, w = u ++ .start :: v ∧ Balanced u ∧ Balanced v := by
  generalize hx : w ++ [Role.finish] = x at h
  cases h with
  | nil => simp at hx
  | @pair before inside hbefore hinside =>
    rw [← List.cons_append, ← List.append_assoc] at hx
    exact ⟨before, inside, List.append_cancel_right hx, hbefore, hinside⟩

/-- What matches up behind others that do is no help to them. -/
theorem of_append_right (h : Balanced (u ++ v)) (hv : Balanced v) : Balanced u := by
  induction hv generalizing u with
  | nil => rwa [List.append_nil] at h
  | @pair before inside hbefore hinside ihbefore ihinside =>
    have hassoc : u ++ (before ++ .start :: (inside ++ [.finish])) =
        (u ++ before ++ .start :: inside) ++ [.finish] := by simp
    rw [hassoc] at h
    -- the last end tag closes one start tag only, which is that of the pair
    obtain ⟨u', v', hsplit, hu', hv'⟩ := h.exists_start
    obtain ⟨hu, -⟩ := hinside.eq_of_append_start hv' hsplit
    rw [← hu] at hu'
    exact ihbefore hu'

end Balanced

/-! ## Section 2: Partners -/

/-- A tag with its place among the tags of a document. -/
abbrev Numbered := Occurrence × Nat

/-- The roles of the start and end tags of an identifier. -/
def sides (identifier : List Char) (ns : List Numbered) : List Role :=
  (ns.filter fun n => n.1.tag.identifier = identifier ∧ n.1.tag.role ≠ .single).map
    fun n => n.1.tag.role

variable {identifier : List Char} {ns ms : List Numbered} {a b n : Numbered}

@[simp] theorem sides_nil : sides identifier [] = [] :=
  rfl

@[simp] theorem sides_append :
    sides identifier (ns ++ ms) = sides identifier ns ++ sides identifier ms := by
  simp [sides]

theorem sides_cons_of_eq (hid : n.1.tag.identifier = identifier)
    (hrole : n.1.tag.role ≠ .single) :
    sides identifier (n :: ns) = n.1.tag.role :: sides identifier ns := by
  simp [sides, hid, hrole]

theorem sides_cons_of_ne (h : n.1.tag.identifier ≠ identifier ∨ n.1.tag.role = .single) :
    sides identifier (n :: ns) = sides identifier ns := by
  rcases h with h | h <;> simp [sides, h]

/-- Every bracket is the role of a tag. -/
theorem exists_of_sides_eq {u v : List Role} {r : Role}
    (h : sides identifier ns = u ++ r :: v) :
    ∃ before n after, ns = before ++ n :: after ∧ n.1.tag.identifier = identifier ∧
      n.1.tag.role = r ∧ sides identifier after = v := by
  obtain ⟨before, rest, hns, -, hrest⟩ := List.map_eq_append_iff.1 h
  obtain ⟨n, after, rfl, hrole, hafter⟩ := List.map_eq_cons_iff.1 hrest
  obtain ⟨before', rest', rfl, -, hrest'⟩ := List.filter_eq_append_iff.1 hns
  obtain ⟨skipped, after', rfl, -, hn, hafter'⟩ := List.filter_eq_cons_iff.1 hrest'
  refine ⟨before' ++ skipped, n, after', by simp, ?_, hrole, ?_⟩
  · simp at hn
    exact hn.1
  · rw [sides, hafter', hafter]

/-- A start and an end tag of one identifier whose tags between them match up. -/
def Partners (ns : List Numbered) (a b : Numbered) : Prop :=
  ∃ before between after, ns = before ++ a :: (between ++ b :: after) ∧
    a.1.tag.role = .start ∧ b.1.tag.role = .finish ∧
    a.1.tag.identifier = b.1.tag.identifier ∧
    Balanced (sides a.1.tag.identifier between)

/-- A start tag with tags behind it that match up. -/
def Opens (identifier : List Char) (ns : List Numbered) (a : Numbered) : Prop :=
  ∃ before after, ns = before ++ a :: after ∧ a.1.tag.role = .start ∧
    a.1.tag.identifier = identifier ∧ Balanced (sides identifier after)

/-- A tag at the end is a partner of the start tag only behind which all tags match up. -/
theorem partners_concat_iff :
    Partners (ns ++ [n]) a b ↔
      Partners ns a b ∨ (b = n ∧ n.1.tag.role = .finish ∧ Opens n.1.tag.identifier ns a) := by
  constructor
  · rintro ⟨before, between, after, hns, hstart, hfinish, hid, hbalanced⟩
    rcases List.eq_nil_or_concat after with rfl | ⟨after', m, rfl⟩
    · -- the last tag is the end tag
      have hns' : ns ++ [n] = (before ++ a :: between) ++ [b] := by simpa using hns
      obtain ⟨rfl, hn⟩ := List.append_inj' hns' rfl
      obtain rfl : n = b := by simpa using hn
      exact .inr ⟨rfl, hfinish, before, between, rfl, hstart, hid, hid ▸ hbalanced⟩
    · -- the last tag is behind both
      have hns' : ns ++ [n] = (before ++ a :: (between ++ b :: after')) ++ [m] := by
        simpa using hns
      obtain ⟨rfl, -⟩ := List.append_inj' hns' rfl
      exact .inl ⟨before, between, after', rfl, hstart, hfinish, hid, hbalanced⟩
  · rintro (⟨before, between, after, rfl, hpair⟩ | ⟨rfl, hfinish, hopens⟩)
    · exact ⟨before, between, after ++ [n], by simp, hpair⟩
    · obtain ⟨before, after, rfl, hstart, hid, hbalanced⟩ := hopens
      exact ⟨before, after, [], by simp, hstart, hfinish, hid, hid ▸ hbalanced⟩

/-! ## Section 3: Open tags -/

theorem sides_split (hrole : a.1.tag.role = .start) (hid : a.1.tag.identifier = identifier) :
    sides identifier (ns ++ a :: ms) =
      sides identifier ns ++ .start :: sides identifier ms := by
  rw [sides_append, sides_cons_of_eq hid (by simp [hrole]), hrole]

/-- Where all tags match up, no start tag is open. -/
theorem not_opens_of_balanced (h : Balanced (sides identifier ns)) :
    ¬ Opens identifier ns a := by
  rintro ⟨before, after, rfl, hstart, hid, hafter⟩
  exact h.ne_append_start hafter (sides_split hstart hid)

/-- Tags that match up do not change which start tag is open. -/
theorem opens_append_iff (hms : Balanced (sides identifier ms)) :
    Opens identifier (ns ++ ms) a ↔ Opens identifier ns a := by
  constructor
  · rintro ⟨before, after, hns, hstart, hid, hafter⟩
    have hopens : ∀ rest, ms ≠ rest ++ a :: after := fun rest hrest =>
      not_opens_of_balanced hms ⟨rest, after, hrest, hstart, hid, hafter⟩
    rcases List.append_eq_append_iff.1 hns with ⟨rest, -, hrest⟩ | ⟨rest, rfl, hrest⟩
    · exact absurd hrest (hopens rest)
    · rcases List.cons_eq_append_iff.1 hrest with ⟨-, hms'⟩ | ⟨rest', rfl, rfl⟩
      · exact absurd hms' (hopens [])
      · rw [sides_append] at hafter
        exact ⟨before, rest', rfl, hstart, hid, hafter.of_append_right hms⟩
  · rintro ⟨before, after, rfl, hstart, hid, hafter⟩
    refine ⟨before, after ++ ms, by simp, hstart, hid, ?_⟩
    rw [sides_append]
    exact hafter.append hms

/-- The open start tags of an identifier, the latest first. -/
inductive Opened (identifier : List Char) : List Numbered → List Numbered → Prop where
  | none {ns : List Numbered} : (∀ a, ¬ Opens identifier ns a) → Opened identifier [] ns
  /-- What is behind the latest one matches up. -/
  | start {q before after : List Numbered} {a : Numbered} :
      a.1.tag.role = .start → a.1.tag.identifier = identifier →
      Balanced (sides identifier after) → Opened identifier q before →
      Opened identifier (a :: q) (before ++ a :: after)

namespace Opened

variable {q : List Numbered}

theorem append_balanced (h : Opened identifier q ns) (hms : Balanced (sides identifier ms)) :
    Opened identifier q (ns ++ ms) := by
  cases h with
  | none hnone => exact .none fun a ha => hnone a ((opens_append_iff hms).1 ha)
  | @start q before after a hstart hid hafter hq =>
    rw [List.append_assoc, List.cons_append]
    refine .start hstart hid ?_ hq
    rw [sides_append]
    exact hafter.append hms

/-- An end tag closes the latest one. -/
theorem finish (h : Opened identifier q ns) (hrole : n.1.tag.role = .finish)
    (hid : n.1.tag.identifier = identifier) : Opened identifier q.tail (ns ++ [n]) := by
  have hsides : sides identifier [n] = [.finish] := by
    rw [sides_cons_of_eq hid (by simp [hrole]), hrole, sides_nil]
  cases h with
  | none hnone =>
    refine .none fun a ⟨before, after, hns, hstart, hida, hafter⟩ => ?_
    rcases List.eq_nil_or_concat after with rfl | ⟨after', m, rfl⟩
    · -- the end tag itself is no start tag
      obtain ⟨-, hna⟩ := List.append_inj' hns rfl
      obtain rfl : n = a := by simpa using hna
      simp [hrole] at hstart
    · have hns' : ns ++ [n] = (before ++ a :: after') ++ [m] := by simpa using hns
      obtain ⟨rfl, hnm⟩ := List.append_inj' hns' rfl
      obtain rfl : n = m := by simpa using hnm
      -- what it closes behind `a` was open before
      rw [List.concat_eq_append, sides_append, hsides] at hafter
      obtain ⟨u, v, hsplit, -, hv⟩ := hafter.exists_start
      obtain ⟨before', s, after, rfl, hids, hroles, rfl⟩ := exists_of_sides_eq hsplit
      exact hnone s ⟨before ++ a :: before', after, by simp, hroles, hids, hv⟩
  | @start q before after a hstart hida hafter hq =>
    rw [List.append_assoc]
    refine hq.append_balanced ?_
    rw [← List.nil_append (a :: after), List.append_assoc, List.cons_append,
      sides_split hstart hida, sides_append, hsides]
    exact Balanced.nil.pair hafter

/-- The latest one is the only one with nothing but tags that match up behind it. -/
theorem opens_iff (h : Opened identifier q ns) : Opens identifier ns a ↔ q.head? = some a := by
  cases h with
  | none hnone => simp [hnone a]
  | @start q before after s hstart hid hafter hq =>
    rw [List.head?_cons, Option.some_inj]
    constructor
    · rintro ⟨before', after', hns, hstart', hid', hafter'⟩
      -- of two start tags with this property, one would be behind the other
      rcases append_cons_eq_append_cons hns with ⟨-, hsa, -⟩ | ⟨m, -, rfl⟩ | ⟨m, -, rfl⟩
      · exact hsa
      · exact absurd (sides_split hstart hid) (hafter'.ne_append_start hafter)
      · exact absurd (sides_split hstart' hid') (hafter.ne_append_start hafter')
    · rintro rfl
      exact ⟨before, after, rfl, hstart, hid, hafter⟩

end Opened

/-! ## Section 4: The walk -/

/-- The range of a tag for a single line. -/
def ownRange (n : Numbered) : TaggedRange :=
  ⟨n.1.tag.identifier, n.1.line, n.1.line⟩

/-- The range between two tags. -/
def spannedRange (pair : Numbered × Numbered) : TaggedRange :=
  ⟨pair.1.1.tag.identifier, pair.1.1.line, pair.2.1.line⟩

theorem perm_cons_eraseP {α : Type*} {p : α → Bool} {a : α} {l : List α}
    (h : l.find? p = some a) : l.Perm (a :: l.eraseP p) := by
  obtain ⟨ha, front, rest, rfl, hfront⟩ := List.find?_eq_some_iff_append.1 h
  rw [List.eraseP_append_right _ (by simpa using hfront), List.eraseP_cons_of_pos ha]
  exact List.perm_middle

/-- What a walk over some tags has found out: each of them is a single line, in a pair,
    without a start tag or still waiting for its end tag. -/
structure Walked (ns : List Numbered) (p : Pairing) (singles : List Numbered)
    (pairs : List (Numbered × Numbered)) (strays waiting : List Numbered) : Prop where
  once : (singles ++ (pairs.map Prod.fst ++ pairs.map Prod.snd) ++ (strays ++ waiting)).Perm ns
  ranges : p.ranges.Perm (singles.map ownRange ++ pairs.map spannedRange)
  strayEnds : p.strayEnds = strays.map Prod.fst
  pending : p.pending = waiting.map Prod.fst
  single : ∀ n, n ∈ singles ↔ n ∈ ns ∧ n.1.tag.role = .single
  paired : ∀ a b, (a, b) ∈ pairs ↔ Partners ns a b
  opened : ∀ identifier,
    Opened identifier (waiting.filter fun n => n.1.tag.identifier = identifier) ns

namespace Walked

variable {p : Pairing} {singles strays waiting : List Numbered}
  {pairs : List (Numbered × Numbered)}

theorem start : Walked [] {} [] [] [] [] where
  once := .refl _
  ranges := .refl _
  strayEnds := rfl
  pending := rfl
  single := by simp
  paired := by simp [Partners]
  opened := fun identifier => .none fun a ⟨_, _, hnil, _⟩ => by simp at hnil

theorem count_once (h : Walked ns p singles pairs strays waiting) (m : Numbered) :
    singles.count m + ((pairs.map Prod.fst).count m + (pairs.map Prod.snd).count m) +
      (strays.count m + waiting.count m) = ns.count m := by
  have hm := h.once.count_eq m
  simpa only [List.count_append] using hm

/-- A tag that is no end tag is no partner yet. -/
theorem paired_concat (h : Walked ns p singles pairs strays waiting)
    (hrole : n.1.tag.role ≠ .finish) (a b : Numbered) :
    (a, b) ∈ pairs ↔ Partners (ns ++ [n]) a b := by
  rw [h.paired, partners_concat_iff]
  simp [hrole]

theorem single_concat (h : Walked ns p singles pairs strays waiting)
    (hrole : n.1.tag.role ≠ .single) (m : Numbered) :
    m ∈ singles ↔ m ∈ ns ++ [n] ∧ m.1.tag.role = .single := by
  rw [h.single, List.mem_append, List.mem_singleton]
  constructor
  · rintro ⟨hm, hsingle⟩
    exact ⟨.inl hm, hsingle⟩
  · rintro ⟨hm | rfl, hsingle⟩
    · exact ⟨hm, hsingle⟩
    · exact absurd hsingle hrole

/-- A tag that is no side of an identifier changes nothing for it. -/
theorem opened_concat (h : Walked ns p singles pairs strays waiting)
    (hn : n.1.tag.identifier ≠ identifier ∨ n.1.tag.role = .single) :
    Opened identifier (waiting.filter fun n => n.1.tag.identifier = identifier)
      (ns ++ [n]) := by
  refine (h.opened identifier).append_balanced ?_
  rw [sides_cons_of_ne hn]
  exact .nil

theorem step_single (h : Walked ns p singles pairs strays waiting)
    (hrole : n.1.tag.role = .single) :
    Walked (ns ++ [n]) (p.step n.1) (singles ++ [n]) pairs strays waiting := by
  have hstep : p.step n.1 = { p with ranges := p.ranges ++ [ownRange n] } := by
    simp [Pairing.step, hrole, ownRange]
  rw [hstep]
  exact {
    once := by
      rw [List.perm_iff_count]
      intro m
      have hm := h.count_once m
      simp only [List.count_append]
      omega
    ranges := by
      have hranges := h.ranges
      rw [List.perm_iff_count] at hranges ⊢
      intro r
      have hr := hranges r
      simp only [List.map_append, List.count_append, List.map_cons, List.map_nil] at hr ⊢
      omega
    strayEnds := h.strayEnds
    pending := h.pending
    single := by
      intro m
      simp only [List.mem_append, List.mem_singleton, h.single, or_and_right]
      refine or_congr_right ⟨?_, And.left⟩
      rintro rfl
      exact ⟨rfl, hrole⟩
    paired := h.paired_concat (by simp [hrole])
    opened := fun identifier => h.opened_concat (.inr hrole) }

theorem step_start (h : Walked ns p singles pairs strays waiting)
    (hrole : n.1.tag.role = .start) :
    Walked (ns ++ [n]) (p.step n.1) singles pairs strays (n :: waiting) := by
  have hstep : p.step n.1 = { p with pending := n.1 :: p.pending } := by
    simp [Pairing.step, hrole]
  rw [hstep]
  exact {
    once := by
      rw [List.perm_iff_count]
      intro m
      have hm := h.count_once m
      simp only [List.count_append, List.count_cons, List.count_nil]
      omega
    ranges := h.ranges
    strayEnds := h.strayEnds
    pending := by rw [List.map_cons, h.pending]
    single := h.single_concat (by simp [hrole])
    paired := h.paired_concat (by simp [hrole])
    opened := by
      intro identifier
      by_cases hid : n.1.tag.identifier = identifier
      · rw [List.filter_cons_of_pos (by simpa using hid)]
        exact .start hrole hid .nil (h.opened identifier)
      · rw [List.filter_cons_of_neg (by simpa using hid)]
        exact h.opened_concat (.inl hid) }

/-- An end tag looks for the latest start tag of its identifier that waits. -/
theorem find?_pending (h : Walked ns p singles pairs strays waiting)
    (identifier : List Char) :
    p.pending.find? (fun o => o.tag.identifier = identifier) =
      (waiting.find? fun n => n.1.tag.identifier = identifier).map Prod.fst := by
  rw [h.pending, List.find?_map]
  rfl

theorem eraseP_pending (h : Walked ns p singles pairs strays waiting)
    (identifier : List Char) :
    p.pending.eraseP (fun o => o.tag.identifier = identifier) =
      (waiting.eraseP fun n => n.1.tag.identifier = identifier).map Prod.fst := by
  rw [h.pending, List.eraseP_map]
  rfl

/-- This is the one that is open. -/
theorem opens_iff (h : Walked ns p singles pairs strays waiting) :
    Opens identifier ns a ↔
      waiting.find? (fun n => n.1.tag.identifier = identifier) = some a := by
  rw [(h.opened identifier).opens_iff, List.head?_filter]

/-- An end tag closes it, and no other. -/
theorem opened_finish (h : Walked ns p singles pairs strays waiting)
    (hrole : n.1.tag.role = .finish) (identifier : List Char) :
    Opened identifier
      ((waiting.eraseP fun m => m.1.tag.identifier = n.1.tag.identifier).filter
        fun m => m.1.tag.identifier = identifier) (ns ++ [n]) := by
  by_cases hid : n.1.tag.identifier = identifier
  · rw [hid, filter_eraseP_self]
    exact (h.opened identifier).finish hrole hid
  · rw [filter_eraseP_of_not]
    · exact h.opened_concat (.inl hid)
    · intro m hm
      simp only [decide_eq_true_eq] at hm
      simp [hm, hid]

theorem step_stray (h : Walked ns p singles pairs strays waiting)
    (hrole : n.1.tag.role = .finish)
    (hnone : waiting.find? (fun m => m.1.tag.identifier = n.1.tag.identifier) = none) :
    Walked (ns ++ [n]) (p.step n.1) singles pairs (strays ++ [n]) waiting := by
  have hstep : p.step n.1 = { p with strayEnds := p.strayEnds ++ [n.1] } := by
    simp [Pairing.step, hrole, h.find?_pending, hnone]
  rw [hstep]
  exact {
    once := by
      rw [List.perm_iff_count]
      intro m
      have hm := h.count_once m
      simp only [List.count_append]
      omega
    ranges := h.ranges
    strayEnds := by rw [List.map_append, h.strayEnds]; rfl
    pending := h.pending
    single := h.single_concat (by simp [hrole])
    paired := by
      intro a b
      rw [h.paired, partners_concat_iff, h.opens_iff, hnone]
      simp
    opened := by
      intro identifier
      have hopened := h.opened_finish hrole identifier
      rwa [List.eraseP_of_forall_not (List.find?_eq_none.1 hnone)] at hopened }

theorem step_pair (h : Walked ns p singles pairs strays waiting)
    (hrole : n.1.tag.role = .finish)
    (hsome : waiting.find? (fun m => m.1.tag.identifier = n.1.tag.identifier) = some a) :
    Walked (ns ++ [n]) (p.step n.1) singles (pairs ++ [(a, n)]) strays
      (waiting.eraseP fun m => m.1.tag.identifier = n.1.tag.identifier) := by
  have hida : a.1.tag.identifier = n.1.tag.identifier := by
    simpa using List.find?_some hsome
  have hstep : p.step n.1 = { p with
      ranges := p.ranges ++ [spannedRange (a, n)]
      pending := p.pending.eraseP fun o => o.tag.identifier = n.1.tag.identifier } := by
    simp [Pairing.step, hrole, h.find?_pending, hsome, spannedRange, hida]
  rw [hstep]
  exact {
    once := by
      rw [List.perm_iff_count]
      intro m
      have hm := h.count_once m
      have hwaiting := (perm_cons_eraseP hsome).count_eq m
      simp only [List.map_append, List.map_cons, List.map_nil, List.count_append,
        List.count_cons, List.count_nil] at hwaiting ⊢
      omega
    ranges := by
      rw [List.map_append, ← List.append_assoc]
      exact h.ranges.append_right _
    strayEnds := h.strayEnds
    pending := h.eraseP_pending _
    single := h.single_concat (by simp [hrole])
    paired := by
      intro a' b'
      rw [List.mem_append, List.mem_singleton, h.paired, partners_concat_iff, h.opens_iff, hsome]
      simp [hrole, and_comm, eq_comm]
    opened := h.opened_finish hrole }

/-- Every tag is taken into account, whatever its role. -/
theorem step (h : Walked ns p singles pairs strays waiting) (n : Numbered) :
    ∃ singles' pairs' strays' waiting',
      Walked (ns ++ [n]) (p.step n.1) singles' pairs' strays' waiting' := by
  cases hrole : n.1.tag.role with
  | single => exact ⟨_, _, _, _, h.step_single hrole⟩
  | start => exact ⟨_, _, _, _, h.step_start hrole⟩
  | finish =>
    cases hfind : waiting.find? fun m => m.1.tag.identifier = n.1.tag.identifier with
    | none => exact ⟨_, _, _, _, h.step_stray hrole hfind⟩
    | some a => exact ⟨_, _, _, _, h.step_pair hrole hfind⟩

/-- What the walk over any tags finds out. -/
theorem run (ns : List Numbered) :
    ∃ singles pairs strays waiting,
      Walked ns (Pairing.run (ns.map Prod.fst)) singles pairs strays waiting := by
  induction ns using List.reverseRecOn with
  | nil => exact ⟨_, _, _, _, start⟩
  | append_singleton ns n ih =>
    obtain ⟨singles, pairs, strays, waiting, h⟩ := ih
    have hrun : Pairing.run ((ns ++ [n]).map Prod.fst) =
        (Pairing.run (ns.map Prod.fst)).step n.1 := by
      rw [List.map_append, Pairing.run, List.foldl_append]
      rfl
    rw [hrun]
    exact h.step n

end Walked

/-- Every tag once: as a single line, in a pair of partners, or without a partner. -/
structure Bracketing (ns singles : List Numbered) (pairs : List (Numbered × Numbered))
    (loose : List Numbered) : Prop where
  once : (singles ++ (pairs.map Prod.fst ++ pairs.map Prod.snd) ++ loose).Perm ns
  single : ∀ n, n ∈ singles ↔ n ∈ ns ∧ n.1.tag.role = .single
  paired : ∀ a b, (a, b) ∈ pairs ↔ Partners ns a b
  loose : ∀ n, n ∈ loose ↔ n ∈ ns ∧ n.1.tag.role ≠ .single ∧
    ∀ m, ¬ Partners ns n m ∧ ¬ Partners ns m n

/-- What a walk leaves alone or waiting has no partner. -/
theorem Walked.bracketing {p : Pairing} {singles strays waiting : List Numbered}
    {pairs : List (Numbered × Numbered)} (h : Walked ns p singles pairs strays waiting)
    (hns : ns.Nodup) : Bracketing ns singles pairs (strays ++ waiting) where
  once := h.once
  single := h.single
  paired := h.paired
  loose := by
    have hnodup := h.once.nodup_iff.2 hns
    rw [List.nodup_append, List.nodup_append] at hnodup
    obtain ⟨-, -, hapart⟩ := hnodup
    intro n
    constructor
    · -- as every tag is counted once, it is no single line and in no pair
      intro hn
      have hmem : n ∈ ns := h.once.mem_iff.1 (List.mem_append_right _ hn)
      refine ⟨hmem, fun hsingle => ?_, fun m => ⟨fun hm => ?_, fun hm => ?_⟩⟩
      · have hs := (h.single n).2 ⟨hmem, hsingle⟩
        exact hapart n (List.mem_append_left _ hs) n hn rfl
      · have hfst := List.mem_map_of_mem (f := Prod.fst) ((h.paired n m).2 hm)
        exact hapart n (by simp [hfst]) n hn rfl
      · have hsnd := List.mem_map_of_mem (f := Prod.snd) ((h.paired m n).2 hm)
        exact hapart n (by simp [hsnd]) n hn rfl
    · rintro ⟨hmem, hrole, halone⟩
      rcases List.mem_append.1 (h.once.mem_iff.2 hmem) with hn | hn
      · rcases List.mem_append.1 hn with hn | hn
        · exact absurd ((h.single n).1 hn).2 hrole
        rcases List.mem_append.1 hn with hn | hn
        · obtain ⟨⟨a, b⟩, hab, rfl⟩ := List.mem_map.1 hn
          exact absurd ((h.paired a b).1 hab) (halone b).1
        · obtain ⟨⟨a, b⟩, hab, rfl⟩ := List.mem_map.1 hn
          exact absurd ((h.paired a b).1 hab) (halone a).2
      · exact hn

/-! ## Section 5: Sorted listings -/

/-- A list is split in one way into elements of a kind and others behind them. -/
theorem append_inj_of_forall {α : Type*} {p : α → Bool} {u u' v v' : List α}
    (h : u ++ v = u' ++ v') (hu : ∀ a ∈ u, p a) (hv : ∀ a ∈ v, ¬ p a) (hu' : ∀ a ∈ u', p a)
    (hv' : ∀ a ∈ v', ¬ p a) : u = u' ∧ v = v' := by
  have hfilter : ∀ x y : List α, (∀ a ∈ x, p a) → (∀ a ∈ y, ¬ p a) → (x ++ y).filter p = x := by
    intro x y hx hy
    rw [List.filter_append, List.filter_eq_self.2 hx, List.filter_eq_nil_iff.2 hy,
      List.append_nil]
  have hfront : u = u' := by
    rw [← hfilter u v hu hv, h, hfilter u' v' hu' hv']
  rw [hfront] at h
  exact ⟨hfront, List.append_cancel_left h⟩

/-- Sorting keeps the order of what is equally far, so it can be done before or after
    some elements are left out. -/
theorem filter_mergeSort {α : Type*} {le : α → α → Bool}
    (htrans : ∀ a b c, le a b → le b c → le a c) (htotal : ∀ a b, le a b || le b a)
    (p : α → Bool) (l : List α) : (l.mergeSort le).filter p = (l.filter p).mergeSort le := by
  induction l with
  | nil => rw [List.mergeSort_nil, List.filter_nil, List.mergeSort_nil]
  | cons a l ih =>
    obtain ⟨front, rest, hcons, hl, hfront⟩ := List.mergeSort_cons htrans htotal a l
    rw [hl, List.filter_append] at ih
    rw [hcons, List.filter_append]
    by_cases ha : p a
    · obtain ⟨front', rest', hcons', hl', hfront'⟩ :=
        List.mergeSort_cons htrans htotal a (l.filter p)
      -- in both, `a` stands behind all that come strictly before it and in front of the others
      have hrest : ∀ b ∈ rest.filter p, le a b := by
        have hsorted := List.pairwise_mergeSort htrans htotal (a :: l)
        rw [hcons, List.pairwise_append, List.pairwise_cons] at hsorted
        exact fun b hb => hsorted.2.1.1 b (List.mem_filter.1 hb).1
      have hrest' : ∀ b ∈ rest', le a b := by
        have hsorted := List.pairwise_mergeSort htrans htotal (a :: l.filter p)
        rw [hcons', List.pairwise_append, List.pairwise_cons] at hsorted
        exact hsorted.2.1.1
      have hbefore : ∀ b ∈ front.filter p, (!le a b) = true :=
        fun b hb => hfront b (List.mem_filter.1 hb).1
      rw [hl'] at ih
      obtain ⟨hf, hr⟩ := append_inj_of_forall ih hbefore (by simpa using hrest) hfront'
        (by simpa using hrest')
      rw [List.filter_cons_of_pos ha, List.filter_cons_of_pos ha, hcons', hf, hr]
    · rw [List.filter_cons_of_neg ha, List.filter_cons_of_neg ha, ih]

namespace Pairing

theorem rangeOrder_iff {r s : TaggedRange} :
    rangeOrder r s ↔ r.startLine < s.startLine ∨
      (r.startLine = s.startLine ∧ r.endLine ≤ s.endLine) := by
  simp [rangeOrder]

theorem rangeOrder_trans (r s t : TaggedRange) (h : rangeOrder r s) (k : rangeOrder s t) :
    rangeOrder r t := by
  rw [rangeOrder_iff] at h k ⊢
  omega

theorem rangeOrder_total (r s : TaggedRange) : rangeOrder r s || rangeOrder s r := by
  rw [Bool.or_eq_true, rangeOrder_iff, rangeOrder_iff]
  omega

theorem lineOrder_iff {o o' : Occurrence} : lineOrder o o' ↔ o.line ≤ o'.line := by
  simp [lineOrder]

theorem lineOrder_trans (o o' o'' : Occurrence) (h : lineOrder o o') (k : lineOrder o' o'') :
    lineOrder o o'' := by
  rw [lineOrder_iff] at h k ⊢
  omega

theorem lineOrder_total (o o' : Occurrence) : lineOrder o o' || lineOrder o' o := by
  rw [Bool.or_eq_true, lineOrder_iff, lineOrder_iff]
  omega

/-- A table gives out each open start tag once. -/
theorem perm_unclosed (order : TableOrder) (p : Pairing) : (p.unclosed order).Perm p.pending :=
  (List.mergeSort_perm _ _).trans (List.reverse_perm _)

/-- Whatever the table, the same tags have no partner. -/
theorem perm_dangling_listing (order order' : TableOrder) (p : Pairing) :
    (p.listing order).dangling.Perm (p.listing order').dangling := by
  have hunclosed : (p.unclosed order).Perm (p.unclosed order') :=
    (perm_unclosed order p).trans (perm_unclosed order' p).symm
  exact (List.mergeSort_perm _ _).trans
    ((hunclosed.append_left _).trans (List.mergeSort_perm _ _).symm)

end Pairing

/-- What is listed of one identifier. -/
def Listing.only (identifier : List Char) (l : Listing) : Listing where
  ranges   := l.ranges.filter fun r => r.identifier = identifier
  dangling := l.dangling.filter fun o => o.tag.identifier = identifier

/-- A table gives out the tags of one identifier from the first to the last. -/
theorem Pairing.filter_unclosed (order : TableOrder) (p : Pairing) (identifier : List Char) :
    (p.unclosed order).filter (fun o => o.tag.identifier = identifier) =
      (p.only identifier).pending.reverse := by
  have htrans : ∀ a b c : Occurrence, order.le a.tag.identifier b.tag.identifier →
      order.le b.tag.identifier c.tag.identifier → order.le a.tag.identifier c.tag.identifier :=
    fun _ _ _ => order.trans _ _ _
  have htotal : ∀ a b : Occurrence, order.le a.tag.identifier b.tag.identifier ||
      order.le b.tag.identifier a.tag.identifier := fun _ _ => order.total _ _
  unfold unclosed
  rw [filter_mergeSort htrans htotal, List.filter_reverse]
  apply List.mergeSort_of_pairwise
  rw [List.pairwise_reverse]
  refine List.pairwise_of_forall_mem_list ?_
  intro a ha b hb
  have hsame : b.tag.identifier = a.tag.identifier :=
    (of_decide_eq_true (List.mem_filter.1 hb).2).trans
      (of_decide_eq_true (List.mem_filter.1 ha).2).symm
  rw [hsame]
  simpa using order.total a.tag.identifier a.tag.identifier

/-- This is what a walk that knows of this identifier alone would list, with whatever
    table. -/
theorem Pairing.listing_only (order order' : TableOrder) (p : Pairing)
    (identifier : List Char) :
    (p.listing order).only identifier = (p.only identifier).listing order' := by
  have hsame := (p.only identifier).filter_unclosed order' identifier
  have honly : (p.only identifier).only identifier = p.only identifier := by
    simp [only]
  have hopen : ((p.only identifier).unclosed order').filter
      (fun o => o.tag.identifier = identifier) = (p.only identifier).unclosed order' := by
    rw [List.filter_eq_self]
    intro o ho
    exact (List.mem_filter.1 ((perm_unclosed order' _).mem_iff.1 ho)).2
  simp only [listing, Listing.only, filter_mergeSort rangeOrder_trans rangeOrder_total,
    filter_mergeSort lineOrder_trans lineOrder_total, List.filter_append, filter_unclosed]
  rw [← hopen, hsame, honly]
  rfl

/-! ## Section 6: What is listed of a document -/

namespace Document

/-- Tags are found from the first line to the last. -/
theorem pairwise_occurrences (g : Grammar) (d : Document) :
    (d.occurrences g).Pairwise fun o o' => o.line ≤ o'.line := by
  have hlines : (d.texts.zipIdx 1).Pairwise fun t t' => t.2 < t'.2 := by
    rw [← List.pairwise_map, List.zipIdx_map_snd]
    exact List.pairwise_lt_range' 1
  rw [occurrences, List.pairwise_flatMap]
  constructor
  · intro t _
    rw [List.pairwise_map]
    exact List.pairwise_of_forall fun _ _ => Nat.le_refl _
  · refine hlines.imp fun hlt o ho o' ho' => ?_
    obtain ⟨_, -, rfl⟩ := List.mem_map.1 ho
    obtain ⟨_, -, rfl⟩ := List.mem_map.1 ho'
    exact Nat.le_of_lt hlt

/-- A start tag stands on no later line than its end tag. -/
theorem line_le_of_partners {g : Grammar} {d : Document}
    (h : Partners (d.occurrences g).zipIdx a b) : a.1.line ≤ b.1.line := by
  obtain ⟨before, between, after, hns, -⟩ := h
  have hlines := d.pairwise_occurrences g
  rw [← List.zipIdx_map_fst 0 (d.occurrences g), List.pairwise_map, hns, List.pairwise_append,
    List.pairwise_cons] at hlines
  exact hlines.2.1.1 b (by simp)

theorem nodup_zipIdx_occurrences (g : Grammar) (d : Document) :
    (d.occurrences g).zipIdx.Nodup := by
  refine List.Nodup.of_map Prod.snd ?_
  rw [List.zipIdx_map_snd]
  exact List.nodup_range' 1

/-- Every tag of a document is listed once: as a range of its own line, with its partner
    as a range, or as one without a partner. -/
theorem exists_bracketing (g : Grammar) (d : Document) (order : TableOrder) :
    ∃ singles pairs loose,
      Bracketing (d.occurrences g).zipIdx singles pairs loose ∧
      (d.listing g order).ranges.Perm (singles.map ownRange ++ pairs.map spannedRange) ∧
      (d.listing g order).dangling.Perm (loose.map Prod.fst) := by
  obtain ⟨singles, pairs, strays, waiting, h⟩ := Walked.run (d.occurrences g).zipIdx
  have hbracketing := h.bracketing (d.nodup_zipIdx_occurrences g)
  rw [List.zipIdx_map_fst] at h
  refine ⟨singles, pairs, strays ++ waiting, hbracketing, ?_, ?_⟩
  · exact (List.mergeSort_perm _ _).trans h.ranges
  · refine (List.mergeSort_perm _ _).trans ?_
    rw [h.strayEnds, List.map_append, ← h.pending]
    exact (Pairing.perm_unclosed order _).append_left _

theorem pairwise_ranges_listing (g : Grammar) (d : Document) (order : TableOrder) :
    (d.listing g order).ranges.Pairwise fun r s =>
      r.startLine < s.startLine ∨ (r.startLine = s.startLine ∧ r.endLine ≤ s.endLine) :=
  (List.pairwise_mergeSort Pairing.rangeOrder_trans Pairing.rangeOrder_total _).imp
    Pairing.rangeOrder_iff.1

theorem pairwise_dangling_listing (g : Grammar) (d : Document) (order : TableOrder) :
    (d.listing g order).dangling.Pairwise fun o o' => o.line ≤ o'.line :=
  (List.pairwise_mergeSort Pairing.lineOrder_trans Pairing.lineOrder_total _).imp
    Pairing.lineOrder_iff.1

end Document

/-- The listings are the same but for the order of tags without a partner that stand on one
    line and have different identifiers. -/
structure Listing.Agrees (l l' : Listing) : Prop where
  ranges : l.ranges = l'.ranges
  lines  : l.dangling.map Occurrence.line = l'.dangling.map Occurrence.line
  tags   : ∀ identifier, l.only identifier = l'.only identifier

namespace Document

/-- No more than that depends on the table. -/
theorem listing_agrees (g : Grammar) (d : Document) (order order' : TableOrder) :
    (d.listing g order).Agrees (d.listing g order') where
  ranges := rfl
  lines := by
    have hperm : (d.listing g order).dangling.Perm (d.listing g order').dangling :=
      Pairing.perm_dangling_listing order order' _
    refine List.Perm.eq_of_pairwise (fun _ _ _ _ => Nat.le_antisymm) ?_ ?_
      (hperm.map Occurrence.line)
    · exact List.pairwise_map.2 (d.pairwise_dangling_listing g order)
    · exact List.pairwise_map.2 (d.pairwise_dangling_listing g order')
  tags identifier := by
    rw [listing, listing, Pairing.listing_only order order, Pairing.listing_only order' order]

/-- The listing of a document is the bracket matching of its tags. Every tag counts once,
    partners are the tags of an identifier between which its other tags match up, no
    identifier has an effect on another, and everything is in the order of the lines. -/
theorem listing_matches_brackets (g : Grammar) (d : Document) (order : TableOrder) :
    (∃ singles pairs loose,
      Bracketing (d.occurrences g).zipIdx singles pairs loose ∧
      (d.listing g order).ranges.Perm (singles.map ownRange ++ pairs.map spannedRange) ∧
      (d.listing g order).dangling.Perm (loose.map Prod.fst)) ∧
    (∀ identifier order', (d.listing g order).only identifier =
      (Pairing.run
        ((d.occurrences g).filter fun o => o.tag.identifier = identifier)).listing order') ∧
    (∀ r ∈ (d.listing g order).ranges, r.startLine ≤ r.endLine) ∧
    ((d.listing g order).ranges.Pairwise fun r s =>
      r.startLine < s.startLine ∨ (r.startLine = s.startLine ∧ r.endLine ≤ s.endLine)) ∧
    ((d.listing g order).dangling.Pairwise fun o o' => o.line ≤ o'.line) := by
  have hlisted := d.exists_bracketing g order
  refine ⟨hlisted, fun identifier order' => ?_, fun r hr => ?_,
    d.pairwise_ranges_listing g order, d.pairwise_dangling_listing g order⟩
  · rw [listing, Pairing.listing_only order order', Pairing.only_run]
  · obtain ⟨singles, pairs, loose, h, hranges, -⟩ := hlisted
    rcases List.mem_append.1 (hranges.mem_iff.1 hr) with hr | hr
    · obtain ⟨n, -, rfl⟩ := List.mem_map.1 hr
      exact Nat.le_refl _
    · obtain ⟨⟨a, b⟩, hab, rfl⟩ := List.mem_map.1 hr
      exact line_le_of_partners ((h.paired a b).1 hab)

end Document

end Marginalia
