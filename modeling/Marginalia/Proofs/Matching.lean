import Mathlib.Data.List.Basic
import Mathlib.Logic.Relation
import Marginalia.Regex.Basic

/-! # What the matcher finds

    `Regex.ends` walks through a text and skips places where it has been before. This
    module says what an expression matches without a walk, and that the walk finds
    exactly that:

    * **`Words`**: a set of words, each of which may depend on the character before
      it and on the text after it.
    * **`Regex.Matches`**: the words that an expression matches.
    * **`Search.grows_repeatFrom`**: a walk settles every place that it marks, which is
      why it may skip marked places.
    * **`Regex.realizes_ends`**: from every place, `ends` reaches the ends of the words
      that it matches, and no others. -/

namespace Marginalia

/-! ## Section 1: Words -/

/-- The words that can stand after a character and before a text. -/
abbrev Words := Option Char → List Char → List Char → Prop

/-- The character before what follows the word `w`. -/
def lastChar (prev : Option Char) (w : List Char) : Option Char :=
  w.getLast?.or prev

@[simp] theorem lastChar_nil (prev : Option Char) : lastChar prev [] = prev := rfl

@[simp] theorem lastChar_append (prev : Option Char) (u v : List Char) :
    lastChar (lastChar prev u) v = lastChar prev (u ++ v) := by
  simp [lastChar, List.getLast?_append, Option.or_assoc]

namespace Words

/-- The empty word. -/
def one : Words := fun _ w _ => w = []

/-- A word of `L`, followed by a word of `M`. -/
def seq (L M : Words) : Words := fun prev w rest =>
  ∃ u v, w = u ++ v ∧ L prev u (v ++ rest) ∧ M (lastChar prev u) v rest

/-- So many words of `L`, one after the other. -/
def times (L : Words) : Nat → Words
  | 0     => one
  | n + 1 => L.seq (L.times n)

/-- Any of several numbers of words of `L`. -/
def timesIn (L : Words) (counts : Nat → Prop) : Words := fun prev w rest =>
  ∃ k, counts k ∧ L.times k prev w rest

variable (L M N : Words)

@[simp] theorem one_seq : one.seq L = L := by
  funext prev w rest
  simp only [seq, one, eq_iff_iff]
  constructor
  · rintro ⟨_, v, rfl, rfl, h⟩
    exact h
  · intro h
    exact ⟨[], w, rfl, rfl, h⟩

@[simp] theorem seq_one : L.seq one = L := by
  funext prev w rest
  simp only [seq, one, eq_iff_iff]
  constructor
  · rintro ⟨u, _, rfl, h, rfl⟩
    simpa using h
  · intro h
    exact ⟨w, [], by simp, by simpa using h, rfl⟩

theorem seq_assoc : (L.seq M).seq N = L.seq (M.seq N) := by
  funext prev w rest
  simp only [seq, eq_iff_iff]
  constructor
  · rintro ⟨_, z, rfl, ⟨x, y, rfl, hx, hy⟩, hz⟩
    exact ⟨x, y ++ z, by simp, by simpa using hx, y, z, rfl, hy, by simpa using hz⟩
  · rintro ⟨x, _, rfl, hx, y, z, rfl, hy, hz⟩
    exact ⟨x ++ y, z, by simp, ⟨x, y, rfl, by simpa using hx, hy⟩, by simpa using hz⟩

theorem times_add (m n : Nat) : L.times (m + n) = (L.times m).seq (L.times n) := by
  induction m with
  | zero => simp [times]
  | succ m ih => rw [Nat.succ_add, times, times, ih, seq_assoc]

theorem times_one : L.times 1 = L := by
  simp [times]

/-- So many words of `L`, and then more of them. -/
theorem times_seq_timesIn (n : Nat) (counts : Nat → Prop) :
    (L.times n).seq (L.timesIn counts) = L.timesIn fun k => ∃ m, counts m ∧ k = n + m := by
  funext prev w rest
  simp only [timesIn, eq_iff_iff]
  constructor
  · rintro ⟨u, v, rfl, hu, m, hm, hv⟩
    exact ⟨n + m, ⟨m, hm, rfl⟩, times_add L n m ▸ ⟨u, v, rfl, hu, hv⟩⟩
  · rintro ⟨_, ⟨m, hm, rfl⟩, h⟩
    rw [times_add] at h
    obtain ⟨u, v, rfl, hu, hv⟩ := h
    exact ⟨u, v, rfl, hu, m, hm, hv⟩

end Words

namespace Regex

/-- The words that an expression matches. -/
def Matches : Regex → Words
  | .empty       => .one
  | .set s       => fun _ w _ => ∃ c, w = [c] ∧ s c = true
  | .look l      => fun prev w rest => w = [] ∧ l.holds ⟨0, prev, rest, []⟩ = true
  | .group _ r   => r.Matches
  | .seq r s     => r.Matches.seq s.Matches
  | .alt r s     => fun prev w rest => r.Matches prev w rest ∨ s.Matches prev w rest
  | .rep _ n m r => r.Matches.timesIn fun k => n ≤ k ∧ ∀ bound ∈ m, k ≤ max n bound

end Regex

/-! ## Section 2: Steps between places -/

namespace Place

/-- The word `w` stands between `p` and `q`. -/
structure Leads (p : Place) (w : List Char) (q : Place) : Prop where
  offset : q.offset = p.offset + w.length
  rest   : p.rest = w ++ q.rest
  prev   : q.prev = lastChar p.prev w

namespace Leads

variable {p q r : Place} {u v w : List Char}

theorem refl (p : Place) : p.Leads [] p :=
  ⟨rfl, rfl, rfl⟩

theorem trans (h : p.Leads u q) (h' : q.Leads v r) : p.Leads (u ++ v) r where
  offset := by rw [h'.offset, h.offset, List.length_append, Nat.add_assoc]
  rest   := by rw [h.rest, h'.rest, List.append_assoc]
  prev   := by rw [h'.prev, h.prev, lastChar_append]

/-- On the way from `p`, only one place has a given offset, apart from its groups. -/
theorem unique (h : p.Leads u q) (h' : p.Leads v r) (ho : q.offset = r.offset) :
    u = v ∧ q.rest = r.rest ∧ q.prev = r.prev := by
  have hlen : u.length = v.length := by
    have := h.offset
    have := h'.offset
    omega
  obtain ⟨rfl, hrest⟩ := List.append_inj (h.rest.symm.trans h'.rest) hlen
  exact ⟨rfl, hrest, by rw [h.prev, h'.prev]⟩

/-- What follows a word that stands between two places leads on from the second. -/
theorem of_append (h : p.Leads u q) (h' : p.Leads (u ++ v) r) : q.Leads v r where
  offset := by
    have := h.offset
    have := h'.offset
    rw [List.length_append] at this
    omega
  rest := by
    have := h.rest.symm.trans h'.rest
    simpa using this
  prev := by rw [h'.prev, h.prev, lastChar_append]

/-- Less text follows a later place. -/
theorem remaining_lt {a : Place} (h : a.Leads u p) (h' : p.Leads w q)
    (hne : q.offset ≠ p.offset) :
    a.offset + a.rest.length - q.offset < a.offset + a.rest.length - p.offset := by
  have := h.offset
  have := h'.offset
  have hp := congrArg List.length h.rest
  have hq := congrArg List.length h'.rest
  simp only [List.length_append] at hp hq
  omega

/-- A word that `p.rest` begins with leads somewhere. -/
theorem exists_of_rest {t : List Char} (h : p.rest = w ++ t) :
    p.Leads w ⟨p.offset + w.length, lastChar p.prev w, t, []⟩ :=
  ⟨rfl, h, rfl⟩

end Leads

/-! ### Keeping places apart -/

/-- One step of `distinct`. -/
theorem distinct_fold (ps : List Place) (seen : List Nat) (kept : List Place) :
    let result := ps.foldl (fun (seen, kept) p =>
      if seen.contains p.offset then (seen, kept) else (p.offset :: seen, p :: kept))
      (seen, kept)
    ∃ more, result.2 = more ++ kept ∧ (∀ q ∈ more, q ∈ ps) ∧
      ∀ q ∈ ps, q.offset ∈ seen ∨ ∃ q' ∈ more, q'.offset = q.offset := by
  induction ps generalizing seen kept with
  | nil => exact ⟨[], by simp⟩
  | cons p ps ih =>
    simp only [List.foldl_cons, List.contains_eq_mem, decide_eq_true_eq]
    split
    · next hp =>
      obtain ⟨more, hkept, hmore, hall⟩ := ih seen kept
      refine ⟨more, by simpa using hkept, fun q hq => List.mem_cons_of_mem _ (hmore q hq), ?_⟩
      intro q hq
      rcases List.mem_cons.1 hq with rfl | hq
      · exact .inl hp
      · exact hall q hq
    · obtain ⟨more, hkept, hmore, hall⟩ := ih (p.offset :: seen) (p :: kept)
      refine ⟨more ++ [p], by simpa using hkept, ?_, ?_⟩
      · intro q hq
        rcases List.mem_append.1 hq with hq | hq
        · exact List.mem_cons_of_mem _ (hmore q hq)
        · exact List.mem_cons.2 (.inl (List.mem_singleton.1 hq))
      · intro q hq
        rcases List.mem_cons.1 hq with rfl | hq
        · exact .inr ⟨q, by simp⟩
        rcases hall q hq with hseen | ⟨q', hq', ho⟩
        · rcases List.mem_cons.1 hseen with ho | hseen
          · exact .inr ⟨p, by simp, ho.symm⟩
          · exact .inl hseen
        · exact .inr ⟨q', by simp [hq'], ho⟩

theorem mem_of_mem_distinct {ps : List Place} {q : Place} (h : q ∈ distinct ps) : q ∈ ps := by
  obtain ⟨more, hkept, hmore, -⟩ := distinct_fold ps [] []
  simp only [distinct, hkept, List.append_nil, List.mem_reverse] at h
  exact hmore q h

theorem exists_mem_distinct {ps : List Place} {q : Place} (h : q ∈ ps) :
    ∃ q' ∈ distinct ps, q'.offset = q.offset := by
  obtain ⟨more, hkept, -, hall⟩ := distinct_fold ps [] []
  rcases hall q h with h | ⟨q', hq', ho⟩
  · cases h
  · refine ⟨q', ?_, ho⟩
    simp only [distinct, hkept, List.append_nil, List.mem_reverse]
    exact hq'

/-- The first way to reach a place is kept, so the best place stays the best. -/
@[simp] theorem head?_distinct (ps : List Place) : (distinct ps).head? = ps.head? := by
  cases ps with
  | nil => rfl
  | cons p ps =>
    obtain ⟨more, hkept, -⟩ := distinct_fold ps [p.offset] [p]
    simp only [distinct, List.foldl_cons, List.contains_nil, Bool.false_eq_true, if_false]
    rw [hkept]
    simp

end Place

/-! ## Section 3: Walks

    A walk visits keys, and skips a key that it has marked before. Skipping is right
    because of one invariant: whatever lies beyond a marked key was found already,
    unless the key is one of those that the walk is still busy with. Along the walk a
    *height* falls, so that the busy keys are higher than everything visited next. -/

namespace Regex

/-- The state of a walk: the marked keys, and the places that were found. -/
abbrev Walk := List (Nat × Nat) × List Place

/-- The key of a place from which `n` more steps may be taken. -/
def walkKey (bounded : Bool) (n : Nat) (p : Place) : Nat × Nat :=
  (if bounded then n else 0, p.offset)

/-- The places at which a walk goes on. -/
def walkNext (bounded : Bool) (step : Place → List Place) (p : Place) : List Place :=
  if bounded then step p else (step p).filter fun q => q.offset != p.offset

/-- The state of a walk that begins to visit `p`: its key is marked, and a walk that
    prefers fewer steps has found it. -/
def enter (greedy : Bool) (key : Nat × Nat) (p : Place) (w : Walk) : Walk :=
  (key :: w.1, if greedy then w.2 else p :: w.2)

/-- The state of a walk that has visited everything beyond `p`. -/
def leave (greedy : Bool) (p : Place) (w : Walk) : Walk :=
  if greedy then (w.1, p :: w.2) else w

theorem mem_enter_iff {greedy : Bool} {key : Nat × Nat} {p q : Place} {w : Walk} :
    q ∈ (enter greedy key p w).2 ↔ greedy = false ∧ q = p ∨ q ∈ w.2 := by
  cases greedy <;> simp [enter]

theorem mem_leave_iff {greedy : Bool} {p q : Place} {w : Walk} :
    q ∈ (leave greedy p w).2 ↔ greedy = true ∧ q = p ∨ q ∈ w.2 := by
  cases greedy <;> simp [leave]

@[simp] theorem leave_fst (greedy : Bool) (p : Place) (w : Walk) :
    (leave greedy p w).1 = w.1 := by
  cases greedy <;> rfl

/-- A walk at a place from which no more steps may be taken. -/
theorem repeatFrom_zero (greedy bounded : Bool) (step : Place → List Place) (w : Walk)
    (p : Place) :
    repeatFrom greedy bounded step 0 w p =
      if walkKey bounded 0 p ∈ w.1 then w
      else leave greedy p (enter greedy (walkKey bounded 0 p) p w) := by
  have hkey : walkKey bounded 0 p = (0, p.offset) := by simp [walkKey]
  rw [repeatFrom, hkey]
  simp only [List.contains_eq_mem, decide_eq_true_eq]
  cases greedy <;> rfl

/-- A walk at a place from which more steps may be taken. -/
theorem repeatFrom_succ (greedy bounded : Bool) (step : Place → List Place) (n : Nat)
    (w : Walk) (p : Place) :
    repeatFrom greedy bounded step (n + 1) w p =
      if walkKey bounded (n + 1) p ∈ w.1 then w
      else leave greedy p ((walkNext bounded step p).foldl (repeatFrom greedy bounded step n)
        (enter greedy (walkKey bounded (n + 1) p) p w)) := by
  rw [repeatFrom]
  simp only [List.contains_eq_mem, decide_eq_true_eq]
  cases greedy <;> rfl

/-- Visits of several places, if each visit preserves `I`, loses nothing that was found,
    and makes `G` hold of what it visits, which it then does for good. -/
theorem foldl_visits {v : Walk → Place → Walk} {I : Walk → Prop}
    {G : Walk → Place → Prop} {l : List Place} {w : Walk}
    (hmono : ∀ {w w' q}, (∀ r ∈ w.2, r ∈ w'.2) → G w q → G w' q)
    (hvisit : ∀ w, I w → ∀ q ∈ l,
      I (v w q) ∧ (∀ r ∈ w.2, r ∈ (v w q).2) ∧ G (v w q) q)
    (hw : I w) :
    I (l.foldl v w) ∧ (∀ r ∈ w.2, r ∈ (l.foldl v w).2) ∧
      ∀ q ∈ l, G (l.foldl v w) q := by
  induction l generalizing w with
  | nil => exact ⟨hw, fun _ hr => hr, by simp⟩
  | cons q l ih =>
    obtain ⟨hI, hkeeps, hgood⟩ := hvisit w hw q List.mem_cons_self
    obtain ⟨hI', hkeeps', hgood'⟩ :=
      ih (fun w hw q hq => hvisit w hw q (List.mem_cons_of_mem _ hq)) hI
    refine ⟨hI', fun r hr => hkeeps' r (hkeeps r hr), fun p hp => ?_⟩
    rcases List.mem_cons.1 hp with rfl | hp
    · exact hmono hkeeps' hgood
    · exact hgood' p hp

/-- What a walk is to find. -/
structure Search (bounded : Bool) (step : Place → List Place) where
  /-- The walk may come to this place with so many steps left. -/
  Node   : Nat → Place → Prop
  /-- This offset lies beyond that key. -/
  Beyond : Nat × Nat → Nat → Prop
  height : Nat × Nat → Nat
  node   : ∀ {n p q}, Node (n + 1) p → q ∈ walkNext bounded step p → Node n q
  falls  : ∀ {n p q}, Node (n + 1) p → q ∈ walkNext bounded step p →
    height (walkKey bounded n q) < height (walkKey bounded (n + 1) p)
  stops  : ∀ {p o}, Node 0 p → Beyond (walkKey bounded 0 p) o → o = p.offset
  splits : ∀ {n p o}, Node (n + 1) p → Beyond (walkKey bounded (n + 1) p) o →
    o = p.offset ∨ ∃ q ∈ walkNext bounded step p, Beyond (walkKey bounded n q) o

namespace Search

variable {bounded : Bool} {step : Place → List Place} (S : Search bounded step)

/-- All that lies beyond a key was found. -/
def Settled (w : Walk) (key : Nat × Nat) : Prop :=
  ∀ o, S.Beyond key o → ∃ q ∈ w.2, q.offset = o

/-- Every marked key below `h` is settled. -/
def SettledBelow (h : Nat) (w : Walk) : Prop :=
  ∀ key ∈ w.1, S.height key < h → S.Settled w key

/-- What a walk below `h` makes of a state. -/
structure Grows (h : Nat) (w w' : Walk) : Prop where
  keeps   : ∀ q ∈ w.2, q ∈ w'.2
  found   : ∀ q ∈ w'.2, q ∈ w.2 ∨ ∃ n, S.Node n q
  marked  : ∀ key ∈ w'.1, key ∈ w.1 ∨ S.height key < h
  settled : S.SettledBelow h w'

variable {S} {h : Nat} {w w' w'' : Walk}

theorem Settled.mono {key : Nat × Nat} (hw : ∀ q ∈ w.2, q ∈ w'.2) (hk : S.Settled w key) :
    S.Settled w' key := by
  intro o ho
  obtain ⟨q, hq, rfl⟩ := hk o ho
  exact ⟨q, hw q hq, rfl⟩

namespace Grows

theorem refl (hw : S.SettledBelow h w) : S.Grows h w w :=
  ⟨fun _ hq => hq, fun _ hq => .inl hq, fun _ hk => .inl hk, hw⟩

theorem trans (hw : S.Grows h w w') (hw' : S.Grows h w' w'') : S.Grows h w w'' where
  keeps q hq := hw'.keeps q (hw.keeps q hq)
  found q hq := (hw'.found q hq).elim (hw.found q) .inr
  marked key hk := (hw'.marked key hk).elim (hw.marked key) .inr
  settled := hw'.settled

end Grows

/-- The visit of a place that was not marked: the walk enters it, goes on below it, which
    leads to the state `w'`, and leaves it. -/
theorem grows_visit (greedy : Bool) {n : Nat} {p : Place} {key : Nat × Nat}
    (hw : S.SettledBelow h w) (hp : S.Node n p) (hh : S.height key < h)
    (hbelow : S.SettledBelow (S.height key) (enter greedy key p w) →
      S.Grows (S.height key) (enter greedy key p w) w' ∧
        ∀ o, S.Beyond key o → o = p.offset ∨ ∃ q ∈ w'.2, q.offset = o) :
    S.Grows h w (leave greedy p w') ∧ S.Settled (leave greedy p w') key := by
  have hbefore : ∀ q ∈ w.2, q ∈ (enter greedy key p w).2 := fun _ hq => mem_enter_iff.2 (.inr hq)
  have hafter : ∀ q ∈ w'.2, q ∈ (leave greedy p w').2 := fun _ hq => mem_leave_iff.2 (.inr hq)
  -- while the walk is below `key`, only keys below it need to be settled
  have hbusy : S.SettledBelow (S.height key) (enter greedy key p w) := by
    intro k hk hlt
    rcases List.mem_cons.1 hk with rfl | hk
    · exact absurd hlt (Nat.lt_irrefl _)
    · exact (hw k hk (Nat.lt_trans hlt hh)).mono hbefore
  obtain ⟨hgrows, hsplits⟩ := hbelow hbusy
  have hown : p ∈ (leave greedy p w').2 := by
    cases greedy with
    | false => exact hafter p (hgrows.keeps p (mem_enter_iff.2 (.inl ⟨rfl, rfl⟩)))
    | true => exact mem_leave_iff.2 (.inl ⟨rfl, rfl⟩)
  have hmarked : ∀ k ∈ w'.1, k = key ∨ k ∈ w.1 ∨ S.height k < S.height key := by
    intro k hk
    rcases hgrows.marked k hk with hk | hk
    · exact (List.mem_cons.1 hk).imp id .inl
    · exact .inr (.inr hk)
  have hkeeps : ∀ q ∈ w.2, q ∈ (leave greedy p w').2 := fun q hq =>
    hafter q (hgrows.keeps q (hbefore q hq))
  have hsettled : S.Settled (leave greedy p w') key := by
    intro o ho
    rcases hsplits o ho with rfl | ⟨q, hq, rfl⟩
    · exact ⟨p, hown, rfl⟩
    · exact ⟨q, hafter q hq, rfl⟩
  refine ⟨⟨hkeeps, ?_, ?_, ?_⟩, hsettled⟩
  · intro q hq
    rcases mem_leave_iff.1 hq with ⟨-, rfl⟩ | hq
    · exact .inr ⟨n, hp⟩
    rcases hgrows.found q hq with hq | hq
    · rcases mem_enter_iff.1 hq with ⟨-, rfl⟩ | hq
      · exact .inr ⟨n, hp⟩
      · exact .inl hq
    · exact .inr hq
  · intro k hk
    rw [leave_fst] at hk
    rcases hmarked k hk with rfl | hk | hk
    · exact .inr hh
    · exact .inl hk
    · exact .inr (Nat.lt_trans hk hh)
  · intro k hk hlt
    rw [leave_fst] at hk
    rcases hmarked k hk with rfl | hkw | hkb
    · exact hsettled
    · exact (hw k hkw hlt).mono hkeeps
    · exact (hgrows.settled k hk hkb).mono hafter

/-- A walk settles the key at which it begins. -/
theorem grows_repeatFrom (greedy : Bool) {n : Nat} {p : Place} (hp : S.Node n p)
    (hh : S.height (walkKey bounded n p) < h) (hw : S.SettledBelow h w) :
    S.Grows h w (repeatFrom greedy bounded step n w p) ∧
      S.Settled (repeatFrom greedy bounded step n w p) (walkKey bounded n p) := by
  induction n generalizing p h w with
  | zero =>
    rw [repeatFrom_zero]
    split
    · next hseen => exact ⟨.refl hw, hw _ hseen hh⟩
    · exact grows_visit greedy hw hp hh fun hs =>
        ⟨.refl hs, fun o ho => .inl (S.stops hp ho)⟩
  | succ n ih =>
    rw [repeatFrom_succ]
    split
    · next hseen => exact ⟨.refl hw, hw _ hseen hh⟩
    · refine grows_visit greedy hw hp hh fun hs => ?_
      obtain ⟨hgrows, -, hsettled⟩ := foldl_visits
        (I := S.Grows (S.height (walkKey bounded (n + 1) p)) (enter greedy _ p w))
        (G := fun w q => S.Settled w (walkKey bounded n q)) Settled.mono
        (fun w hw q hq =>
          have ⟨hgrows, hsettled⟩ := ih (S.node hp hq) (S.falls hp hq) hw.settled
          ⟨hw.trans hgrows, hgrows.keeps, hsettled⟩)
        (.refl hs)
      refine ⟨hgrows, fun o ho => (S.splits hp ho).imp id ?_⟩
      rintro ⟨q, hq, hqo⟩
      exact hsettled q hq o hqo

end Search

/-! ## Section 4: Steps that realize a set of words -/

/-- The places `qs` are the ends of the words of `L` that begin at `p`. -/
structure Collects (p : Place) (qs : List Place) (L : Words) : Prop where
  sound    : ∀ {q}, q ∈ qs → ∃ w, p.Leads w q ∧ L p.prev w q.rest
  complete : ∀ {w q}, p.Leads w q → L p.prev w q.rest → ∃ q' ∈ qs, q'.offset = q.offset

/-- From every place, a step reaches the ends of the words of `L`. -/
def Realizes (step : Place → List Place) (L : Words) : Prop :=
  ∀ p, Collects p (step p) L

variable {p : Place} {ps qs : List Place} {L M : Words} {step : Place → List Place}

namespace Collects

theorem one : Collects p [p] .one where
  sound h := ⟨[], List.mem_singleton.1 h ▸ .refl p, rfl⟩
  complete h hw := ⟨p, by simp, by
    obtain rfl : _ = [] := hw
    simpa using h.offset.symm⟩

theorem distinct (h : Collects p qs L) : Collects p (Place.distinct qs) L where
  sound hq := h.sound (Place.mem_of_mem_distinct hq)
  complete hw hL := by
    obtain ⟨q, hq, ho⟩ := h.complete hw hL
    obtain ⟨q', hq', ho'⟩ := Place.exists_mem_distinct hq
    exact ⟨q', hq', ho'.trans ho⟩

theorem reverse (h : Collects p qs L) : Collects p qs.reverse L where
  sound hq := h.sound (List.mem_reverse.1 hq)
  complete hw hL := by simpa using h.complete hw hL

theorem append (h : Collects p ps L) (h' : Collects p qs M) :
    Collects p (ps ++ qs) (fun prev w rest => L prev w rest ∨ M prev w rest) where
  sound hq := by
    rcases List.mem_append.1 hq with hq | hq
    · exact (h.sound hq).imp fun _ hw => hw.imp id .inl
    · exact (h'.sound hq).imp fun _ hw => hw.imp id .inr
  complete hw hLM := by
    rcases hLM with hL | hM
    · obtain ⟨q, hq, ho⟩ := h.complete hw hL
      exact ⟨q, List.mem_append_left _ hq, ho⟩
    · obtain ⟨q, hq, ho⟩ := h'.complete hw hM
      exact ⟨q, List.mem_append_right _ hq, ho⟩

theorem flatMap (h : Collects p qs L) (hstep : Realizes step M) :
    Collects p (qs.flatMap step) (L.seq M) where
  sound hq := by
    obtain ⟨r, hr, hq⟩ := List.mem_flatMap.1 hq
    obtain ⟨u, hu, hL⟩ := h.sound hr
    obtain ⟨v, hv, hM⟩ := (hstep r).sound hq
    exact ⟨u ++ v, hu.trans hv, u, v, rfl, hv.rest ▸ hL, hu.prev ▸ hM⟩
  complete {w q} hw hLM := by
    obtain ⟨u, v, rfl, hL, hM⟩ := hLM
    have hu := Place.Leads.exists_of_rest (by simpa using hw.rest : p.rest = u ++ (v ++ q.rest))
    obtain ⟨r, hr, ho⟩ := h.complete hu hL
    obtain ⟨u', hu', -⟩ := h.sound hr
    obtain ⟨rfl, hrest, hprev⟩ := hu'.unique hu ho
    obtain ⟨q', hq', ho'⟩ := (hstep r).complete (hu'.of_append hw) (by rw [hprev]; exact hM)
    exact ⟨q', List.mem_flatMap.2 ⟨r, hr, hq'⟩, ho'⟩

end Collects

theorem exactly_succ (step : Place → List Place) (n : Nat) (ps : List Place) :
    exactly step (n + 1) ps = exactly step n (Place.distinct (ps.flatMap step)) := by
  cases ps with
  | nil => cases n <;> rfl
  | cons p ps => rfl

theorem Collects.exactly (h : Collects p qs L) (hstep : Realizes step M) (n : Nat) :
    Collects p (exactly step n qs) (L.seq (M.times n)) := by
  induction n generalizing qs L with
  | zero =>
    rw [Words.times, Words.seq_one]
    cases qs <;> exact h
  | succ n ih =>
    rw [exactly_succ, Words.times, ← Words.seq_assoc]
    exact ih (h.flatMap hstep).distinct

/-! ### Repetition -/

/-- On the way from `a`, exactly `k` words of `L` lead from offset `o` to offset `o'`. -/
def Hops (L : Words) (a : Place) (k o o' : Nat) : Prop :=
  ∃ p q u w, a.Leads u p ∧ p.offset = o ∧ p.Leads w q ∧ q.offset = o' ∧
    L.times k p.prev w q.rest

namespace Hops

variable {a : Place} {k o : Nat} {u : List Char}

theorem of_zero (h : Hops M a 0 p.offset o) : o = p.offset := by
  obtain ⟨p', q, u, w, -, hp, hw, rfl, rfl⟩ := h
  simpa [hp] using hw.offset

/-- The first of several words is found by one step. -/
theorem of_succ (hstep : Realizes step M) (hp : a.Leads u p) (h : Hops M a (k + 1) p.offset o) :
    ∃ q ∈ step p, Hops M a k q.offset o := by
  obtain ⟨p', q, u', w, hp', ho, hw, rfl, x, y, rfl, hx, hy⟩ := h
  -- `p` and `p'` may differ in their groups only
  obtain ⟨-, hrest, hprev⟩ := hp.unique hp' ho.symm
  have hw : p.Leads (x ++ y) q := ⟨ho ▸ hw.offset, hrest ▸ hw.rest, hprev ▸ hw.prev⟩
  have hx' := Place.Leads.exists_of_rest (by simpa using hw.rest : p.rest = x ++ (y ++ q.rest))
  obtain ⟨r, hr, hro⟩ := (hstep p).complete hx' (hprev ▸ hx)
  obtain ⟨x', hx'', -⟩ := (hstep p).sound hr
  obtain ⟨rfl, -, hrprev⟩ := hx''.unique hx' hro
  refine ⟨r, hr, r, q, u ++ x', y, hp.trans hx'', rfl, hx''.of_append hw, rfl, ?_⟩
  rw [hrprev, hprev]
  exact hy

/-- Of several words, those that are empty lead nowhere. -/
theorem eq_or_exists (hstep : Realizes step M) (hp : a.Leads u p) (h : Hops M a k p.offset o) :
    o = p.offset ∨ ∃ q ∈ step p, q.offset ≠ p.offset ∧ ∃ k, Hops M a k q.offset o := by
  induction k with
  | zero => exact .inl h.of_zero
  | succ k ih =>
    obtain ⟨q, hq, h⟩ := h.of_succ hstep hp
    by_cases ho : q.offset = p.offset
    · exact ih (ho ▸ h)
    · exact .inr ⟨q, hq, ho, k, h⟩

end Hops

/-- The search for the ends of at most `N` words of `M` that begin at `a`. -/
def boundedSearch (hstep : Realizes step M) (a : Place) (N : Nat) : Search true step where
  Node n p       := n ≤ N ∧ ∃ u, a.Leads u p ∧ M.times (N - n) a.prev u p.rest
  Beyond key o   := ∃ k ≤ key.1, Hops M a k key.2 o
  height key     := key.1
  node := by
    rintro n p q ⟨hn, u, hu, htimes⟩ hq
    obtain ⟨w, hw, hM⟩ := (hstep p).sound hq
    refine ⟨by omega, u ++ w, hu.trans hw, ?_⟩
    rw [show N - n = N - (n + 1) + 1 by omega, Words.times_add, Words.times_one]
    exact ⟨u, w, rfl, hw.rest ▸ htimes, hu.prev ▸ hM⟩
  falls _ _ := by simp [walkKey]
  stops := by
    rintro p o - ⟨k, hk, h⟩
    obtain rfl : k = 0 := by simpa [walkKey] using hk
    exact h.of_zero
  splits := by
    rintro n p o ⟨-, u, hu, -⟩ ⟨k, hk, h⟩
    cases k with
    | zero => exact .inl h.of_zero
    | succ k =>
      obtain ⟨q, hq, h⟩ := h.of_succ hstep hu
      exact .inr ⟨q, hq, k, by simpa [walkKey] using hk, h⟩

/-- The search for the ends of any number of words of `M` behind words of `L`, where a
    word of `M` behind a word of `L` makes a word of `L`. -/
def unboundedSearch (hstep : Realizes step M) (a : Place) (L : Words)
    (hL : ∀ prev w rest, L.seq M prev w rest → L prev w rest) : Search false step where
  Node n p       := p.rest.length ≤ n ∧ ∃ u, a.Leads u p ∧ L a.prev u p.rest
  Beyond key o   := ∃ k, Hops M a k key.2 o
  height key     := a.offset + a.rest.length - key.2
  node := by
    rintro n p q ⟨hn, u, hu, hLu⟩ hq
    simp only [walkNext, Bool.false_eq_true, if_false, List.mem_filter, bne_iff_ne] at hq
    obtain ⟨w, hw, hM⟩ := (hstep p).sound hq.1
    refine ⟨?_, u ++ w, hu.trans hw, hL _ _ _ ⟨u, w, rfl, hw.rest ▸ hLu, hu.prev ▸ hM⟩⟩
    have := hw.offset
    have := congrArg List.length hw.rest
    simp only [List.length_append] at this
    omega
  falls := by
    rintro n p q ⟨-, u, hu, -⟩ hq
    simp only [walkNext, Bool.false_eq_true, if_false, List.mem_filter, bne_iff_ne] at hq
    obtain ⟨w, hw, -⟩ := (hstep p).sound hq.1
    exact hu.remaining_lt hw hq.2
  stops := by
    rintro p o ⟨hn, u, hu, -⟩ ⟨k, h⟩
    rcases h.eq_or_exists hstep hu with rfl | ⟨q, hq, hne, -⟩
    · rfl
    · obtain ⟨w, hw, -⟩ := (hstep p).sound hq
      have := hw.offset
      have := congrArg List.length hw.rest
      simp only [List.length_append] at this
      omega
  splits := by
    rintro n p o ⟨-, u, hu, -⟩ ⟨k, h⟩
    refine (h.eq_or_exists hstep hu).imp id ?_
    rintro ⟨q, hq, hne, h⟩
    exact ⟨q, by simpa [walkNext] using ⟨hq, hne⟩, h⟩

theorem realizes_atMost (hstep : Realizes step M) (greedy : Bool) (n : Nat) :
    Realizes (atMost greedy step n) (M.timesIn (· ≤ n)) := by
  intro p
  let S := boundedSearch hstep p n
  obtain ⟨hgrows, hsettled⟩ := S.grows_repeatFrom greedy (h := n + 1) (w := ([], []))
    (⟨Nat.le_refl n, [], .refl p, by simp [Words.times, Words.one]⟩ : S.Node n p)
    (Nat.lt_succ_self n) (by simp [Search.SettledBelow])
  refine .distinct (.reverse ⟨fun hq => ?_, fun {w q} hw hM => ?_⟩)
  · rcases hgrows.found _ hq with hq | ⟨m, -, w, hw, htimes⟩
    · cases hq
    · exact ⟨w, hw, n - m, Nat.sub_le n m, htimes⟩
  · obtain ⟨k, hk, htimes⟩ := hM
    exact hsettled q.offset ⟨k, hk, p, q, [], w, .refl p, rfl, hw, rfl, htimes⟩

/-- Any number of words, and one more. -/
theorem timesIn_seq_subset (M : Words) {prev : Option Char} {w rest : List Char} {n : Nat}
    (h : (M.timesIn (n ≤ ·)).seq M prev w rest) : M.timesIn (n ≤ ·) prev w rest := by
  obtain ⟨u, v, rfl, ⟨k, hk, hu⟩, hv⟩ := h
  refine ⟨k + 1, Nat.le_succ_of_le hk, ?_⟩
  rw [Words.times_add, Words.times_one]
  exact ⟨u, v, rfl, hu, hv⟩

theorem realizes_anyTimes (hstep : Realizes step M) (greedy : Bool) :
    Realizes (anyTimes greedy step) (M.timesIn (0 ≤ ·)) := by
  intro p
  let S := unboundedSearch hstep p (M.timesIn (0 ≤ ·)) fun _ _ _ => timesIn_seq_subset M
  obtain ⟨hgrows, hsettled⟩ := S.grows_repeatFrom greedy (w := ([], []))
    (⟨Nat.le_refl _, [], .refl p, 0, Nat.le_refl 0, rfl⟩ : S.Node p.rest.length p)
    (Nat.lt_succ_self _) (by simp [Search.SettledBelow])
  refine .distinct (.reverse ⟨fun hq => ?_, fun {w q} hw hM => ?_⟩)
  · rcases hgrows.found _ hq with hq | ⟨m, -, w, hw, htimes⟩
    · cases hq
    · exact ⟨w, hw, htimes⟩
  · obtain ⟨k, -, htimes⟩ := hM
    exact hsettled q.offset ⟨k, p, q, [], w, .refl p, rfl, hw, rfl, htimes⟩

/-- The visit of a place `q` that a first step from `p` reached. -/
def firstVisit (greedy : Bool) (step : Place → List Place) (p : Place) (w : Walk) (q : Place) :
    Walk :=
  if q.offset != p.offset then repeatFrom greedy false step q.rest.length w q
  else if w.1.contains (0, q.offset) then w
  else ((0, q.offset) :: w.1, q :: w.2)

theorem atLeastOnce_eq (greedy : Bool) (step : Place → List Place) (ps : List Place) :
    atLeastOnce greedy step ps = Place.distinct
      (ps.foldl (fun w p => (step p).foldl (firstVisit greedy step p) w) ([], [])).2.reverse :=
  rfl

namespace Search

variable {S : Search false step}

/-- The state of a walk while the first steps from `p` are taken: `p` may have been marked
    without a visit of what lies beyond it, and nothing else. -/
structure AtFirst (S : Search false step) (p : Place) (w : Walk) : Prop where
  found   : ∀ q ∈ w.2, ∃ n, S.Node n q
  own     : (0, p.offset) ∈ w.1 → ∃ q ∈ w.2, q.offset = p.offset
  settled : ∀ key ∈ w.1, key = (0, p.offset) ∨ S.Settled w key

/-- A first step that takes a character is followed by a walk; one that takes none marks
    `p` itself. -/
theorem AtFirst.firstVisit {w : Walk} {q : Place}
    (hw : S.AtFirst p w) (greedy : Bool) (hq : S.Node q.rest.length q)
    (hlt : q.offset ≠ p.offset → S.height (0, q.offset) < S.height (0, p.offset)) :
    S.AtFirst p (firstVisit greedy step p w q) ∧
      (∀ r ∈ w.2, r ∈ (Regex.firstVisit greedy step p w q).2) ∧
      (if q.offset = p.offset then
        ∃ r ∈ (Regex.firstVisit greedy step p w q).2, r.offset = p.offset
      else S.Settled (Regex.firstVisit greedy step p w q) (0, q.offset)) := by
  unfold Regex.firstVisit
  by_cases ho : q.offset = p.offset
  · simp only [ho, bne_self_eq_false, Bool.false_eq_true, if_false, if_true,
      List.contains_eq_mem, decide_eq_true_eq]
    split
    · next hseen => exact ⟨hw, fun _ hr => hr, hw.own hseen⟩
    · refine ⟨⟨fun r hr => ?_, fun _ => ⟨q, List.mem_cons_self, ho⟩, fun k hk => ?_⟩,
        fun r hr => List.mem_cons_of_mem _ hr, q, List.mem_cons_self, ho⟩
      · rcases List.mem_cons.1 hr with rfl | hr
        · exact ⟨_, hq⟩
        · exact hw.found r hr
      · rcases List.mem_cons.1 hk with rfl | hk
        · exact .inl rfl
        · exact (hw.settled k hk).imp id (.mono fun r hr => List.mem_cons_of_mem _ hr)
  · rw [if_pos (by simpa using ho), if_neg ho]
    -- below `p`, everything that is marked is settled
    have hbelow : S.SettledBelow (S.height (0, p.offset)) w := by
      intro k hk hlt
      rcases hw.settled k hk with rfl | hk
      · exact absurd hlt (Nat.lt_irrefl _)
      · exact hk
    obtain ⟨hgrows, hsettled⟩ := S.grows_repeatFrom greedy hq (hlt ho) hbelow
    refine ⟨⟨fun r hr => ?_, fun hk => ?_, fun k hk => ?_⟩, hgrows.keeps, hsettled⟩
    · exact (hgrows.found r hr).elim (hw.found r) id
    · rcases hgrows.marked _ hk with hk | hk
      · obtain ⟨r, hr, hro⟩ := hw.own hk
        exact ⟨r, hgrows.keeps r hr, hro⟩
      · exact absurd hk (Nat.lt_irrefl _)
    · rcases hgrows.marked k hk with hkw | hlt
      · exact (hw.settled k hkw).imp id (.mono hgrows.keeps)
      · exact .inr (hgrows.settled k hk hlt)

/-- The state of a walk between the first steps from two places. -/
structure Between (S : Search false step) (w : Walk) : Prop where
  found   : ∀ q ∈ w.2, ∃ n, S.Node n q
  settled : ∀ key ∈ w.1, S.Settled w key

/-- After all first steps from `p`, everything beyond `p` was found. -/
theorem Between.foldl_firstVisit {w : Walk} (hw : S.Between w) (greedy : Bool)
    (hnode : ∀ q ∈ step p, S.Node q.rest.length q)
    (hfalls : ∀ q ∈ step p, q.offset ≠ p.offset →
      S.height (0, q.offset) < S.height (0, p.offset))
    (hself : S.Beyond (0, p.offset) p.offset)
    (hsplits : ∀ o, S.Beyond (0, p.offset) o →
      o = p.offset ∨ ∃ q ∈ step p, q.offset ≠ p.offset ∧ S.Beyond (0, q.offset) o) :
    S.Between ((step p).foldl (firstVisit greedy step p) w) ∧
      (∀ r ∈ w.2, r ∈ ((step p).foldl (firstVisit greedy step p) w).2) ∧
      ∀ q ∈ step p, S.Settled ((step p).foldl (firstVisit greedy step p) w) (0, q.offset) := by
  obtain ⟨hfirst, hkeeps, hgood⟩ := foldl_visits (v := firstVisit greedy step p)
    (I := S.AtFirst p)
    (G := fun w q => if q.offset = p.offset then ∃ r ∈ w.2, r.offset = p.offset
      else S.Settled w (0, q.offset))
    (fun {w w' q} hkeeps hG => by
      split_ifs at hG ⊢
      · exact hG.imp fun r hr => ⟨hkeeps r hr.1, hr.2⟩
      · exact hG.mono hkeeps)
    (fun w hw q hq => hw.firstVisit greedy (hnode q hq) (hfalls q hq))
    (⟨hw.found, fun hk => hw.settled _ hk _ hself, fun k hk => .inr (hw.settled k hk)⟩ :
      S.AtFirst p w)
  generalize (step p).foldl (firstVisit greedy step p) w = w' at *
  -- what lies beyond `p` is `p` itself, or lies beyond a place that was walked from
  have hown : (∃ r ∈ w'.2, r.offset = p.offset) → S.Settled w' (0, p.offset) := by
    intro hp o ho
    rcases hsplits o ho with rfl | ⟨q, hq, hne, hqo⟩
    · exact hp
    · have hG := hgood q hq
      rw [if_neg hne] at hG
      exact hG o hqo
  refine ⟨⟨hfirst.found, fun k hk => ?_⟩, hkeeps, fun q hq => ?_⟩
  · rcases hfirst.settled k hk with rfl | hk'
    · exact hown (hfirst.own hk)
    · exact hk'
  · have hG := hgood q hq
    split_ifs at hG with ho
    · exact ho ▸ hown hG
    · exact hG

end Search

theorem Collects.atLeastOnce {a : Place} (h : Collects a ps L) (hstep : Realizes step M)
    (greedy : Bool) :
    Collects a (atLeastOnce greedy step ps) (L.seq (M.timesIn (1 ≤ ·))) := by
  have hmore : ∀ prev w rest, (L.seq (M.timesIn (1 ≤ ·))).seq M prev w rest →
      L.seq (M.timesIn (1 ≤ ·)) prev w rest := by
    intro prev w rest hw
    rw [Words.seq_assoc] at hw
    obtain ⟨u, v, rfl, hu, hv⟩ := hw
    exact ⟨u, v, rfl, hu, timesIn_seq_subset M hv⟩
  let S := unboundedSearch hstep a (L.seq (M.timesIn (1 ≤ ·))) hmore
  have hnode : ∀ p ∈ ps, ∀ q ∈ step p, S.Node q.rest.length q := by
    intro p hp q hq
    obtain ⟨u, hu, hLu⟩ := h.sound hp
    obtain ⟨v, hv, hMv⟩ := (hstep p).sound hq
    refine ⟨Nat.le_refl _, u ++ v, hu.trans hv, u, v, rfl, hv.rest ▸ hLu, 1, Nat.le_refl 1, ?_⟩
    rw [Words.times_one]
    exact hu.prev ▸ hMv
  obtain ⟨hbetween, -, hsettled⟩ := foldl_visits (w := ([], [])) (l := ps)
    (v := fun w p => (step p).foldl (firstVisit greedy step p) w) (I := S.Between)
    (G := fun w p => ∀ q ∈ step p, S.Settled w (0, q.offset))
    (fun hkeeps hG q hq => (hG q hq).mono hkeeps)
    (fun w hw p hp => by
      obtain ⟨u, hu, -⟩ := h.sound hp
      refine hw.foldl_firstVisit greedy (hnode p hp) (fun q hq hne => ?_)
        ⟨0, p, p, u, [], hu, rfl, .refl p, rfl, rfl⟩ ?_
      · obtain ⟨v, hv, -⟩ := (hstep p).sound hq
        exact hu.remaining_lt hv hne
      · rintro o ⟨k, hk⟩
        exact hk.eq_or_exists hstep hu)
    ⟨by simp, by simp⟩
  rw [atLeastOnce_eq]
  refine .distinct (.reverse ⟨fun hq => ?_, fun {w q} hw hLM => ?_⟩)
  · obtain ⟨n, -, u, hu, hLu⟩ := hbetween.found _ hq
    exact ⟨u, hu, hLu⟩
  · obtain ⟨u, v, rfl, hLu, k, hk, hv⟩ := hLM
    have hu := Place.Leads.exists_of_rest (by simpa using hw.rest : a.rest = u ++ (v ++ q.rest))
    obtain ⟨p, hp, hpo⟩ := h.complete hu hLu
    obtain ⟨u', hu', -⟩ := h.sound hp
    obtain ⟨rfl, -, hprev⟩ := hu'.unique hu hpo
    obtain ⟨k, rfl⟩ : ∃ k', k = k' + 1 := ⟨k - 1, by omega⟩
    have hhops : Hops M a (k + 1) p.offset q.offset :=
      ⟨p, q, u', v, hu', rfl, hu'.of_append hw, rfl, hprev ▸ hv⟩
    obtain ⟨r, hr, hhops⟩ := hhops.of_succ hstep hu'
    exact hsettled p hp r hr q.offset ⟨k, hhops⟩

/-! ## Section 5: Expressions -/

theorem realizes_set (c : CharSet) : Realizes (Regex.set c).ends (Regex.set c).Matches := by
  intro p
  constructor
  · intro q hq
    simp only [ends] at hq
    split at hq
    · cases hq
    · next a rest hrest =>
      split at hq
      · next ha =>
        obtain rfl := List.mem_singleton.1 hq
        exact ⟨[a], ⟨rfl, hrest, rfl⟩, a, rfl, ha⟩
      · cases hq
  · rintro w q hw ⟨a, rfl, ha⟩
    refine ⟨p.advance a q.rest, ?_, by simpa [Place.advance] using hw.offset.symm⟩
    have hrest : p.rest = a :: q.rest := hw.rest
    simp [ends, hrest, ha]

theorem holds_congr {p q : Place} (hprev : p.prev = q.prev)
    (hrest : p.rest.head? = q.rest.head?) (l : Look) : l.holds p = l.holds q := by
  have hempty : p.rest.isEmpty = q.rest.isEmpty := by
    cases h : p.rest <;> cases h' : q.rest <;> simp_all
  cases l <;> simp only [Look.holds, hprev, hrest, hempty]

theorem realizes_look (l : Look) : Realizes (Regex.look l).ends (Regex.look l).Matches := by
  intro p
  constructor
  · intro q hq
    simp only [ends] at hq
    split at hq
    · next hl =>
      obtain rfl := List.mem_singleton.1 hq
      exact ⟨[], .refl q, rfl, (holds_congr rfl rfl l).trans hl⟩
    · cases hq
  · rintro w q hw ⟨rfl, hl⟩
    have hp : l.holds p = true := by
      rw [← hl]
      exact holds_congr (p := p) (q := ⟨0, _, _, _⟩) rfl (congrArg List.head? hw.rest) l
    exact ⟨p, by simp [ends, hp], by simpa using hw.offset.symm⟩

theorem mem_prefer {greedy : Bool} {more less : List Place} {q : Place} :
    q ∈ prefer greedy more less ↔ q ∈ more ∨ q ∈ less := by
  cases greedy <;> simp [prefer, or_comm]

/-- An unbounded repetition takes no word at all, or at least one. -/
theorem realizes_atLeastOnce_or (hstep : Realizes step M) (greedy : Bool) :
    Realizes (fun p => Place.distinct (prefer greedy (atLeastOnce greedy step [p]) [p]))
      (M.timesIn (0 ≤ ·)) := by
  intro p
  have hmore := (Collects.one (p := p)).atLeastOnce hstep greedy
  rw [Words.one_seq] at hmore
  refine Collects.distinct ⟨fun hq => ?_, fun {w q} hw hM => ?_⟩
  · have hq := mem_prefer.1 hq
    rcases hq with hq | hq
    · obtain ⟨w, hw, k, -, hk⟩ := hmore.sound hq
      exact ⟨w, hw, k, Nat.zero_le k, hk⟩
    · exact ⟨[], List.mem_singleton.1 hq ▸ .refl p, 0, Nat.le_refl 0, rfl⟩
  · obtain ⟨k, -, hk⟩ := hM
    cases k with
    | zero =>
      obtain ⟨q', hq', ho⟩ := Collects.one.complete hw hk
      exact ⟨q', mem_prefer.2 (.inr hq'), ho⟩
    | succ k =>
      obtain ⟨q', hq', ho⟩ := hmore.complete hw ⟨k + 1, Nat.le_add_left 1 k, hk⟩
      exact ⟨q', mem_prefer.2 (.inl hq'), ho⟩

/-- Up to a bound, the repetitions are those that are needed and some more. -/
theorem counts_some (n m : Nat) :
    (fun k => n ≤ k ∧ ∀ bound ∈ some m, k ≤ max n bound) =
      fun k => ∃ j, j ≤ m - n ∧ k = n + j := by
  funext k
  simp only [Option.mem_some, forall_eq', eq_iff_iff]
  constructor
  · intro hk
    exact ⟨k - n, by omega, by omega⟩
  · intro hk
    obtain ⟨j, hj, rfl⟩ := hk
    omega

theorem counts_none (n : Nat) :
    (fun k => n ≤ k ∧ ∀ bound ∈ (none : Option Nat), k ≤ max n bound) = (n ≤ ·) := by
  funext k
  simp

/-- The matcher finds the words of an expression, and nothing else: from every place, the
    places in `ends` are those to which a word of `r.Matches` leads. -/
theorem realizes_ends (r : Regex) : Realizes r.ends r.Matches := by
  induction r with
  | empty => exact fun p => .one
  | set c => exact realizes_set c
  | look l => exact realizes_look l
  | group i r ih =>
    intro p
    constructor
    · intro q hq
      obtain ⟨r, hr, rfl⟩ := List.mem_map.1 hq
      obtain ⟨w, hw, hr⟩ := (ih p).sound hr
      exact ⟨w, ⟨hw.offset, hw.rest, hw.prev⟩, hr⟩
    · intro w q hw hr
      obtain ⟨q', hq', ho⟩ := (ih p).complete hw hr
      exact ⟨_, List.mem_map_of_mem hq', ho⟩
  | seq r s ihr ihs => exact fun p => ((ihr p).flatMap ihs).distinct
  | alt r s ihr ihs => exact fun p => ((ihr p).append (ihs p)).distinct
  | rep greedy n m r ih =>
    intro p
    match n, m with
    | n, some m =>
      rw [Matches, counts_some, ← Words.times_seq_timesIn, ← Words.one_seq (r.Matches.times n)]
      exact ((Collects.one.exactly ih n).flatMap (realizes_atMost ih greedy (m - n))).distinct
    | 0, none =>
      rw [Matches, counts_none, ends]
      split
      · exact realizes_atLeastOnce_or ih greedy p
      · exact realizes_anyTimes ih greedy p
    | n + 1, none =>
      have hcounts : (n + 1 ≤ ·) = fun k => ∃ j, 1 ≤ j ∧ k = n + j := by
        funext k
        rw [eq_iff_iff]
        exact ⟨fun hk => ⟨k - n, by omega, by omega⟩, fun ⟨j, hj, hk⟩ => by omega⟩
      rw [Matches, counts_none, hcounts, ← Words.times_seq_timesIn,
        ← Words.one_seq (r.Matches.times n)]
      exact (Collects.one.exactly ih n).atLeastOnce ih greedy

/-! ## Section 6: How far a match looks ahead -/

end Regex

namespace Words

variable {L M : Words}

/-- Whether a word is in the set depends only on the first character behind it. -/
def LooksAtOne (L : Words) : Prop :=
  ∀ prev w rest rest', rest.head? = rest'.head? → L prev w rest → L prev w rest'

theorem LooksAtOne.one : LooksAtOne one := fun _ _ _ _ _ h => h

theorem LooksAtOne.seq (hL : L.LooksAtOne) (hM : M.LooksAtOne) : (L.seq M).LooksAtOne := by
  rintro prev _ rest rest' hrest ⟨u, v, rfl, hu, hv⟩
  exact ⟨u, v, rfl, hL _ _ _ _ (by simp [List.head?_append, hrest]) hu, hM _ _ _ _ hrest hv⟩

theorem LooksAtOne.times (hL : L.LooksAtOne) (n : Nat) : (L.times n).LooksAtOne := by
  induction n with
  | zero => exact .one
  | succ n ih => exact hL.seq ih

end Words

namespace Regex

theorem looksAtOne_matches (r : Regex) : r.Matches.LooksAtOne := by
  induction r with
  | empty => exact .one
  | set s => exact fun _ _ _ _ _ h => h
  | look l =>
    rintro prev w rest rest' hrest ⟨rfl, h⟩
    have hl := holds_congr (p := ⟨0, prev, rest, []⟩) (q := ⟨0, prev, rest', []⟩) rfl hrest l
    exact ⟨rfl, hl ▸ h⟩
  | group i r ih => exact ih
  | seq r s ihr ihs => exact ihr.seq ihs
  | alt r s ihr ihs =>
    exact fun _ _ _ _ hrest h => h.imp (ihr _ _ _ _ hrest) (ihs _ _ _ _ hrest)
  | rep greedy n m r ih =>
    rintro prev w rest rest' hrest ⟨k, hk, h⟩
    exact ⟨k, hk, ih.times k _ _ _ _ hrest h⟩

end Regex

end Marginalia
