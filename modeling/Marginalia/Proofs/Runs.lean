import Mathlib.Data.Fin.Tuple.Basic
import Mathlib.Order.Fin.Basic
import Marginalia.Proofs.Undo

/-! # Runs

    A document that is tagged and untagged in any order keeps its lines, and its tags
    stay outside of its comments:

    * **`Document.run`**: any number of operations, one after the other.
    * **`Grown`**: the old lines are all there, between lines that are empty.
    * **`Exposed`**: no comment is open behind a tag that closes later.
    * **`Document.Descends`**: both, which every operation preserves.
    * **`Line.StandAmong`**: what growing means for the lines as they can be read. -/

namespace Marginalia

open Text Region

/-! ## Section 1: Operations -/

/-- An operation on the tags of a document. -/
inductive Call where
  | add (request : Request)
  | remove (identifier : List Char)
  | clear
deriving DecidableEq, Repr

namespace Document

/-- The document after an operation. If that fails, it stays as it is. -/
def call (g : Grammar) (d : Document) : Call → Document
  | .add r =>
    match d.addTags g r.identifier r.start r.stop with
    | .error _    => d
    | .ok (d', _) => d'
  | .remove identifier => (d.removeTags g identifier).1
  | .clear => (d.clear g).1

/-- The document after some operations. -/
def run (g : Grammar) (d : Document) (cs : List Call) : Document :=
  cs.foldl (call g) d

@[simp] theorem run_nil (g : Grammar) (d : Document) : d.run g [] = d := rfl

@[simp] theorem run_cons (g : Grammar) (d : Document) (c : Call) (cs : List Call) :
    d.run g (c :: cs) = (d.call g c).run g cs := rfl

end Document

/-! ## Section 2: What happens to the lines -/

/-- The lines are the old ones with some tags, and others that are empty apart from
    theirs. Only a tag on one of the others asks to remove its line. -/
inductive Grown {g : Grammar} : List Line → List (Annotated g) → Prop where
  | nil : Grown [] []
  | kept {l : Line} {n : Annotated g} {ls : List Line} {ns : List (Annotated g)}
      (own : n.own = l.text) (ending : n.ending = l.ending)
      (plain : ∀ t ∈ n.tags, t.cleanup = false) (rest : Grown ls ns) : Grown (l :: ls) (n :: ns)
  | added {n : Annotated g} {ls : List Line} {ns : List (Annotated g)} (own : n.own = [])
      (rest : Grown ls ns) : Grown ls (n :: ns)

namespace Grown

variable {g : Grammar} {ls : List Line} {ns ms : List (Annotated g)}

theorem modify (h : Grown ls ns) {t : Tag} (ht : g.identifierFault? t.identifier = none)
    (hplain : t.cleanup = false) (j : Nat) :
    Grown ls (ns.modify j fun n => n.annotate t ht) := by
  induction h generalizing j with
  | nil =>
    rw [List.modify_nil]
    exact .nil
  | kept own ending plain rest ih =>
    cases j with
    | zero =>
      refine .kept own ending ?_ rest
      intro u hu
      rcases List.mem_append.1 hu with hu | hu
      · exact plain u hu
      · rw [List.mem_singleton.1 hu]
        exact hplain
    | succ j => exact .kept own ending plain (ih j)
  | added own rest ih =>
    cases j with
    | zero => exact .added own rest
    | succ j => exact .added own (ih j)

theorem insertIdx (h : Grown ls ns) {m : Annotated g} (hm : m.own = []) (k : Nat) :
    Grown ls (ns.insertIdx k m) := by
  induction h generalizing k with
  | nil =>
    cases k with
    | zero => exact .added hm .nil
    | succ k => exact .nil
  | kept own ending plain rest ih =>
    cases k with
    | zero => exact .added hm (.kept own ending plain rest)
    | succ k => exact .kept own ending plain (ih k)
  | added own rest ih =>
    cases k with
    | zero => exact .added hm (.added own rest)
    | succ k => exact .added own (ih k)

theorem edited (h : Grown ls ns) {allowed : Tag → Prop} {tags blanks : Nat}
    (hedited : Edited allowed ns tags blanks ms) : Grown ls ms := by
  induction hedited with
  | refl => exact h
  | tag _ named _ plain _ _ ih => exact ih.modify named plain _
  | line _ _ _ _ _ _ _ ih => exact ih.insertIdx rfl _

/-- An old line never goes, because none of its tags asks for that. -/
theorem shed (h : Grown ls ns) (hshed : Shed ns ms) : Grown ls ms := by
  induction h generalizing ms with
  | nil =>
    cases hshed
    exact .nil
  | kept own ending plain _ ih =>
    cases hshed with
    | kept hown hending htags hrest =>
      exact .kept (hown.trans own) (hending.trans ending)
        (fun t ht => plain t (htags.subset ht)) (ih hrest)
    | dropped _ cleanup _ =>
      -- no tag of an old line asks for that
      obtain ⟨t, ht, hcleanup⟩ := cleanup
      rw [plain t ht] at hcleanup
      exact absurd hcleanup (by decide)
  | added own _ ih =>
    cases hshed with
    | kept hown _ _ hrest => exact .added (hown.trans own) (ih hrest)
    | dropped _ _ hrest => exact ih hrest

end Grown

/-! ## Section 3: What happens to the tags -/

/-- No comment that closes later is open at the end of a line with tags. -/
def Exposed (g : Grammar) : Bool → List (Annotated g) → Prop
  | _, [] => True
  | before, n :: ns =>
    (n.tags ≠ [] → crosses g (g.openAfter before n.own) (ns.map Annotated.own) 0 = false) ∧
      Exposed g (g.openAfter before n.own) ns

namespace Exposed

variable {g : Grammar} {before : Bool} {ns ms : List (Annotated g)}

theorem crosses_eq_false (h : Exposed g before ns) {i : Nat} {n : Annotated g}
    (hn : ns[i]? = some n) (htags : n.tags ≠ []) :
    crosses g before (ns.map Annotated.own) (i + 1) = false := by
  induction ns generalizing before i with
  | nil => simp at hn
  | cons m ns ih =>
    rw [List.map_cons, crosses_cons_succ]
    cases i with
    | zero =>
      obtain rfl : m = n := by simpa using hn
      exact h.1 htags
    | succ i => exact ih h.2 (by simpa using hn)

theorem of_no_tags (h : ns.flatMap Annotated.tags = []) : Exposed g before ns := by
  induction ns generalizing before with
  | nil => trivial
  | cons n ns ih =>
    rw [List.flatMap_cons, List.append_eq_nil_iff] at h
    exact ⟨fun htags => absurd h.1 htags, ih h.2⟩

theorem modify (h : Exposed g before ns) {t : Tag} (ht : g.identifierFault? t.identifier = none)
    {j : Nat} (hfree : crosses g before (ns.map Annotated.own) (j + 1) = false) :
    Exposed g before (ns.modify j fun n => n.annotate t ht) := by
  induction ns generalizing before j with
  | nil =>
    rw [List.modify_nil]
    trivial
  | cons n ns ih =>
    rw [List.map_cons, crosses_cons_succ] at hfree
    cases j with
    | zero => exact ⟨fun _ => hfree, h.2⟩
    | succ j =>
      -- the lines below say the same without their tags
      rw [List.modify_succ_cons]
      refine ⟨?_, ih h.2 hfree⟩
      rw [Annotated.map_own_modify]
      exact h.1

theorem insertIdx (h : Exposed g before ns) {m : Annotated g} (hm : m.own = []) {k : Nat}
    (hfree : crosses g before (ns.map Annotated.own) k = false) :
    Exposed g before (ns.insertIdx k m) := by
  induction ns generalizing before k with
  | nil =>
    cases k with
    | zero =>
      refine ⟨fun _ => ?_, trivial⟩
      rw [hm, Grammar.openAfter_nil]
      exact hfree
    | succ k => trivial
  | cons n ns ih =>
    cases k with
    | zero =>
      refine ⟨fun _ => ?_, ?_⟩
      · rw [hm, Grammar.openAfter_nil]
        exact hfree
      · rw [hm, Grammar.openAfter_nil]
        exact h
    | succ k =>
      rw [List.map_cons, crosses_cons_succ] at hfree
      rw [List.insertIdx_succ_cons]
      refine ⟨?_, ih h.2 hfree⟩
      rw [Annotated.map_own_insertIdx ns k hm, crosses_insertIdx_of_le _ (Nat.zero_le k)]
      exact h.1

theorem edited (h : Exposed g false ns) {allowed : Tag → Prop} {tags blanks : Nat}
    (hedited : Edited allowed ns tags blanks ms) : Exposed g false ms := by
  induction hedited with
  | refl => exact h
  | tag _ named _ _ _ free ih => exact ih.modify named free
  | line _ _ _ _ _ _ free ih => exact ih.insertIdx rfl free

/-- The lines that go close no comment. -/
theorem any_closer_of_shed (h : Shed ns ms) :
    (ms.map Annotated.own).any (occursIn g.closer) =
      (ns.map Annotated.own).any (occursIn g.closer) := by
  induction h with
  | nil => rfl
  | kept own _ _ _ ih =>
    rw [List.map_cons, List.map_cons, List.any_cons, List.any_cons, own, ih]
  | dropped blank _ _ ih =>
    rw [List.map_cons, List.any_cons, Grammar.not_occursIn_closer_of_allBlank blank,
      Bool.false_or, ih]

theorem shed (h : Exposed g before ns) (hshed : Shed ns ms) : Exposed g before ms := by
  induction hshed generalizing before with
  | nil => trivial
  | kept own _ tags rest ih =>
    obtain ⟨hhead, htail⟩ := h
    refine ⟨?_, ?_⟩
    · -- a line that has tags had some before
      intro hne
      rw [own, crosses_zero, any_closer_of_shed rest, ← crosses_zero]
      apply hhead
      intro hnil
      rw [hnil] at tags
      exact hne (List.sublist_nil.1 tags)
    · rw [own]
      exact ih htail
  | dropped blank _ _ ih =>
    -- a blank line leaves the state of the walk as it is
    have htail := h.2
    rw [Grammar.openAfter_of_allBlank before blank] at htail
    exact ih htail

end Exposed

/-! ## Section 4: What every run preserves -/

namespace Document

variable {g : Grammar} {d d₀ : Document}

/-- The lines of the document are those of `d₀` and empty ones, with tags outside of the
    comments. -/
def Descends (g : Grammar) (d d₀ : Document) : Prop :=
  ∃ ns : List (Annotated g), d.Shows ns ∧ Grown d₀.lines ns ∧ Exposed g false ns

/-- A document without anything like a tag descends from itself. -/
theorem descends_self (hd : ∀ t ∈ d.texts, g.hasHead t = false) : d.Descends g d := by
  obtain ⟨ns, hns, hnone⟩ := exists_shows_of_headless hd
  refine ⟨ns, hns, ?_, Exposed.of_no_tags hnone⟩
  rw [hns]
  clear hns
  induction ns with
  | nil => exact .nil
  | cons n ns ih =>
    rw [List.flatMap_cons, List.append_eq_nil_iff] at hnone
    refine .kept ?_ rfl ?_ (ih hnone.2)
    · simp [Annotated.text, hnone.1]
    · simp [hnone.1]

theorem Descends.remove {sel : Selector} (hsel : sel.TakesWhole g) (h : d.Descends g d₀) :
    (d.remove g sel).1.Descends g d₀ := by
  obtain ⟨ns, hns, hgrown, hexposed⟩ := h
  obtain ⟨ms, hms, hshed⟩ := exists_shed_of_remove hsel hns
  exact ⟨ms, hms, hgrown.shed hshed, hexposed.shed hshed⟩

/-- Every operation, whether it succeeds or not, preserves the descent. -/
theorem Descends.call (hg : g.Unmarked) (h : d.Descends g d₀) (c : Call) :
    (d.call g c).Descends g d₀ := by
  cases c with
  | add r =>
    unfold Document.call
    simp only
    split
    · exact h
    · next d' p hadd =>
      obtain ⟨ns, hns, hgrown, hexposed⟩ := h
      obtain ⟨ms, rfl, hedited⟩ := addTags_edited hg hns hadd
      exact ⟨ms, shows_withLines d ms, hgrown.edited hedited, hexposed.edited hedited⟩
  | remove identifier => exact h.remove (Selector.takesWhole_exactly hg identifier)
  | clear => exact h.remove (Selector.takesWhole_any hg)

theorem Descends.run (hg : g.Unmarked) (h : d.Descends g d₀) (cs : List Call) :
    (d.run g cs).Descends g d₀ := by
  induction cs generalizing d with
  | nil => exact h
  | cons c cs ih =>
    rw [run_cons]
    exact ih (h.call hg c)

/-- In every state that is reached, no tag is inside of a comment: the comment around its
    line, if there is one, closes there. -/
theorem enclosing_of_mem_occurrences_run (hg : g.Unmarked)
    (hd : ∀ t ∈ d.texts, g.hasHead t = false) (cs : List Call) {o : Occurrence}
    (ho : o ∈ (d.run g cs).occurrences g) :
    ∃ i, o.line = i + 1 ∧ ((d.run g cs).enclosing g i = none ∨
      ∃ r, (d.run g cs).enclosing g i = some r ∧ r.closesAt = i) := by
  obtain ⟨ns, hns, -, hexposed⟩ := (descends_self hd).run hg cs
  obtain ⟨i, n, hline, hn, htag⟩ := hns.mem_occurrences hg ho
  refine ⟨i, hline, ?_⟩
  have hfree := hexposed.crosses_eq_false hn (List.ne_nil_of_mem htag)
  unfold Document.enclosing
  rw [hns.untagged hg]
  cases hr : Region.enclosing g (ns.map Annotated.own) i with
  | none => exact .inl rfl
  | some r => exact .inr ⟨r, rfl, closesAt_eq_of_crosses_eq_false hfree hr⟩

/-- The end tag of a comment over two lines stands on the line that closes it. -/
theorem enclosing_of_mem_occurrences_run_closing_line :
    let d := (parse "a\n/* b\nc */\n".toList).run .standard [.add ⟨['x'], 2, 3⟩]
    ∃ i, 4 = i + 1 ∧ (d.enclosing .standard i = none ∨
      ∃ r, d.enclosing .standard i = some r ∧ r.closesAt = i) :=
  enclosing_of_mem_occurrences_run (g := .standard) (d := parse "a\n/* b\nc */\n".toList)
    (o := ⟨⟨['x'], .finish, false⟩, 4⟩) (by decide) (by decide) [.add ⟨['x'], 2, 3⟩] (by decide)

end Document

/-! ## Section 5: The lines as they can be read -/

/-- The lines `ls` stand among the lines `ms`, in the same order and unchanged apart from
    tags. All other lines among `ms` are empty apart from tags. -/
def Line.StandAmong (g : Grammar) (ls ms : List Line) : Prop :=
  ∃ f : Fin ls.length → Fin ms.length, StrictMono f ∧
    (∀ i, g.untagged ms[f i].text = ls[i].text ∧ ms[f i].ending = ls[i].ending) ∧
    ∀ j, j ∉ Set.range f → g.untagged ms[j].text = []

/-- Lines that have grown hold the old ones. -/
theorem Grown.standAmong {g : Grammar} (hg : g.Unmarked) {ls : List Line}
    {ns : List (Annotated g)} (h : Grown ls ns) : Line.StandAmong g ls (ns.map Annotated.line) := by
  induction h with
  | nil => exact ⟨Fin.elim0, fun i => i.elim0, fun i => i.elim0, fun j => j.elim0⟩
  | @kept l n ls ns own ending plain rest ih =>
    -- the first line goes to the first line, and the others as before
    obtain ⟨f, hmono, himage, hother⟩ := ih
    have hpos : 0 < ((n :: ns).map Annotated.line).length := by simp
    refine ⟨Fin.cons ⟨0, hpos⟩ fun i => (f i).succ, ?_, ?_, ?_⟩
    · intro i j hij
      cases j using Fin.cases with
      | zero => exact absurd hij (Fin.not_lt_zero i)
      | succ j =>
        cases i using Fin.cases with
        | zero => exact Fin.succ_pos (f j)
        | succ i => exact Fin.succ_lt_succ_iff.2 (hmono (Fin.succ_lt_succ_iff.1 hij))
    · intro i
      cases i using Fin.cases with
      | zero => exact ⟨(n.untagged_text hg).trans own, ending⟩
      | succ i => exact himage i
    · intro j hj
      cases j using Fin.cases with
      | zero => exact absurd ⟨0, rfl⟩ hj
      | succ j =>
        apply hother j
        rintro ⟨i, rfl⟩
        exact hj ⟨i.succ, rfl⟩
  | @added n ls ns own rest ih =>
    -- the first line is new, and all images move down
    obtain ⟨f, hmono, himage, hother⟩ := ih
    refine ⟨fun i => (f i).succ, ?_, himage, ?_⟩
    · intro i j hij
      exact Fin.succ_lt_succ_iff.2 (hmono hij)
    · intro j hj
      cases j using Fin.cases with
      | zero => exact (n.untagged_text hg).trans own
      | succ j =>
        apply hother j
        rintro ⟨i, rfl⟩
        exact hj ⟨i, rfl⟩

namespace Document

variable {g : Grammar} {d d₀ : Document}

theorem Descends.standAmong (hg : g.Unmarked) (h : d.Descends g d₀) :
    Line.StandAmong g d₀.lines d.lines := by
  obtain ⟨ns, hns, hgrown, -⟩ := h
  rw [hns]
  exact hgrown.standAmong hg

/-- In every state that is reached, the lines of the document are still there, with their
    own text and terminator. -/
theorem standAmong_run (hg : g.Unmarked) (hd : ∀ t ∈ d.texts, g.hasHead t = false)
    (cs : List Call) : Line.StandAmong g d.lines (d.run g cs).lines :=
  ((descends_self hd).run hg cs).standAmong hg

/-- One empty line is old and carries a tag, the other one is new and outlives its own tag
    because it carries another one, and is left behind in the end. -/
theorem standAmong_run_two_blank_lines :
    let d := parse "\nf\n/* a\n*/\n".toList
    let cs := [.add ⟨['x'], 3, 4⟩, .add ⟨['y'], 3, 3⟩, .add ⟨['z'], 1, 1⟩, .remove ['x'],
      .remove ['y']]
    (d.run .standard cs).length = 5 ∧
      Line.StandAmong .standard d.lines (d.run .standard cs).lines := by
  intro d cs
  exact ⟨by decide, standAmong_run (g := .standard) (by decide) (by decide) cs⟩

end Document

end Marginalia
