import Marginalia.Proofs.Runs
import Marginalia.Proofs.Scanning
import Marginalia.Settings

/-! # The code of a document

    What programs see of a file is what is outside of its comments. Tags are comments, so
    tagging must not change it.

    * **`Document.code`**: the lines of a document without comments.
    * **`Padded`**: the same lines, with empty ones between them.
    * **`Document.Descends.padded_code`**: the code of a document that descends from
      another one is that of the other one, padded.
    * **`plain_of_grammarFor`**: the languages that are built in satisfy what that
      takes. -/

namespace Marginalia

open Text Region

/-! ## Section 1: Reading lines -/

namespace Grammar

/-- Reads lines from left to right, one after the other: what is outside of comments on
    each, and whether a comment is open at the end. -/
def scanLines (g : Grammar) : Bool → List (List Char) → List (List Char) × Bool
  | inside, []      => ([], inside)
  | inside, t :: ts =>
    let line := g.scan 0 inside t
    let rest := g.scanLines line.2 ts
    (line.1 :: rest.1, rest.2)

end Grammar

/-- The characters outside of comments, line by line. -/
def Document.code (g : Grammar) (d : Document) : List (List Char) :=
  (g.scanLines false d.texts).1

/-- Every comment of the document that is opened is closed. -/
def Document.ClosesComments (g : Grammar) (d : Document) : Prop :=
  (g.scanLines false d.texts).2 = false

instance (g : Grammar) (d : Document) : Decidable (d.ClosesComments g) :=
  inferInstanceAs (Decidable ((g.scanLines false d.texts).2 = false))

/-- The lines `us` are the lines `ts` and additional empty ones. -/
inductive Padded : List (List Char) → List (List Char) → Prop where
  | nil : Padded [] []
  | line {ts us : List (List Char)} (t : List Char) (rest : Padded ts us) :
      Padded (t :: ts) (t :: us)
  | empty {ts us : List (List Char)} (rest : Padded ts us) : Padded ts ([] :: us)

/-! ## Section 2: Reading tagged lines -/

namespace Grown

variable {g : Grammar} {b : Bool} {ls : List Line} {ns : List (Annotated g)}

/-- Reading the old lines ends as searching the new ones for openers does. -/
theorem scanLines_snd (h : Grown ls ns) (ha : ∀ l ∈ ls, g.Apart l.text) :
    (g.scanLines b (ls.map Line.text)).2 = g.openAfterAll b (ns.map Annotated.own) := by
  induction h generalizing b with
  | nil => rfl
  | kept own _ _ _ ih =>
    have hstep := Grammar.scan_snd_eq_openAfter (b := b) (ha _ List.mem_cons_self)
    rw [List.map_cons, List.map_cons, Grammar.openAfterAll_cons, own, ← hstep,
      ← ih fun l hl => ha l (List.mem_cons_of_mem _ hl)]
    rfl
  | added own _ ih =>
    rw [List.map_cons, Grammar.openAfterAll_cons, own, Grammar.openAfter_nil, ih ha]

/-- If all comments are closed in the end, a place that none crosses is outside of
    them. -/
theorem outside (h : Grown ls ns) (ha : ∀ l ∈ ls, g.Apart l.text)
    (hclosed : (g.scanLines b (ls.map Line.text)).2 = false)
    (hfree : crosses g b (ns.map Annotated.own) 0 = false) : b = false := by
  rw [h.scanLines_snd ha] at hclosed
  cases b with
  | false => rfl
  | true =>
    rw [crosses_zero, Bool.true_and] at hfree
    rw [Grammar.openAfterAll_true hfree] at hclosed
    exact hclosed

/-- Reading the new lines leaves what reading the old ones leaves, and empty lines. -/
theorem padded_scanLines (hg : g.Plain) (h : Grown ls ns) (ha : ∀ l ∈ ls, g.Apart l.text)
    (hexposed : Exposed g b ns) (hclosed : (g.scanLines b (ls.map Line.text)).2 = false) :
    Padded (g.scanLines b (ls.map Line.text)).1 (g.scanLines b (ns.map Annotated.text)).1 := by
  induction h generalizing b with
  | nil => exact .nil
  | @kept l n ls ns own ending plain rest ih =>
    have ha' := fun l' hl => ha l' (List.mem_cons_of_mem l hl)
    obtain ⟨hhead, htail⟩ := hexposed
    -- tags stand outside of comments, where nothing is left of them
    rw [own, ← Grammar.scan_snd_eq_openAfter (ha l List.mem_cons_self)] at hhead htail
    have hout : n.tags ≠ [] → (g.scan 0 b l.text).2 = false :=
      fun htags => rest.outside ha' hclosed (hhead htags)
    have hline : g.scan 0 b n.text = g.scan 0 b l.text := by
      unfold Annotated.text
      rw [own]
      exact Grammar.scan_append_renderAll hg n.names hout
    simp only [List.map_cons, Grammar.scanLines, hline]
    exact .line _ (ih ha' htail hclosed)
  | @added n ls ns own rest ih =>
    obtain ⟨hhead, htail⟩ := hexposed
    -- nothing but tags is on the line
    rw [own, Grammar.openAfter_nil] at hhead htail
    have hnil : g.scan 0 b [] = ([], b) := by
      cases b <;> rfl
    have hline : g.scan 0 b n.text = ([], b) := by
      unfold Annotated.text
      rw [own, ← hnil]
      apply Grammar.scan_append_renderAll hg n.names
      intro htags
      rw [hnil]
      exact rest.outside ha hclosed (hhead htags)
    simp only [List.map_cons, Grammar.scanLines, hline]
    exact .empty (ih ha htail hclosed)

end Grown

namespace Document

variable {g : Grammar} {d d₀ : Document}

/-- The code of a document that descends from another one is that of the other one, and
    empty lines. -/
theorem Descends.padded_code (hg : g.Plain) (h : d.Descends g d₀)
    (ha : ∀ t ∈ d₀.texts, g.Apart t) (hclosed : d₀.ClosesComments g) :
    Padded (d₀.code g) (d.code g) := by
  obtain ⟨ns, hns, hgrown, hexposed⟩ := h
  have htexts : d.texts = ns.map Annotated.text := by
    unfold Document.texts
    rw [hns, List.map_map]
    rfl
  have ha' : ∀ l ∈ d₀.lines, g.Apart l.text :=
    fun l hl => ha l.text (List.mem_map_of_mem hl)
  unfold Document.code
  rw [htexts]
  exact hgrown.padded_scanLines hg ha' hexposed hclosed

end Document

/-! ## Section 3: The languages that are built in -/

theorem Settings.exists_language_of_grammarFor {st : Settings} {name : Text} {g : Grammar}
    (h : st.grammarFor name = .ok g) :
    ∃ l, st.languages.get? name = some l ∧ Grammar.ofSpelling (st.spelling l) = .ok g := by
  unfold Settings.grammarFor at h
  split at h
  · exact absurd h (by simp)
  · next l hl =>
    refine ⟨l, hl, ?_⟩
    cases hs : Grammar.ofSpelling (st.spelling l) with
    | error fault =>
      rw [hs] at h
      exact absurd h (by simp [Except.mapError])
    | ok g' =>
      rw [hs] at h
      exact congrArg Except.ok (Except.ok.inj h)

/-- Tags are comments of their own in the languages that are built in. -/
theorem plain_of_grammarFor {name : Text} {g : Grammar}
    (h : Settings.standard.grammarFor name = .ok g) : g.Plain := by
  -- there are few of them, and they can be looked at one by one
  have hall : ∀ e ∈ Languages.builtin.entries, ∀ g ∈
      (Grammar.ofSpelling (Settings.standard.spelling e.2)).toOption, g.Plain := by
    decide
  obtain ⟨l, hl, hg⟩ := Settings.exists_language_of_grammarFor h
  obtain ⟨before, after, hentries, -⟩ := List.lookup_eq_some_iff.1 hl
  have hmem : (name, l) ∈ Settings.standard.languages.entries := by
    simp [hentries]
  exact hall (name, l) hmem g (by simp [hg, Except.toOption])

namespace Document

/-- Tagging never changes the code of a document in a language that is built in, apart
    from empty lines, if the document holds nothing like a tag, none of its delimiters
    overlap and all its comments are closed. -/
theorem padded_code_run {name : Text} {g : Grammar}
    (hg : Settings.standard.grammarFor name = .ok g) {d : Document}
    (hd : ∀ t ∈ d.texts, g.hasHead t = false) (ha : ∀ t ∈ d.texts, g.Apart t)
    (hclosed : d.ClosesComments g) (cs : List Call) :
    Padded (d.code g) ((d.run g cs).code g) := by
  have hplain := plain_of_grammarFor hg
  exact ((descends_self hd).run hplain.unmarked cs).padded_code hplain ha hclosed

theorem padded_code_run_lua :
    ∃ g, Settings.standard.grammarFor "lua".toList = .ok g ∧
      ∀ cs, Padded [['a'], ['b', ' '], [' ', 'c']]
        (((parse "a\nb --[[\n]] c\n".toList).run g cs).code g) := by
  have hg : Settings.standard.grammarFor "lua".toList = .ok _ := rfl
  refine ⟨_, hg, fun cs => ?_⟩
  exact padded_code_run (d := parse "a\nb --[[\n]] c\n".toList) hg (by decide) (by decide)
    (by decide) cs

end Document

end Marginalia
