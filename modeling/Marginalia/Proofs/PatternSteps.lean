import Marginalia.Proofs.ReadingBrackets

/-! # Commands of patterns

    A reader of patterns takes one command after the other from the text, and obeys it:

    * **`Command`**: what one step of the reader does, apart from moving ahead.
    * **`command?`**, **`obey?`**: reading a command, and obeying it.
    * **`step?_eq`**: a step is nothing else.
    * **`frames_command?`**: a command is the same with a text behind the pattern. -/

namespace Marginalia.Regex

open Text

namespace Reader

/-! ## Section 1: Commands -/

/-- What a step of the reader does, apart from moving ahead in the text. -/
inductive Command where
  /-- Adds a set. -/
  | set (chars : CharSet) (depth weight : Nat)
  /-- Adds a condition. -/
  | look (l : Look)
  /-- Repeats the last part. -/
  | rep (greedy : Bool) (min : Nat) (max : Option Nat)
  /-- Begins another branch. -/
  | branch
  /-- Opens a group that is not remembered. -/
  | openPlain (inner : Modes)
  /-- Opens a group that is remembered. -/
  | openNumbered
  /-- Opens a group with a name. -/
  | openNamed (name : List Char)
  /-- Switches modes. -/
  | switch (m : Modes)
  /-- Closes the innermost group. -/
  | close

/-- The character stands for itself. -/
def Command.char (m : Modes) (c : Char) : Command :=
  .set (m.fold (CharSet.single c)) 0 c.utf8Size

/-- Obeys a command, with `rest` left to read. -/
def obey? (st : Reader) (rest : List Char) : Command → Option Reader
  | .set chars depth weight => some (st.push ⟨some (.set chars), depth, weight⟩ rest)
  | .look l => some (st.push (.leaf (.look l) 1) rest)
  | .rep greedy min max => st.repeatLast? greedy min max rest
  | .branch =>
    some { st with parts := [], branches := Part.sequence st.parts :: st.branches, rest }
  | .openPlain inner => some (st.openGroup none inner rest)
  | .openNumbered => some (st.openNumbered rest)
  | .openNamed name =>
    if (st.names.lookup name).isSome then none
    else some ({ st with names := (name, st.groups + 1) :: st.names }.openNumbered rest)
  | .switch m => some { st with modes := m, parts := Part.flags :: st.parts, rest }
  | .close => st.close? rest

/-- Reads what inline flags or a group without a number begin with. -/
def flagsCommand? (m : Modes) (s : List Char) : Option (Command × List Char) :=
  match flags? m [] true false s with
  | some (inner, given, ending, rest) =>
    if ending = ':' then some (.openPlain inner, rest)
    else if given then some (.switch inner, rest)
    else none
  | none => none

/-- Reads the name of a group. -/
def nameCommand? (s : List Char) : Option (Command × List Char) :=
  (name? s).map fun (name, rest) => (.openNamed name, rest)

/-- Reads what follows an opening parenthesis and blanks. -/
def groupStart? (m : Modes) : List Char → Option (Command × List Char)
  | '?' :: 'P' :: '<' :: s => nameCommand? s
  | '?' :: '<' :: '=' :: _ => none
  | '?' :: '<' :: '!' :: _ => none
  | '?' :: '<' :: s => nameCommand? s
  | '?' :: s => flagsCommand? m s
  | s => some (.openNumbered, s)

/-- What an escape adds. -/
def escapeCommand? (m : Modes) : Escape → Option Command
  | .literal c byte =>
    if byte && !m.unicode && 0x80 ≤ c.toNat then none else some (.char m c)
  | .set chars weight => if m.permits chars then some (.set chars 0 weight) else none
  | .look l => some (.look l)

/-- Reads the next command. -/
def command? (m : Modes) : List Char → Option (Command × List Char)
  | [] => none
  | c :: s =>
    match c with
    | '('  => groupStart? m (m.skipBlank s)
    | ')'  => some (.close, s)
    | '|'  => some (.branch, s)
    | '['  => (bracket? m s).map fun (chars, weight, rest) => (.set chars 1 weight, rest)
    | '?'  => some (.rep (greed s).1 0 (some 1), (greed s).2)
    | '*'  => some (.rep (greed s).1 0 none, (greed s).2)
    | '+'  => some (.rep (greed s).1 1 none, (greed s).2)
    | '\x7b' => (counts? m s).map fun ((greedy, min, max), rest) => (.rep greedy min max, rest)
    | '\\' => (escape? m s).bind fun (e, rest) => (escapeCommand? m e).map fun c => (c, rest)
    | '.'  => if m.permits m.dot then some (.set m.dot 0 12, s) else none
    | '^'  => some (.look (lineEdge m true), s)
    | '$'  => some (.look (lineEdge m false), s)
    | c    => some (.char m c, s)

theorem openNamed?_eq (st : Reader) (s : List Char) :
    st.openNamed? s = (nameCommand? s).bind fun (c, rest) => st.obey? rest c := by
  simp only [openNamed?, nameCommand?, Option.bind_eq_bind, Option.map_eq_bind, Option.bind_assoc]
  rfl

theorem parenthesis?_eq (st : Reader) (s : List Char) :
    st.parenthesis? s =
      (groupStart? st.modes (st.modes.skipBlank s)).bind fun (c, rest) => st.obey? rest c := by
  unfold parenthesis?
  generalize st.modes.skipBlank s = u
  -- both match on the same beginnings, so the cases of one are those of the other
  split
  · exact openNamed?_eq st _
  · rfl
  · rfl
  · next hequal hbang =>
    rw [groupStart?]
    · exact openNamed?_eq st _
    · exact hequal
    · exact hbang
  · next v hlabel hequal hbang hname =>
    rw [groupStart?]
    · unfold flagsCommand?
      cases flags? st.modes [] true false v with
      | none => rfl
      | some found =>
        simp only
        split_ifs <;> rfl
    · exact hlabel
    · exact hequal
    · exact hbang
    · exact hname
  · next hlabel hequal hbang hname hflags =>
    rw [groupStart?]
    · rfl
    · exact hlabel
    · exact hequal
    · exact hbang
    · exact hname
    · exact hflags

/-- A step reads a command and obeys it. -/
theorem step?_eq (st : Reader) :
    st.step? = (command? st.modes st.rest).bind fun (c, rest) => st.obey? rest c := by
  unfold step?
  generalize st.rest = u
  cases u with
  | nil => rfl
  | cons c s =>
    simp only
    -- the cases are the characters that a command begins with, in the order of `command?`
    split
    · exact parenthesis?_eq st s
    · rfl
    · rfl
    · -- a set in brackets
      rw [command?]
      cases bracket? st.modes s <;> rfl
    · rfl
    · rfl
    · rfl
    · -- a repetition with bounds
      rw [counted?_eq, command?]
      cases counts? st.modes s <;> rfl
    · -- an escape
      rw [command?]
      cases escape? st.modes s with
      | none => rfl
      | some found =>
        obtain ⟨e, rest⟩ := found
        cases e with
        | literal c byte =>
          simp only [Option.bind_some, escapeCommand?]
          split <;> rfl
        | set chars weight =>
          simp only [Option.bind_some, escapeCommand?, pushSet?]
          split <;> rfl
        | look l => rfl
    · rw [command?]
      simp only [pushSet?]
      split <;> rfl
    · rfl
    · rfl
    · -- any other character stands for itself
      rw [command?]
      · rfl
      all_goals assumption

/-! ## Section 2: Commands with a text behind them -/

variable {t s s' : List Char}

theorem frames_nameCommand? (s t : List Char) :
    Frames t (nameCommand? s) (nameCommand? (s ++ t)) := by
  intro c rest h
  obtain ⟨⟨name, rest⟩, hname, h⟩ := Option.map_eq_some_iff.1 h
  obtain ⟨rfl, rfl⟩ := Prod.mk.inj h
  exact ⟨_, congrArg (Option.map _) (name?_append hname t), .append t rest⟩

theorem frames_flagsCommand? (m : Modes) (s t : List Char) :
    Frames t (flagsCommand? m s) (flagsCommand? m (s ++ t)) := by
  intro c rest h
  unfold flagsCommand? at h ⊢
  cases hflags : flags? m [] true false s with
  | none => simp [hflags] at h
  | some found =>
    obtain ⟨inner, given, ending, u⟩ := found
    rw [flags?_append hflags t]
    rw [hflags] at h
    simp only at h ⊢
    split_ifs at h ⊢
    all_goals
      obtain ⟨rfl, rfl⟩ := Prod.mk.inj (Option.some.inj h)
      exact ⟨_, rfl, .append t _⟩

theorem groupStart?_name (m : Modes) {e : Char} (hequal : e ≠ '=') (hbang : e ≠ '!')
    (s : List Char) : groupStart? m ('?' :: '<' :: e :: s) = nameCommand? (e :: s) := by
  unfold groupStart?
  split
  · next heq => exact absurd (List.cons.inj (List.cons.inj heq).2).1 (by decide)
  · next heq => exact absurd (List.cons.inj (List.cons.inj (List.cons.inj heq).2).2).1 hequal
  · next heq => exact absurd (List.cons.inj (List.cons.inj (List.cons.inj heq).2).2).1 hbang
  · next heq =>
    obtain rfl := (List.cons.inj (List.cons.inj heq).2).2
    rfl
  · next hname heq => exact absurd (List.cons.inj heq).2.symm (hname _)
  · next hne => exact absurd rfl (hne _)

theorem groupStart?_flags (m : Modes) {d : Char} (hlabel : d ≠ 'P') (hname : d ≠ '<')
    (s : List Char) : groupStart? m ('?' :: d :: s) = flagsCommand? m (d :: s) := by
  unfold groupStart?
  split
  · next heq => exact absurd (List.cons.inj (List.cons.inj heq).2).1 hlabel
  · next heq => exact absurd (List.cons.inj (List.cons.inj heq).2).1 hname
  · next heq => exact absurd (List.cons.inj (List.cons.inj heq).2).1 hname
  · next heq => exact absurd (List.cons.inj (List.cons.inj heq).2).1 hname
  · next heq => rw [(List.cons.inj heq).2]
  · next hne => exact absurd rfl (hne _)

theorem groupStart?_number (m : Modes) {c : Char} (hc : c ≠ '?') (s : List Char) :
    groupStart? m (c :: s) = some (.openNumbered, c :: s) := by
  unfold groupStart?
  split
  · next heq => exact absurd (List.cons.inj heq).1 hc
  · next heq => exact absurd (List.cons.inj heq).1 hc
  · next heq => exact absurd (List.cons.inj heq).1 hc
  · next heq => exact absurd (List.cons.inj heq).1 hc
  · next heq => exact absurd (List.cons.inj heq).1 hc
  · rfl

/-- The letter of a label is no flag. -/
theorem groupStart?_label (m : Modes) {e : Char} (he : e ≠ '<') (s : List Char) :
    groupStart? m ('?' :: 'P' :: e :: s) = none := by
  unfold groupStart?
  split
  · next heq => exact absurd (List.cons.inj (List.cons.inj (List.cons.inj heq).2).2).1 he
  · next heq => exact absurd (List.cons.inj (List.cons.inj heq).2).1 (by decide)
  · next heq => exact absurd (List.cons.inj (List.cons.inj heq).2).1 (by decide)
  · next heq => exact absurd (List.cons.inj (List.cons.inj heq).2).1 (by decide)
  · next heq =>
    rw [← (List.cons.inj heq).2]
    rfl
  · next hne => exact absurd rfl (hne _)

theorem frames_groupStart? (ht : Closes t) (m : Modes) (h : Onto t s s') :
    Frames t (groupStart? m s) (groupStart? m s') := by
  -- what the group is shows in no more than three characters, which are not those of `t`
  cases s with
  | nil =>
    rcases h.of_nil ht with rfl | ⟨v, rfl⟩
    · exact .some _ h
    · exact .some _ h
  | cons c s =>
    obtain rfl := h.cons
    by_cases hc : c = '?'
    · subst hc
      cases s with
      | nil => exact .none _
      | cons d s =>
        by_cases hlabel : d = 'P'
        · subst hlabel
          cases s with
          | nil => exact .none _
          | cons e s =>
            by_cases hname : e = '<'
            · subst hname
              exact frames_nameCommand? s t
            · rw [groupStart?_label m hname]
              exact .none _
        · by_cases hname : d = '<'
          · subst hname
            cases s with
            | nil => exact .none _
            | cons e s =>
              by_cases hequal : e = '='
              · subst hequal
                exact .none _
              · by_cases hbang : e = '!'
                · subst hbang
                  exact .none _
                · rw [List.cons_append, List.cons_append, groupStart?_name m hequal hbang,
                    groupStart?_name m hequal hbang]
                  exact frames_nameCommand? (e :: s) t
          · rw [List.cons_append, groupStart?_flags m hlabel hname,
              groupStart?_flags m hlabel hname]
            exact frames_flagsCommand? m (d :: s) t
    · rw [groupStart?_number m hc, groupStart?_number m hc]
      exact .some _ h

theorem frames_command? (ht : Closes t) (m : Modes) (h : Onto t s s') :
    Frames t (command? m s) (command? m s') := by
  cases s with
  | nil => exact .none _
  | cons c s =>
    obtain rfl := h.cons
    have honto := Onto.append t s
    obtain ⟨hgreed, hrest⟩ := greed_onto ht honto
    unfold command?
    simp only
    split
    · exact frames_groupStart? ht m (skipBlank_onto ht m s)
    · exact .some _ honto
    · exact .some _ honto
    · -- a set in brackets is closed before `t` begins
      intro x rest hx
      obtain ⟨⟨chars, weight, rest⟩, hbracket, hx⟩ := Option.map_eq_some_iff.1 hx
      obtain ⟨rfl, rfl⟩ := Prod.mk.inj hx
      exact ⟨_, congrArg (Option.map _) (bracket?_append ht hbracket), .append t _⟩
    · rw [hgreed]
      exact .some _ hrest
    · rw [hgreed]
      exact .some _ hrest
    · rw [hgreed]
      exact .some _ hrest
    · exact (frames_counts? ht m s).map fun counts => Command.rep counts.1 counts.2.1 counts.2.2
    · refine (frames_escape? ht m s).bind fun e rest rest' hrest => ?_
      exact .map_option _ _ hrest
    · split
      · exact .some _ honto
      · exact .none _
    · exact .some _ honto
    · exact .some _ honto
    · exact .some _ honto

end Reader

end Marginalia.Regex
