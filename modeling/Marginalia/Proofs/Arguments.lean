import Marginalia.Command.Reader

/-! # One more switch on a command line

    Words are read from left to right, so that what was read of some words stays as it is
    when others follow them, and a switch in front of others does not change what they mean.

    * **`Signature.Takes`**: what one word does to what was read, if the words after it are
      sorted as before. **`Signature.sort_cons_cases`**: all that a word can do.
    * **`Signature.sort_of_stop`**: the words in front of a command are read without looking
      at what follows its name.
    * **`Given.behind`**, **`Signature.sort_behind`**: the same words behind a switch that is
      not among them.
    * **`Invocation.read_eq_ok_iff`**: the parts of a command line. -/

namespace Marginalia

variable {sig : Signature} {g g' : Given} {pending pending' : Option Setting} {w : Text}

/-! ## Section 1: One word -/

namespace Signature

/-- A word is taken for an operand, a value or options, and leads from what was read before it
    to what was read with it. -/
inductive Takes (sig : Signature) (w : Text) :
    Given → Option Setting → Given → Option Setting → Prop where
  | value {g g' : Given} {s : Setting} (form : Word.ofText w = .operand)
      (add : g.addSetting s w = .ok g') : Takes sig w g (some s) g' none
  | operand {g g' : Given} (form : Word.ofText w = .operand) (inner : sig.isOuter = false)
      (add : g.addOperand sig w = .ok g') : Takes sig w g none g' none
  | long {g g' : Given} {name : Text} {value : Option Text} {pending : Option Setting}
      (form : Word.ofText w = .long name value) (add : sig.long g name value = .ok (g', pending)) :
      Takes sig w g none g' pending
  | letters {g g' : Given} {cs : List Char} {pending : Option Setting}
      (form : Word.ofText w = .letters cs) (add : sig.letters g cs = .ok (g', pending)) :
      Takes sig w g none g' pending

theorem Takes.sort_cons (h : sig.Takes w g pending g' pending') (ws : List Text) :
    sig.sort g pending (w :: ws) = sig.sort g' pending' ws := by
  cases h with
  | value form add => simp only [sort, form, add]
  | operand form inner add => simp [sort, form, inner, add]
  | long form add => simp only [sort, form, add]
  | letters form add => simp only [sort, form, add]

/-- Words that are sorted begin with one that is taken, with the name of a command, or with
    the mark behind which all words are operands. -/
theorem sort_cons_cases {ws rest : List Text} (h : sig.sort g pending (w :: ws) = .ok (g', rest)) :
    (∃ g₁ pending₁, sig.Takes w g pending g₁ pending₁ ∧ sig.sort g₁ pending₁ ws = .ok (g', rest)) ∨
      pending = none ∧
        ((∀ g ws', sig.sort g none (w :: ws') = .ok (g, w :: ws')) ∧ g' = g ∧ rest = w :: ws ∨
          Word.ofText w = .escape ∧ sig.operandsOnly g ws = .ok g' ∧ rest = []) := by
  unfold sort at h
  split at h
  · next s form =>
    split at h
    · next g₁ add => exact .inl ⟨g₁, none, .value form add, h⟩
    · exact absurd h (by simp)
  · exact absurd h (by simp)
  · next form =>
    split at h
    · next outer =>
      obtain ⟨rfl, rfl⟩ := Prod.mk.inj (Except.ok.inj h)
      refine .inr ⟨rfl, .inl ⟨fun g ws' => ?_, rfl, rfl⟩⟩
      simp [sort, form, outer]
    · next inner =>
      split at h
      · next g₁ add => exact .inl ⟨g₁, none, .operand form (by simpa using inner) add, h⟩
      · exact absurd h (by simp)
  · next form =>
    cases hrest : sig.operandsOnly g ws with
    | error e =>
      rw [hrest] at h
      exact absurd h (by simp [Except.map])
    | ok g₁ =>
      rw [hrest] at h
      obtain ⟨rfl, rfl⟩ := Prod.mk.inj (Except.ok.inj h)
      exact .inr ⟨rfl, .inr ⟨form, rfl, rfl⟩⟩
  · next form =>
    split at h
    · next g₁ pending₁ add => exact .inl ⟨g₁, pending₁, .long form add, h⟩
    · exact absurd h (by simp)
  · next form =>
    split at h
    · next g₁ pending₁ add => exact .inl ⟨g₁, pending₁, .letters form add, h⟩
    · exact absurd h (by simp)

/-! ## Section 2: Words in front of a command -/

/-- The words in front of a command are read without looking at what follows its name. -/
theorem sort_of_stop {ws rest : List Text} (h : sig.sort g pending ws = .ok (g', w :: rest)) :
    ∃ before, ws = before ++ w :: rest ∧
      ∀ rest', sig.sort g pending (before ++ w :: rest') = .ok (g', w :: rest') := by
  induction ws generalizing g pending with
  | nil =>
    unfold sort at h
    split at h <;> exact absurd h (by simp)
  | cons v ws ih =>
    rcases sort_cons_cases h with
      ⟨g₁, pending₁, htake, hsort⟩ | ⟨rfl, ⟨hstop, rfl, hrest⟩ | hescape⟩
    · obtain ⟨before, rfl, hbefore⟩ := ih hsort
      exact ⟨v :: before, rfl, fun rest' => (htake.sort_cons _).trans (hbefore rest')⟩
    · -- `v` is the name of the command
      obtain ⟨rfl, rfl⟩ := List.cons.inj hrest
      exact ⟨[], rfl, hstop _⟩
    · -- behind `--` all words are operands, so there is no name of a command
      exact absurd hescape.2.2 (by simp)

end Signature

/-! ## Section 3: Words behind a switch -/

/-- What was read behind a switch. -/
def Given.behind (s : Switch) (g : Given) : Given :=
  { g with switches := g.switches ++ [s] }

section
variable {s : Switch}

namespace Given

theorem has_behind (g : Given) (t : Switch) :
    (g.behind s).has t = (g.has t || t == s) := by
  simp [has, behind, Bool.beq_eq_decide_eq]

/-- Another switch is given behind `s`. -/
theorem addSwitch_behind {t : Switch} (h : g.addSwitch t = .ok g') (hno : g'.has s = false) :
    g.has s = false ∧ (g.behind s).addSwitch t = .ok (g'.behind s) := by
  unfold addSwitch at h ⊢
  split at h
  · exact absurd h (by simp)
  · exact absurd h (by simp)
  · split at h
    · exact absurd h (by simp)
    · next hnew =>
      obtain rfl := Except.ok.inj h
      obtain ⟨hne, hold⟩ := Bool.or_eq_false_iff.1 (hno : (s == t || g.has s) = false)
      refine ⟨hold, ?_⟩
      have hne' : (t == s) = false := beq_false_of_ne (Ne.symm (ne_of_beq_false hne))
      rw [has_behind, hne', Bool.or_false, if_neg hnew]
      rfl

theorem addSetting_behind {t : Setting} {v : Text} (h : g.addSetting t v = .ok g')
    (hno : g'.has s = false) :
    g.has s = false ∧ (g.behind s).addSetting t v = .ok (g'.behind s) := by
  unfold addSetting at h ⊢
  split at h
  · exact absurd h (by simp)
  · next hnew =>
    obtain rfl := Except.ok.inj h
    exact ⟨hno, if_neg hnew⟩

theorem addOperand_behind (h : g.addOperand sig w = .ok g') (hno : g'.has s = false) :
    g.has s = false ∧ (g.behind s).addOperand sig w = .ok (g'.behind s) := by
  unfold addOperand at h
  split at h
  · next kind hkind =>
    split at h
    · next haccept =>
      obtain rfl := Except.ok.inj h
      refine ⟨hno, ?_⟩
      simp only [addOperand, behind, hkind]
      exact if_pos haccept
    · exact absurd h (by simp)
  · exact absurd h (by simp)

end Given

namespace Signature

/-- An option was added that needs no value from the next word. -/
theorem map_none_eq_ok_iff {r : Except Stop Given} :
    r.map (·, (none : Option Setting)) = .ok (g', pending) ↔ r = .ok g' ∧ pending = none := by
  cases r <;> simp [Except.map, eq_comm]

theorem long_behind {name : Text} {value : Option Text}
    (h : sig.long g name value = .ok (g', pending)) (hno : g'.has s = false) :
    g.has s = false ∧ sig.long (g.behind s) name value = .ok (g'.behind s, pending) := by
  cases hswitch : sig.switches.find? fun t => t.name.toList = name with
  | some t =>
    simp only [long, hswitch] at h ⊢
    split at h
    · exact absurd h (by simp)
    · next hvalue =>
      obtain ⟨hadd, rfl⟩ := map_none_eq_ok_iff.1 h
      obtain ⟨hold, hadd'⟩ := Given.addSwitch_behind hadd hno
      exact ⟨hold, by rw [if_neg hvalue, hadd']; rfl⟩
  | none =>
    cases hsetting : sig.settings.find? fun t => t.name.toList = name with
    | none =>
      simp only [long, hswitch, hsetting] at h
      exact absurd h (by simp)
    | some t =>
      cases value with
      | none =>
        simp only [long, hswitch, hsetting] at h ⊢
        obtain ⟨rfl, rfl⟩ := Prod.mk.inj (Except.ok.inj h)
        exact ⟨hno, rfl⟩
      | some v =>
        simp only [long, hswitch, hsetting] at h ⊢
        obtain ⟨hadd, rfl⟩ := map_none_eq_ok_iff.1 h
        obtain ⟨hold, hadd'⟩ := Given.addSetting_behind hadd hno
        exact ⟨hold, by rw [hadd']; rfl⟩

theorem letters_behind {cs : List Char} (h : sig.letters g cs = .ok (g', pending))
    (hno : g'.has s = false) :
    g.has s = false ∧ sig.letters (g.behind s) cs = .ok (g'.behind s, pending) := by
  induction cs generalizing g with
  | nil =>
    obtain ⟨rfl, rfl⟩ := Prod.mk.inj (Except.ok.inj h)
    exact ⟨hno, rfl⟩
  | cons c cs ih =>
    cases hswitch : sig.switches.find? fun t => t.letter? = some c with
    | some t =>
      simp only [letters, hswitch] at h ⊢
      split at h
      · next g₁ hadd =>
        obtain ⟨hmid, hrest⟩ := ih h
        obtain ⟨hold, hadd'⟩ := Given.addSwitch_behind hadd hmid
        exact ⟨hold, by rw [hadd']; exact hrest⟩
      · exact absurd h (by simp)
    | none =>
      cases hsetting : sig.settings.find? fun t => t.letter? = some c with
      | none =>
        simp only [letters, hswitch, hsetting] at h
        exact absurd h (by simp)
      | some t =>
        cases cs with
        | nil =>
          simp only [letters, hswitch, hsetting] at h ⊢
          obtain ⟨rfl, rfl⟩ := Prod.mk.inj (Except.ok.inj h)
          exact ⟨hno, rfl⟩
        | cons b cs =>
          -- the value follows the letter, perhaps behind an equals sign
          obtain ⟨v, hread⟩ : ∃ v, ∀ g : Given,
              sig.letters g (c :: b :: cs) = (g.addSetting t v).map (·, none) := by
            by_cases hb : b = '='
            · exact ⟨cs, fun g => by simp only [letters, hswitch, hsetting, hb]⟩
            · exact ⟨b :: cs, fun g => by simp [letters, hswitch, hsetting, hb]⟩
          rw [hread] at h ⊢
          obtain ⟨hadd, rfl⟩ := map_none_eq_ok_iff.1 h
          obtain ⟨hold, hadd'⟩ := Given.addSetting_behind hadd hno
          exact ⟨hold, by rw [hadd']; rfl⟩

theorem operandsOnly_behind {ws : List Text} (h : sig.operandsOnly g ws = .ok g')
    (hno : g'.has s = false) :
    g.has s = false ∧ sig.operandsOnly (g.behind s) ws = .ok (g'.behind s) := by
  induction ws generalizing g with
  | nil =>
    obtain rfl := Except.ok.inj h
    exact ⟨hno, rfl⟩
  | cons w ws ih =>
    simp only [operandsOnly] at h ⊢
    split at h
    · next g₁ hadd =>
      obtain ⟨hmid, hrest⟩ := ih h
      obtain ⟨hold, hadd'⟩ := Given.addOperand_behind hadd hmid
      exact ⟨hold, by rw [hadd']; exact hrest⟩
    · exact absurd h (by simp)

/-- A word that does not give a switch is taken in the same way behind that switch. -/
theorem Takes.behind (h : sig.Takes w g pending g' pending') (hno : g'.has s = false) :
    g.has s = false ∧ sig.Takes w (g.behind s) pending (g'.behind s) pending' := by
  cases h with
  | value form add => exact (Given.addSetting_behind add hno).imp_right (.value form)
  | operand form inner add =>
    exact (Given.addOperand_behind add hno).imp_right (.operand form inner)
  | long form add => exact (long_behind add hno).imp_right (.long form)
  | letters form add => exact (letters_behind add hno).imp_right (.letters form)

/-- Words that do not give a switch are sorted in the same way behind that switch. -/
theorem sort_behind {ws rest : List Text} (h : sig.sort g pending ws = .ok (g', rest))
    (hno : g'.has s = false) :
    g.has s = false ∧ sig.sort (g.behind s) pending ws = .ok (g'.behind s, rest) := by
  induction ws generalizing g pending with
  | nil =>
    unfold sort at h ⊢
    split at h
    · exact absurd h (by simp)
    · next hdone =>
      obtain ⟨rfl, rfl⟩ := Prod.mk.inj (Except.ok.inj h)
      exact ⟨hno, if_neg hdone⟩
  | cons w ws ih =>
    rcases sort_cons_cases h with
      ⟨g₁, pending₁, htake, hsort⟩ | ⟨rfl, ⟨hstop, rfl, rfl⟩ | ⟨hform, hrest, rfl⟩⟩
    · -- `s` is not given by the words behind this one, and so not by this one
      obtain ⟨hmid, hsort'⟩ := ih hsort
      obtain ⟨hold, htake'⟩ := htake.behind hmid
      exact ⟨hold, (htake'.sort_cons ws).trans hsort'⟩
    · exact ⟨hno, hstop _ ws⟩
    · obtain ⟨hold, hrest'⟩ := operandsOnly_behind hrest hno
      refine ⟨hold, ?_⟩
      simp only [sort, hform, hrest']
      rfl

end Signature

end

/-! ## Section 4: Command lines -/

/-- Words are read if they are sorted and there are enough operands among them. -/
theorem Signature.read_eq_ok_iff {ws rest : List Text} :
    sig.read ws = .ok (g, rest) ↔
      sig.sort {} none ws = .ok (g, rest) ∧ sig.required ≤ g.operands.length := by
  unfold read
  cases hsort : sig.sort {} none ws with
  | error e => simp
  | ok r =>
    obtain ⟨g', rest'⟩ := r
    simp only [Except.ok.injEq, Prod.mk.injEq]
    split
    · next hless =>
      refine ⟨fun h => absurd h (by simp), fun h => ?_⟩
      obtain ⟨⟨rfl, rfl⟩, hle⟩ := h
      omega
    · next hless =>
      rw [Except.ok.injEq, Prod.mk.injEq]
      refine ⟨fun h => ⟨h, ?_⟩, And.left⟩
      rw [← h.1]
      omega

/-- A step that depends on one before it succeeds if both do. -/
theorem bind_eq_ok_iff {ε α β : Type} {x : Except ε α} {f : α → Except ε β} {b : β} :
    (x >>= f) = .ok b ↔ ∃ a, x = .ok a ∧ f a = .ok b := by
  cases x <;> simp [bind, Except.bind]

/-- A command line with a command. -/
theorem Invocation.read_eq_ok_iff {environment : Option Text} {words : List Text}
    {verbose : Bool} {config : Option Text} {c : Command} :
    Invocation.read environment words = .ok ⟨verbose, config, some c⟩ ↔
      ∃ outer name rest v inner more, outerSignature.read words = .ok (outer, name :: rest) ∧
        name ≠ helpWord ∧ Verb.ofName? name = some v ∧
        v.signature.read rest = .ok (inner, more) ∧
        chosenConfig environment [outer, inner] = .ok config ∧
        v.command? inner = some c ∧ (outer.has .verbose || inner.has .verbose) = verbose := by
  unfold Invocation.read
  constructor
  · intro h
    obtain ⟨⟨outer, rest⟩, houter, h⟩ := bind_eq_ok_iff.1 h
    -- each stage that can stop the reading comes before the next one
    cases rest with
    | nil =>
      obtain ⟨config', -, h⟩ := bind_eq_ok_iff.1 h
      exact absurd (Except.ok.inj h) (by simp)
    | cons name rest =>
      simp only at h
      by_cases hname : name = helpWord
      · rw [if_pos hname] at h
        exact absurd h (by simp [throw, throwThe, MonadExceptOf.throw])
      rw [if_neg hname] at h
      cases hverb : Verb.ofName? name with
      | none =>
        rw [hverb] at h
        exact absurd h (by simp [throw, throwThe, MonadExceptOf.throw])
      | some v =>
        rw [hverb] at h
        obtain ⟨⟨inner, more⟩, hinner, h⟩ := bind_eq_ok_iff.1 h
        obtain ⟨config', hconfig, h⟩ := bind_eq_ok_iff.1 h
        cases hcommand : v.command? inner with
        | none =>
          rw [hcommand] at h
          exact absurd h (by simp [throw, throwThe, MonadExceptOf.throw])
        | some c' =>
          rw [hcommand] at h
          obtain ⟨rfl, rfl, hc⟩ := Invocation.mk.inj (Except.ok.inj h)
          obtain rfl := Option.some.inj hc
          exact ⟨outer, name, rest, v, inner, more, houter, hname, hverb, hinner, hconfig,
            hcommand, rfl⟩
  · intro h
    obtain ⟨outer, name, rest, v, inner, more, houter, hname, hverb, hinner, hconfig,
      hcommand, rfl⟩ := h
    simp only [houter, if_neg hname, hverb, hinner, hconfig, hcommand, bind, Except.bind]
    rfl

end Marginalia
