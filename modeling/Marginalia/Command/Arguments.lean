import Marginalia.Data

/-! # The words of a command line

    * **`Word`**: what a word is by its form: an operand, an option with a long name, or
      options with names of one letter.
    * **`Signature`**: the options and operands that a command takes.
    * **`Signature.read`**: sorts words by signature. Each option may be given once, and
      after two hyphens all words are operands. -/

namespace Marginalia

/-! ## Section 1: Options -/

/-- An option that is given or not. -/
inductive Switch where
  | verbose
  | help
  | version
  | dryRun
  | regex
  | json
  | force
deriving DecidableEq, Repr

/-- An option with a value. -/
inductive Setting where
  | config
  | language
deriving DecidableEq, Repr

/-- The name of a switch. -/
def Switch.name : Switch → String
  | .verbose => "verbose"
  | .help    => "help"
  | .version => "version"
  | .dryRun  => "dry-run"
  | .regex   => "regex"
  | .json    => "json"
  | .force   => "force"

/-- The letter that stands for a switch. -/
def Switch.letter? : Switch → Option Char
  | .verbose => some 'v'
  | .help    => some 'h'
  | .version => some 'V'
  | _        => none

/-- The name of an option with a value. -/
def Setting.name : Setting → String
  | .config   => "config"
  | .language => "language"

/-- The letter that stands for an option with a value. -/
def Setting.letter? : Setting → Option Char
  | .config   => none
  | .language => some 'l'

/-- What operands have to be. -/
inductive OperandKind where
  /-- A path, which is not empty. -/
  | path
  | text
  /-- The number of a line, which has at most 64 bits. -/
  | number
deriving DecidableEq, Repr

/-- The options and operands of a command. -/
structure Signature where
  switches : List Switch
  settings : List Setting
  operands : List OperandKind
  /-- How many operands there have to be. -/
  required : Nat
  /-- The first operand is not read. It and all that follow are another command. -/
  isOuter  : Bool

/-! ## Section 2: Words -/

/-- A word by its form. -/
inductive Word where
  | operand
  | escape
  | long (name : Text) (value : Option Text)
  | letters (cs : List Char)
deriving DecidableEq, Repr

/-- A name and what follows the first equals sign. -/
def splitValue (s : Text) : Text × Option Text :=
  match s.dropWhile (· != '=') with
  | []     => (s, none)
  | _ :: v => (s.takeWhile (· != '='), some v)

/-- The form of a word. A hyphen on its own is an operand. -/
def Word.ofText : Text → Word
  | ['-', '-']        => .escape
  | '-' :: '-' :: s   => .long (splitValue s).1 (splitValue s).2
  | '-' :: c :: cs    => .letters (c :: cs)
  | _                 => .operand

/-- The least number that has more than 64 bits. -/
def lineBound : Nat := 18446744073709551616

/-- A whole number, with a plus sign or without, of at most 64 bits. -/
def number? (s : Text) : Option Nat :=
  let ds := match s with
    | '+' :: ds => ds
    | ds => ds
  let n : Nat := ds.foldl (fun n c => 10 * n + (c.toNat - 48)) 0
  if !ds.isEmpty && ds.all Char.isDigit && decide (n < lineBound) then some n else none

/-- Operands of a kind. -/
def OperandKind.accepts : OperandKind → Text → Bool
  | .path, s   => !s.isEmpty
  | .text, _   => true
  | .number, s => (number? s).isSome

/-! ## Section 3: Sorting words -/

/-- Why no command is read. -/
inductive Stop where
  /-- The words are no command. -/
  | usage
  /-- The user asks for help. -/
  | help
  /-- The user asks for the version. -/
  | version
deriving DecidableEq, Repr

/-- What has been read. -/
structure Given where
  switches : List Switch := []
  settings : List (Setting × Text) := []
  operands : List Text := []
deriving Repr

namespace Given

/-- A switch is given. -/
def has (g : Given) (s : Switch) : Bool :=
  g.switches.contains s

/-- The value of an option. -/
def value? (g : Given) (s : Setting) : Option Text :=
  g.settings.lookup s

/-- Adds a switch. -/
def addSwitch (g : Given) (s : Switch) : Except Stop Given :=
  match s with
  | .help => .error .help
  | .version => .error .version
  | s => if g.has s then .error .usage else .ok { g with switches := s :: g.switches }

/-- Adds an option with its value. The settings file has a name. -/
def addSetting (g : Given) (s : Setting) (v : Text) : Except Stop Given :=
  if (g.value? s).isSome || (s = .config && v.isEmpty) then .error .usage
  else .ok { g with settings := (s, v) :: g.settings }

/-- Adds an operand, if there may be one more of its kind. -/
def addOperand (sig : Signature) (g : Given) (s : Text) : Except Stop Given :=
  match sig.operands[g.operands.length]? with
  | some kind =>
    if kind.accepts s then .ok { g with operands := g.operands ++ [s] } else .error .usage
  | none => .error .usage

end Given

namespace Signature

/-- Reads an option with a long name. The second result is an option that still needs
    its value. -/
def long (sig : Signature) (g : Given) (name : Text) (value : Option Text) :
    Except Stop (Given × Option Setting) :=
  match sig.switches.find? fun s => s.name.toList = name with
  | some s => if value.isSome then .error .usage else (g.addSwitch s).map (·, none)
  | none =>
    match sig.settings.find? fun s => s.name.toList = name, value with
    | some s, some v => (g.addSetting s v).map (·, none)
    | some s, none => .ok (g, some s)
    | none, _ => .error .usage

/-- Reads options of one letter. The value of an option may follow its letter at once,
    after an equals sign or without. -/
def letters (sig : Signature) (g : Given) : List Char → Except Stop (Given × Option Setting)
  | [] => .ok (g, none)
  | c :: cs =>
    match sig.switches.find? fun s => s.letter? = some c with
    | some s =>
      match g.addSwitch s with
      | .ok g => sig.letters g cs
      | .error e => .error e
    | none =>
      match sig.settings.find? (fun s => s.letter? = some c), cs with
      | some s, [] => .ok (g, some s)
      | some s, '=' :: v => (g.addSetting s v).map (·, none)
      | some s, v => (g.addSetting s v).map (·, none)
      | none, _ => .error .usage

/-- Reads operands to the end. -/
def operandsOnly (sig : Signature) (g : Given) : List Text → Except Stop Given
  | [] => .ok g
  | w :: ws =>
    match g.addOperand sig w with
    | .ok g => sig.operandsOnly g ws
    | .error e => .error e

/-- Sorts words, where the value of the option `pending` comes next. The second result
    is the command that follows. -/
def sort (sig : Signature) (g : Given) (pending : Option Setting) :
    List Text → Except Stop (Given × List Text)
  | [] => if pending.isSome then .error .usage else .ok (g, [])
  | w :: ws =>
    match pending, Word.ofText w with
    | some s, .operand =>
      match g.addSetting s w with
      | .ok g => sig.sort g none ws
      | .error e => .error e
    | some _, _ => .error .usage
    | none, .operand =>
      if sig.isOuter then .ok (g, w :: ws)
      else
        match g.addOperand sig w with
        | .ok g => sig.sort g none ws
        | .error e => .error e
    | none, .escape => (sig.operandsOnly g ws).map (·, [])
    | none, .long name value =>
      match sig.long g name value with
      | .ok (g, pending) => sig.sort g pending ws
      | .error e => .error e
    | none, .letters cs =>
      match sig.letters g cs with
      | .ok (g, pending) => sig.sort g pending ws
      | .error e => .error e

/-- Sorts words, of which there have to be enough. -/
def read (sig : Signature) (ws : List Text) : Except Stop (Given × List Text) :=
  match sig.sort {} none ws with
  | .ok (g, rest) => if g.operands.length < sig.required then .error .usage else .ok (g, rest)
  | .error e => .error e

end Signature

end Marginalia
