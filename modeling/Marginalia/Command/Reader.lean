import Marginalia.Command
import Marginalia.Command.Arguments

/-! # Reading command lines

    * **`Verb`**: the names of commands, and what each of them takes.
    * **`Invocation.read`**: the options in front, the name of a command, and its own
      options and operands. The options that all commands share may stand on either
      side of the name. The settings file may also be named by the environment. -/

namespace Marginalia

/-! ## Section 1: Verbs -/

/-- The name of a command. -/
inductive Verb where
  | add
  | remove
  | clear
  | list
  | languages
  | init
deriving DecidableEq, Repr

namespace Verb

/-- All names. -/
def all : List Verb := [.add, .remove, .clear, .list, .languages, .init]

/-- The name as it is written. -/
def name : Verb → String
  | .add       => "add"
  | .remove    => "remove"
  | .clear     => "clear"
  | .list      => "list"
  | .languages => "languages"
  | .init      => "init"

/-- What a user writes after the name, in short. -/
def synopsis : Verb → String
  | .add       => "<FILE> <IDENTIFIER> <START> [END] [-l <LANGUAGE>] [--dry-run]"
  | .remove    => "<FILE> <IDENTIFIER> [--regex] [-l <LANGUAGE>] [--dry-run]"
  | .clear     => "<FILE> [-l <LANGUAGE>] [--dry-run]"
  | .list      => "<FILE> [-l <LANGUAGE>] [--json]"
  | .languages => "[--json]"
  | .init      => "[--force]"

/-- A signature with what all commands take. -/
def withShared (switches : List Switch) (settings : List Setting) (operands : List OperandKind)
    (required : Nat) : Signature :=
  ⟨[.verbose, .help] ++ switches, .config :: settings, operands, required, false⟩

/-- What a command takes. -/
def signature : Verb → Signature
  | .add       => withShared [.dryRun] [.language] [.path, .text, .number, .number] 3
  | .remove    => withShared [.regex, .dryRun] [.language] [.path, .text] 2
  | .clear     => withShared [.dryRun] [.language] [.path] 1
  | .list      => withShared [.json] [.language] [.path] 1
  | .languages => withShared [.json] [] [] 0
  | .init      => withShared [.force] [] [] 0

/-- The command with the options and operands that are given. -/
def command? (v : Verb) (g : Given) : Option Command :=
  let language := g.value? .language
  match v, g.operands with
  | .add, [file, identifier, start] =>
    (number? start).map fun n => .add file identifier n none language (g.has .dryRun)
  | .add, [file, identifier, start, stop] =>
    (number? start).bind fun n => (number? stop).map fun m =>
      .add file identifier n (some m) language (g.has .dryRun)
  | .remove, [file, identifier] =>
    some (.remove file identifier (g.has .regex) language (g.has .dryRun))
  | .clear, [file] => some (.clear file language (g.has .dryRun))
  | .list, [file] => some (.list file language (g.has .json))
  | .languages, [] => some (.languages (g.has .json))
  | .init, [] => some (.init (g.has .force))
  | _, _ => none

/-- The command with a name. -/
def ofName? (s : Text) : Option Verb :=
  all.find? fun v => v.name.toList = s

end Verb

/-! ## Section 2: Command lines -/

/-- What may stand in front of a command. -/
def outerSignature : Signature :=
  ⟨[.verbose, .help, .version], [.config], [], 0, true⟩

/-- The word that asks for help, and the commands that it may be followed by. -/
def helpWord : Text := "help".toList

/-- Whether help can be given about some words. -/
def hasHelp : List Text → Bool
  | []  => true
  | [s] => s = helpWord || (Verb.ofName? s).isSome
  | _   => false

/-- The settings file that is asked for: on the right of the command's name, on its
    left, or else by the environment, which may not name an empty path that is looked
    at. -/
def chosenConfig (environment : Option Text) (givens : List Given) : Except Stop (Option Text) :=
  let named := givens.map fun g => g.value? .config
  if environment = some [] && named.any Option.isNone then .error .usage
  else .ok ((named.reverse.findSome? id).or environment)

/-- Reads a command line. -/
def Invocation.read (environment : Option Text) (words : List Text) :
    Except Stop Invocation := do
  let (outer, rest) ← outerSignature.read words
  match rest with
  | [] => return ⟨outer.has .verbose, ← chosenConfig environment [outer], none⟩
  | name :: rest =>
    if name = helpWord then throw (if hasHelp rest then .help else .usage)
    else
      match Verb.ofName? name with
      | none => throw .usage
      | some v =>
        let (inner, _) ← v.signature.read rest
        let config ← chosenConfig environment [outer, inner]
        match v.command? inner with
        | none => throw .usage
        | some c => return ⟨outer.has .verbose || inner.has .verbose, config, some c⟩

end Marginalia
