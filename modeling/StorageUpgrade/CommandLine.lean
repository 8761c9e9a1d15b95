import StorageUpgrade.Report.Completion

/-!
# Command lines

A command line names a command, its operands, switches, and settings with a value. Switches and
settings may stand anywhere behind their command, and those of the program also in front of it.
-/
namespace StorageUpgrade.CommandLine

/-- A word that is there or not. -/
inductive Switch where
  | verbose
  | quiet
  | compact
  | omitNew
  | strict
  | instructions
  | help
  | version
  deriving DecidableEq

def Switch.name : Switch → String
  | verbose => "verbose"
  | quiet => "quiet"
  | compact => "compact"
  | omitNew => "omit-new"
  | strict => "strict"
  | instructions => "instructions"
  | help => "help"
  | version => "version"

def Switch.letter? : Switch → Option Char
  | verbose => some 'v'
  | quiet => some 'q'
  | help => some 'h'
  | version => some 'V'
  | _ => none

/-- A word with a value. -/
inductive Setting where
  | format
  | context
  | threads
  deriving DecidableEq

def Setting.name : Setting → String
  | format => "format"
  | context => "context"
  | threads => "threads"

def Setting.letter? : Setting → Option Char
  | format => none
  | context => some 'U'
  | threads => some 'j'

/-- A count below `2 ^ 64`, perhaps with a plus sign. -/
def count? (s : String) : Option Nat :=
  let digits := match s.toList with
    | '+' :: cs => cs
    | cs => cs
  let n := digits.foldl (fun n c => n * 10 + (c.toNat - '0'.toNat)) 0
  if !digits.isEmpty && digits.all Char.isDigit && n < 18446744073709551616 then some n else none

def Setting.takes : Setting → String → Bool
  | format, v => (Report.Format.ofName? v).isSome
  | context, v | threads, v => (count? v).isSome

/-- A word with a place of its own. -/
inductive Operand where
  | path
  | shell
  deriving DecidableEq

def Operand.takes : Operand → String → Bool
  | path, w => !w.isEmpty
  | shell, w => (Report.Shell.ofName? w).isSome

/-- What may be said about something. -/
structure Grammar where
  switches : List Switch
  settings : List Setting
  operands : List Operand

inductive Verb where
  | compare
  | batch
  | completions
  deriving DecidableEq

namespace Verb

def name : Verb → String
  | compare => "compare"
  | batch => "batch"
  | completions => "completions"

def ofName? (s : String) : Option Verb :=
  if s = "compare" ∨ s = "c" then some compare
  else if s = "batch" ∨ s = "b" then some batch
  else if s = "completions" then some completions
  else none

end Verb

def programGrammar : Grammar := ⟨[.verbose, .quiet, .compact, .help, .version], [.format], []⟩

def Verb.grammar (v : Verb) : Grammar :=
  let own : Grammar := match v with
    | compare => ⟨[.omitNew, .strict], [.context], [.path, .path]⟩
    | batch => ⟨[.omitNew, .strict], [.threads], [.path, .path]⟩
    | completions => ⟨[.instructions], [], [.shell]⟩
  { own with
    switches := own.switches ++ programGrammar.switches
    settings := own.settings ++ programGrammar.settings }

structure Words where
  switches : List Switch := []
  settings : List (Setting × String) := []
  operands : List String := []

/-- Why a command line does not lead to a command. -/
inductive Stop where
  /-- A word does not fit, or one is missing. -/
  | misuse
  | help
  /-- The version is asked for, perhaps behind a command. -/
  | version (verb : Option Verb)
  deriving DecidableEq

namespace Words

def turnOn (w : Words) (verb : Option Verb) (s : Switch) : Except Stop Words :=
  if s = .help then .error .help
  else if s = .version then .error (.version verb)
  else if s ∈ w.switches then .error .misuse
  else .ok { w with switches := w.switches ++ [s] }

def value? (w : Words) (s : Setting) : Option String :=
  (w.settings.find? fun e => e.1 = s).map (·.2)

def assign (w : Words) (s : Setting) (value : String) : Except Stop Words :=
  if (w.value? s).isSome ∨ !s.takes value then .error .misuse
  else .ok { w with settings := w.settings ++ [(s, value)] }

def add (w : Words) (g : Grammar) (word : String) : Except Stop Words :=
  match g.operands[w.operands.length]? with
  | some o =>
    if o.takes word then .ok { w with operands := w.operands ++ [word] } else .error .misuse
  | none => .error .misuse

end Words

/-- Reads letters behind a hyphen. A setting takes the letters behind it for its value, and without
any it still wants one. -/
def readLetters (g : Grammar) (verb : Option Verb) :
    Words → List Char → Except Stop (Words × Option Setting)
  | w, [] => .ok (w, none)
  | w, c :: cs =>
    match g.switches.find? fun s => s.letter? = some c with
    | some s => do readLetters g verb (← w.turnOn verb s) cs
    | none =>
      match g.settings.find? fun s => s.letter? = some c with
      | none => .error .misuse
      | some s =>
        match cs with
        | [] => .ok (w, some s)
        | '=' :: value => do return (← w.assign s (String.ofList value), none)
        | value => do return (← w.assign s (String.ofList value), none)

/-- Reads a long name behind two hyphens, perhaps with an equals sign and a value. -/
def readName (g : Grammar) (verb : Option Verb) (w : Words) (body : List Char) :
    Except Stop (Words × Option Setting) :=
  let name := String.ofList (body.takeWhile (· ≠ '='))
  let value := (body.dropWhile (· ≠ '=')).tail?
  match g.switches.find? fun s => s.name = name with
  | some s => if value.isSome then .error .misuse else do return (← w.turnOn verb s, none)
  | none =>
    match g.settings.find? fun s => s.name = name, value with
    | some s, none => .ok (w, some s)
    | some s, some v => do return (← w.assign s (String.ofList v), none)
    | none, _ => .error .misuse

def isMarked (word : String) : Bool :=
  match word.toList with
  | '-' :: _ :: _ => true
  | _ => false

def readMarked (g : Grammar) (verb : Option Verb) (w : Words) (word : String) :
    Except Stop (Words × Option Setting) :=
  match word.toList with
  | '-' :: '-' :: body => readName g verb w body
  | _ :: letters => readLetters g verb w letters
  | [] => .ok (w, none)

/-- Reads words up to the first operand if there are to be none. Two hyphens alone make operands of
all words behind them. -/
def readWords (g : Grammar) (verb : Option Verb) :
    Words → List String → Except Stop (Words × List String)
  | w, [] => .ok (w, [])
  | w, word :: rest =>
    if word = "--" then do return (← rest.foldlM (fun w o => w.add g o) w, [])
    else if isMarked word then do
      match ← readMarked g verb w word with
      | (w, none) => readWords g verb w rest
      | (w, some s) =>
        match rest with
        | [] => .error .misuse
        | value :: rest =>
          if isMarked value then .error .misuse
          else readWords g verb (← w.assign s value) rest
    else if g.operands.isEmpty then .ok (w, word :: rest)
    else do readWords g verb (← w.add g word) rest

/-- What is to be done. For completions the steps that install them are shown, whether or not the
switch for instructions is there. -/
inductive Command where
  | compare (old new : String) (omitNew strict : Bool) (context : Option Nat)
  | batch (oldDir newDir : String) (omitNew strict : Bool) (threads : Option Nat)
  | completions (shell : Report.Shell)
  deriving DecidableEq

structure Request where
  command : Command
  format : Option Report.Format
  compact : Bool
  deriving DecidableEq

/-- The command of the words behind its name. All of its operands have to be there. -/
def Verb.command? (verb : Verb) (w : Words) : Option Command :=
  let omitNew := w.switches.contains .omitNew
  let strict := w.switches.contains .strict
  match verb, w.operands with
  | compare, [old, new] => some (.compare old new omitNew strict ((w.value? .context).bind count?))
  | batch, [old, new] => some (.batch old new omitNew strict ((w.value? .threads).bind count?))
  | completions, [shell] => (Report.Shell.ofName? shell).map .completions
  | _, _ => none

/-- Name under which help is asked for in place of a command. -/
def helpName : String := "help"

/-- The request of a command line. What is said behind the command goes before what is said in
front of it. -/
def read (args : List String) : Except Stop Request := do
  let (general, rest) ← readWords programGrammar none {} args
  match rest with
  | [] => .error .help
  | name :: rest =>
    match Verb.ofName? name with
    | none => .error (if name = helpName then .help else .misuse)
    | some verb => do
      let (w, _) ← readWords verb.grammar verb {} rest
      match verb.command? w with
      | none => .error .misuse
      | some command =>
        let format := (w.value? .format).or (general.value? .format)
        return {
          command
          format := format.bind Report.Format.ofName?
          compact := w.switches.contains .compact || general.switches.contains .compact }

end StorageUpgrade.CommandLine
