import AssessmentPlans.Command.Basic

/-! Reading the arguments of the program. Options may stand before and behind the
name of the command; what stands behind it comes first. -/
namespace AssessmentPlans

/-- What arguments fill. -/
inductive Slot where
  | workspace
  | bundles
  | debug
  | output
  | framework
  | dryRun
  | loadConfig
  | config
  | warnings
  deriving DecidableEq

namespace Slot

/-- Whether an option for the slot has a value of its own. -/
def takesValue : Slot → Bool
  | .workspace | .bundles | .output | .framework | .config => true
  | .debug | .dryRun | .loadConfig | .warnings => false

/-- A path is not empty, and output has one of two formats. -/
def accepts (value : String) : Slot → Bool
  | .workspace | .bundles | .config => value ≠ ""
  | .output => value = "text" || value = "json"
  | _ => true

/-- The variable that fills the slot where no argument does. -/
def variableName? : Slot → Option String
  | .workspace => some workspaceVariable
  | .bundles => some bundlesVariable
  | _ => none

end Slot

/-- What an option asks for. -/
inductive Wish where
  | fill (slot : Slot)
  | help
  | version
  deriving DecidableEq

/-- An option by its long and, if it has one, its short name. -/
structure Switch where
  long : String
  short : Option Char
  wish : Wish

/-- The options that stand anywhere. -/
def commonSwitches : List Switch := [
  ⟨"workspace", some 'w', .fill .workspace⟩, ⟨"bundle-dir", none, .fill .bundles⟩,
  ⟨"debug", some 'd', .fill .debug⟩, ⟨"output", none, .fill .output⟩,
  ⟨"help", some 'h', .help⟩, ⟨"version", some 'V', .version⟩]

/-- The options of a command; before its name there are the common ones only. -/
def switchesOf : Option CommandName → List Switch
  | some .plan =>
    [⟨"dry-run", some 'n', .fill .dryRun⟩, ⟨"load-config", some 'l', .fill .loadConfig⟩] ++
      commonSwitches
  | some .tailor => ⟨"config", some 'c', .fill .config⟩ :: commonSwitches
  | some .validate => ⟨"warnings", none, .fill .warnings⟩ :: commonSwitches
  | _ => commonSwitches

/-- Why arguments lead to no command. -/
inductive Refusal where
  | help
  | version (command : Option CommandName)
  | nothingGiven
  | missingCommand
  | unknownCommand
  | unknownArgument
  | missingArgument
  | invalidValue
  | surplusValue
  | repeated
  deriving DecidableEq

/-- What the arguments of one level have filled. The last slot may still wait for
its value. -/
structure Filling where
  filled : List (Slot × String)
  waiting : Option (Slot × Option String)

namespace Filling

def none : Filling := ⟨[], .none⟩

def get? (slot : Slot) (f : Filling) : Option String :=
  (f.filled.find? (·.1 = slot)).map (·.2)

def put (slot : Slot) (value : String) (f : Filling) : Except Refusal Filling :=
  if (f.get? slot).isSome then .error .repeated
  else if !slot.accepts value then .error .invalidValue
  else .ok { f with filled := f.filled ++ [(slot, value)] }

/-- Fills the slot that has been waiting. -/
def settle (f : Filling) : Except Refusal Filling :=
  match f.waiting with
  | .none => .ok f
  | some (_, .none) => .error .invalidValue
  | some (slot, some value) => { f with waiting := .none }.put slot value

/-- Whether the next argument is a value unless it looks like an option. -/
def awaits (f : Filling) : Bool := f.waiting.any (·.2.isNone)

/-- Fills a slot from one argument. -/
def putNow (slot : Slot) (value : String) (f : Filling) : Except Refusal Filling := do
  (← f.settle).put slot value

/-- Fills a slot later, by the value that comes with it or by the next argument. -/
def putLater (slot : Slot) (value : Option String) (f : Filling) : Except Refusal Filling := do
  return { (← f.settle) with waiting := some (slot, value) }

/-- Fills what is empty from the environment. -/
def addVariable (lookup : String → Option String) (slot : Slot) (f : Filling) :
    Except Refusal Filling :=
  match f.get? slot, slot.variableName?.bind lookup with
  | .none, some value => if slot.accepts value then .ok f else .error .invalidValue
  | _, _ => .ok f

/-- Ends a level: every slot has its value, and so have the variables. -/
def finish (lookup : String → Option String) (f : Filling) : Except Refusal Filling := do
  let f ← f.settle
  let f ← f.addVariable lookup .workspace
  f.addVariable lookup .bundles

end Filling

/-- Answers a wish that has no value. -/
def Wish.grant (level : Option CommandName) (f : Filling) : Wish → Except Refusal Filling
  | .fill slot => f.putNow slot ""
  | .help => do
    let _ ← f.settle
    throw .help
  | .version => do
    let _ ← f.settle
    throw (.version level)

/-- An option by its long name, with or without a value behind an equals sign. -/
def readLong (level : Option CommandName) (name : String) (value : Option String) (f : Filling) :
    Except Refusal Filling :=
  match (switchesOf level).find? (·.long == name) with
  | none => .error .unknownArgument
  | some switch =>
    match switch.wish, value with
    | .fill slot, some value =>
      if slot.takesValue then f.putNow slot value else .error .surplusValue
    | .fill slot, none =>
      if slot.takesValue then f.putLater slot none else f.putNow slot ""
    | _, some _ => .error .surplusValue
    | wish, none => wish.grant level f

/-- Options by their short names in one argument. The rest of the argument is the
value of the first one that has a value. -/
def readShorts (level : Option CommandName) : List Char → Filling → Except Refusal Filling
  | [], f => .ok f
  | c :: cs, f =>
    match (switchesOf level).find? (·.short == some c) with
    | none => .error .unknownArgument
    | some switch =>
      let here := do
        let f ← switch.wish.grant level f
        readShorts level cs f
      match switch.wish with
      | .fill slot =>
        if !slot.takesValue then here
        else match cs with
          | [] => f.putLater slot none
          | '=' :: cs => f.putNow slot (String.ofList cs)
          | cs => f.putNow slot (String.ofList cs)
      | _ => here

/-- A word that is neither an option nor a value of one. -/
def readWord (level : Option CommandName) (word : String) (f : Filling) : Except Refusal Filling :=
  match level with
  | some .plan =>
    let named := (f.get? .framework).isSome || f.waiting.any (·.1 = .framework)
    if named then .error .unknownArgument else f.putLater .framework (some word)
  | some _ => .error .unknownArgument
  | none => .error .unknownCommand

/-- How an argument looks. -/
inductive ArgumentForm where
  | separator
  | long (name : String) (value : Option String)
  | shorts (names : List Char)
  | word

def ArgumentForm.of (arg : String) : ArgumentForm :=
  match arg.toList with
  | ['-', '-'] => .separator
  | '-' :: '-' :: cs =>
    match cs.dropWhile (· != '=') with
    | '=' :: value => .long (String.ofList (cs.takeWhile (· != '='))) (some (String.ofList value))
    | _ => .long (String.ofList cs) none
  | '-' :: c :: cs => .shorts (c :: cs)
  | _ => .word

def helpName : String := "help"

def namesCommand (word : String) : Bool := word = helpName || (CommandName.ofText? word).isSome

/-- Words behind the separator. They may not name a command. -/
def readTrailing (level : Option CommandName) : List String → Filling → Except Refusal Filling
  | [], f => .ok f
  | word :: words, f => do
    if level.isNone && namesCommand word then throw .unknownArgument
    readTrailing level words (← readWord level word f)

/-- What `help` is answered: the help for at most one command. -/
def helpFor : List String → Refusal
  | [] => .help
  | [word] => if namesCommand word then .help else .unknownCommand
  | _ => .unknownCommand

/-- Reads the arguments of a level. Those before the command end at its name, which
is answered with what stands behind. -/
def readArguments (level : Option CommandName) : List String → Filling →
    Except Refusal (Filling × Option (CommandName × List String))
  | [], f => .ok (f, none)
  | arg :: args, f => do
    if level.isNone && !f.awaits then
      if arg = helpName then throw (helpFor args)
      if let some name := CommandName.ofText? arg then return (f, some (name, args))
    match ArgumentForm.of arg with
    | .separator => return (← readTrailing level args f, none)
    | .long name value => readArguments level args (← readLong level name value f)
    | .shorts names => readArguments level args (← readShorts level names f)
    | .word =>
      match f.waiting with
      | some (slot, none) => readArguments level args { f with waiting := some (slot, some arg) }
      | _ => readArguments level args (← readWord level arg f)

/-- The value of a common slot: the one behind the command's name, the one before
it, or the variable's. -/
def commonValue (lookup : String → Option String) (outer inner : Filling) (slot : Slot) :
    Option String :=
  ((inner.get? slot).or (outer.get? slot)).or (slot.variableName?.bind lookup)

/-- The command that its own slots describe. -/
def commandOf (name : CommandName) (f : Filling) : Except Refusal Command :=
  let has (slot : Slot) := (f.get? slot).isSome
  match name with
  | .plan =>
    match f.get? .framework with
    | some framework => .ok (.plan framework (has .dryRun) (has .loadConfig))
    | none => .error .missingArgument
  | .tailor => .ok (.tailor (f.get? .config))
  | .validate => .ok (.validate (has .warnings))
  | .list => .ok .list

/-- Why arguments without a command are refused. -/
def Filling.refusal (lookup : String → Option String) (f : Filling) : Refusal :=
  let given := !f.filled.isEmpty || (lookup workspaceVariable).isSome || (lookup bundlesVariable).isSome
  if given then .missingCommand else .nothingGiven

/-- Reads all arguments. The command's own arguments are looked at before the value
of an option that stands just before its name. -/
def Invocation.ofArguments (lookup : String → Option String) (args : List String) :
    Except Refusal Invocation := do
  let (outer, rest) ← readArguments none args .none
  match rest with
  | none => throw ((← outer.finish lookup).refusal lookup)
  | some (name, args) =>
    let (inner, _) ← readArguments (some name) args .none
    let inner ← inner.finish lookup
    let command ← commandOf name inner
    let outer ← outer.finish lookup
    let common := commonValue lookup outer inner
    return {
      workspace := (common .workspace).getD defaultWorkspace
      bundles := common .bundles
      debug := (common .debug).isSome
      output := if common .output = some "json" then .json else .text
      command }

/-- What the program says about its version. -/
def versionText (command : Option CommandName) : String :=
  "complytime" ++ (match command with
    | some name => "-" ++ name.text
    | none => "") ++ " 0.1.0"

def Refusal.exitCode : Refusal → Nat
  | .help | .version _ => 0
  | _ => 2

end AssessmentPlans
