import AutomatonGrammar.Command.Basic

/-!
# Command lines

The arguments of the program name a command and then settings (options with a value), switches (options
without) and operands. A value is given as `--name value`, `--name=value`, `-x value`, `-xvalue` or
`-x=value`; a value that is an argument of its own does not start with a dash, except where it is a
dash alone. Behind `--` every argument is an operand. No option is given twice, except `transitions`.

Arguments are read in order. A request for help ends the reading, so that it comes before what the
command line lacks or contradicts as a whole, but not before an argument that cannot be read.
-/

namespace AutomatonGrammar

namespace Command

inductive Setting where
  | json
  | states
  | alphabet
  | start
  | accept
  | transitions
  | output
  | format
  | target
deriving DecidableEq, Repr

namespace Setting

def name : Setting → String
  | json => "json"
  | states => "states"
  | alphabet => "alphabet"
  | start => "start"
  | accept => "accept"
  | transitions => "transitions"
  | output => "output"
  | format => "format"
  | target => "to"

/-- The letter that stands for the name, if there is one. -/
def letter? : Setting → Option Char
  | transitions => some 't'
  | output => some 'o'
  | format => some 'f'
  | _ => none

/-- Whether the value is a path, and so not empty. -/
def isPath : Setting → Bool
  | json | output | target => true
  | _ => false

end Setting

inductive Switch where
  | strict
  | long
  | vertical
  | mergeEdges
deriving DecidableEq, Repr

def Switch.name : Switch → String
  | strict => "strict"
  | long => "long"
  | vertical => "vertical"
  | mergeEdges => "merge-edges"

inductive Verb where
  | convert
  | plot
  | save
  | describe
deriving DecidableEq, Repr

namespace Verb

def all : List Verb := [convert, plot, save, describe]

def name : Verb → String
  | convert => "convert"
  | plot => "plot"
  | save => "export"
  | describe => "import"

def ofName? (name : String) : Option Verb := all.find? (·.name = name)

/-- The fields of a form, which a record excludes. -/
def formSettings : List Setting := [.states, .alphabet, .start, .accept, .transitions]

/-- The settings that say where an automaton comes from. -/
def sourceSettings : List Setting := .json :: formSettings

def settings : Verb → List Setting
  | convert => sourceSettings
  | plot => sourceSettings ++ [.output, .format]
  | save => sourceSettings ++ [.target]
  | describe => []

def switches : Verb → List Switch
  | convert => [.strict, .long]
  | plot => [.strict, .vertical, .mergeEdges]
  | save => [.strict]
  | describe => []

/-- The number of operands: the one file that is described. -/
def operandCount : Verb → Nat
  | describe => 1
  | _ => 0

end Verb

/-- Why a command line is refused. -/
inductive UsageError where
  | noCommand
  | unexpected (argument : String)
  | valueMissing (setting : Setting)
  | valueEmpty (what : String)
  | valueUnwanted (argument : String)
  | repeated (option : String)
  | conflict (setting : Setting)
  | required (what : String)
deriving DecidableEq, Repr

def UsageError.message : UsageError → String
  | noCommand => "a command is required"
  | unexpected argument => "unexpected argument '" ++ argument ++ "'"
  | valueMissing setting => "a value is required for '--" ++ setting.name ++ "'"
  | valueEmpty what => "the value of '" ++ what ++ "' must not be empty"
  | valueUnwanted argument => "unexpected value in '" ++ argument ++ "'"
  | repeated option => "the argument '--" ++ option ++ "' cannot be used multiple times"
  | conflict setting => "'--json' cannot be used with '--" ++ setting.name ++ "'"
  | required what => "'" ++ what ++ "' is required"

/-- One thing that a command line says. -/
inductive Item where
  | setting (name : Setting) (value : String)
  | switch (name : Switch)
  | operand (value : String)
deriving DecidableEq, Repr

/-- What one argument is, seen by itself. -/
inductive Word where
  | item (item : Item)
  /-- A setting whose value is the next argument. -/
  | awaits (setting : Setting)
  | separator
  | help
deriving DecidableEq, Repr

/-! ## Single arguments -/

/-- Whether an argument is read as an option: it starts with a dash and is not a dash alone. -/
def isOption (argument : String) : Bool :=
  match argument.toList with
  | '-' :: _ :: _ => true
  | _ => false

/-- A name and, behind the first equals sign, a value. -/
def cutValue (text : List Char) : List Char × Option (List Char) :=
  match text.dropWhile (· ≠ '=') with
  | [] => (text, none)
  | _ :: value => (text.takeWhile (· ≠ '='), some value)

/-- What `--text` says. -/
def Verb.longWord (v : Verb) (argument : String) (text : List Char) : Except UsageError Word :=
  let (name, value?) := cutValue text
  let name := String.ofList name
  match v.settings.find? (·.name = name), v.switches.find? (·.name = name), value? with
  | some setting, _, none => .ok (.awaits setting)
  | some setting, _, some value => .ok (.item (.setting setting (.ofList value)))
  | none, some switch, none => .ok (.item (.switch switch))
  | none, some _, some _ => .error (.valueUnwanted argument)
  | none, none, none => if name = "help" then .ok .help else .error (.unexpected argument)
  | none, none, some _ => .error (.unexpected argument)

/-- What `-letter` says, with `text` behind it. -/
def Verb.shortWord (v : Verb) (argument : String) (letter : Char) (text : List Char) :
    Except UsageError Word :=
  match v.settings.find? (·.letter? = some letter), text with
  | some setting, [] => .ok (.awaits setting)
  | some setting, '=' :: value => .ok (.item (.setting setting (.ofList value)))
  | some setting, value => .ok (.item (.setting setting (.ofList value)))
  | none, _ => if letter = 'h' then .ok .help else .error (.unexpected argument)

def Verb.word (v : Verb) (argument : String) : Except UsageError Word :=
  match argument.toList with
  | ['-', '-'] => .ok .separator
  | '-' :: '-' :: text => v.longWord argument text
  | '-' :: letter :: text => v.shortWord argument letter text
  | _ => .ok (.item (.operand argument))

/-! ## Whole command lines -/

/-- The values of a setting, in the order in which they are given. -/
def values (items : List Item) (setting : Setting) : List String :=
  items.filterMap fun
    | .setting s value => if s = setting then some value else none
    | _ => none

def value? (items : List Item) (setting : Setting) : Option String := (values items setting).head?

def isOn (items : List Item) (switch : Switch) : Bool := .switch switch ∈ items

def operands (items : List Item) : List String :=
  items.filterMap fun
    | .operand value => some value
    | _ => none

/-- The items with one more, if it may stand behind them. -/
def Verb.push (v : Verb) (items : List Item) (item : Item) : Except UsageError (List Item) :=
  match item with
  | .setting setting value =>
    if setting ≠ .transitions ∧ values items setting ≠ [] then .error (.repeated setting.name)
    else if setting.isPath ∧ value = "" then .error (.valueEmpty ("--" ++ setting.name))
    else .ok (items ++ [item])
  | .switch switch => if isOn items switch then .error (.repeated switch.name) else .ok (items ++ [item])
  | .operand value =>
    if v.operandCount ≤ (operands items).length then .error (.unexpected value)
    else if value = "" then .error (.valueEmpty "FILE")
    else .ok (items ++ [item])

/-- What the arguments say behind the items read so far and a setting that awaits its value, if there is
one; nothing if they ask for help. -/
def Verb.items (v : Verb) (read : List Item) : (awaiting : Option Setting) → List String →
    Except UsageError (Option (List Item))
  | some setting, [] => .error (.valueMissing setting)
  | some setting, argument :: rest =>
    if isOption argument then .error (.valueMissing setting)
    else do v.items (← v.push read (.setting setting argument)) none rest
  | none, [] => .ok (some read)
  | none, argument :: rest => do
    match ← v.word argument with
    | .item item => v.items (← v.push read item) none rest
    | .awaits setting => v.items read (some setting) rest
    | .separator => return some (← (rest.map Item.operand).foldlM v.push read)
    | .help => return none

/-- The source that the items describe. -/
def source (items : List Item) : Except UsageError Source :=
  match value? items .json, Verb.formSettings.find? (values items · ≠ []) with
  | some _, some setting => .error (.conflict setting)
  | json, _ => .ok {
      json, states := value? items .states, alphabet := value? items .alphabet,
      start := value? items .start, accepting := value? items .accept,
      transitions := values items .transitions, strict := isOn items .strict }

/-- The command of a verb and its items. -/
def build (v : Verb) (items : List Item) : Except UsageError Command :=
  match v with
  | .convert => (source items).map (.convert · (isOn items .long))
  | .plot =>
    let output := (value? items .output).getD "dfa_diagram"
    let format := (value? items .format).getD "png"
    (source items).map (.plot · output format (isOn items .vertical) (isOn items .mergeEdges))
  | .save => do
    let source ← source items
    match value? items .target with
    | some path => return .save source path
    | none => throw (.required "--to")
  | .describe =>
    match operands items with
    | file :: _ => .ok (.describe file)
    | [] => .error (.required "FILE")

end Command

/-- What a command line asks for. -/
inductive Request where
  | version
  | help
  | command (c : Command)
deriving DecidableEq, Repr

namespace Request

open Command

/-- The request of a command line. -/
def parse : List String → Except UsageError Request
  | [] => .error .noCommand
  | argument :: rest =>
    match argument.toList with
    | '-' :: 'V' :: _ => .ok .version
    | '-' :: 'h' :: _ => .ok .help
    | _ =>
      if argument = "--version" then .ok .version
      else if argument = "--help" then .ok .help
      else if argument = "help" then
        match rest with
        | [] => .ok .help
        | [topic] =>
          if (Verb.ofName? topic).isSome ∨ topic = "help" then .ok .help
          else .error (.unexpected topic)
        | _ :: more :: _ => .error (.unexpected more)
      else match Verb.ofName? argument with
        | none => .error (.unexpected argument)
        | some v =>
          match v.items [] none rest with
          | .error e => .error e
          | .ok none => .ok .help
          | .ok (some items) => (build v items).map .command

end Request

end AutomatonGrammar
