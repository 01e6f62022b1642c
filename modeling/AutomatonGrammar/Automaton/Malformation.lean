import AutomatonGrammar.Automaton.Basic

/-!
# Names that are used but not declared

`Automaton.malformations` lists every name that an automaton uses without declaring it, in the order
in which they are reported; `Automaton.validate` fails with the first.
-/

namespace AutomatonGrammar

/-- A way in which an automaton refers to something it does not declare. -/
inductive Malformation where
  | noStates
  | unknownStart (start : State)
  | unknownAccepting (state : State)
  | unknownSource (source : State)
  | unknownSymbol (source : State) (symbol : Symbol)
  | unknownTarget (source : State) (symbol : Symbol) (target : State)
deriving DecidableEq, Repr

namespace Malformation

/-- What is wrong, in words. -/
def message : Malformation → String
  | noStates => "the automaton has no states"
  | unknownStart s => "start state " ++ s ++ " is not a state"
  | unknownAccepting s => "accept state " ++ s ++ " is not a state"
  | unknownSource s => "transitions leave " ++ s ++ ", which is not a state"
  | unknownSymbol s x => "transition " ++ s ++ "," ++ x ++ " uses a symbol outside the alphabet"
  | unknownTarget s x t => "transition " ++ s ++ "," ++ x ++ "->" ++ t ++ " targets an unknown state"

end Malformation

namespace Automaton

variable (a : Automaton)

/-- The undeclared names of one transition: its symbol before its destination. -/
def entryMalformations (source : State) (symbol : Symbol) (target : State) : List Malformation :=
  (if symbol ∈ a.alphabet then [] else [.unknownSymbol source symbol]) ++
  (if target ∈ a.states then [] else [.unknownTarget source symbol target])

/-- The undeclared names of one row: its source before its transitions. -/
def rowMalformations (source : State) (row : Row) : List Malformation :=
  (if source ∈ a.states then [] else [.unknownSource source]) ++
  row.toList.flatMap fun (symbol, target) => a.entryMalformations source symbol target

/-- Everything undeclared, in the order in which it is reported: missing states, the start state,
accepting states in ascending order, then the transitions row by row. -/
def malformations : List Malformation :=
  (if a.states.isEmpty then [.noStates] else []) ++
  (if a.start ∈ a.states then [] else [.unknownStart a.start]) ++
  (a.accepting.toList.filter (· ∉ a.states)).map .unknownAccepting ++
  a.transitions.toList.flatMap fun (source, row) => a.rowMalformations source row

/-- Fails with the first undeclared name. -/
def validate : Except Malformation Unit :=
  match a.malformations with
  | [] => .ok ()
  | m :: _ => .error m

theorem validate_eq_ok_iff : a.validate = .ok () ↔ a.malformations = [] := by
  unfold validate
  split <;> simp_all

end Automaton

end AutomatonGrammar
