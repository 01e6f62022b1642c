import AutomatonGrammar.Automaton.Basic
import AutomatonGrammar.Log

/-!
# Right-regular grammars

The grammar of an automaton has the states for non-terminals and the alphabet for terminals. A
transition from `s` on `x` to `t` is the production `s -> x t`, and an accepting state `s` has the
production `s -> ε`. Symbols outside the alphabet have no productions; a destination that is not a
state is copied as it is.
-/

namespace AutomatonGrammar

/-- The right-hand side of a production. -/
inductive Production where
  | step (symbol : Symbol) (target : State)
  | epsilon
deriving DecidableEq, Repr

namespace Production

/-- The symbol that stands for the empty word in a printed production. -/
def epsilonSymbol : Symbol := "ε"

def symbol : Production → Symbol
  | step x _ => x
  | epsilon => epsilonSymbol

def target? : Production → Option State
  | step _ t => some t
  | epsilon => none

def isEpsilon : Production → Bool
  | step .. => false
  | epsilon => true

end Production

/-- A right-regular grammar. Every non-terminal has an entry among the productions, possibly with no
right-hand sides. -/
structure Grammar where
  nonTerminals : SortedSet State
  terminals : SortedSet Symbol
  productions : SortedMap State (List Production)
  start : State
deriving DecidableEq

namespace Automaton

variable (a : Automaton)

/-- The right-hand sides for the state `s`: one for each symbol of the alphabet that leads somewhere,
in ascending order, then `ε` if `s` accepts. -/
def productionsOf (s : State) : List Production :=
  let row := a.transitions.row s
  (a.alphabet.toList.filterMap fun x => (row.get? x).map (.step x)) ++
  (if a.isAccepting s then [.epsilon] else [])

/-- The grammar that generates the language of `a`. -/
def grammar : Grammar where
  nonTerminals := a.states
  terminals := a.alphabet
  productions := .ofKeys a.states a.productionsOf
  start := a.start

/-- What is logged when the grammar is made. -/
def grammarNote : Log.Entry where
  level := .debug
  topic := .grammar
  text := "built grammar with " ++ toString a.grammar.productions.size ++ " non-terminals from " ++
    toString a.edgeCount ++ " transitions"

end Automaton

namespace Grammar

/-- The right-hand sides of the non-terminal `s`; none for a name that is no non-terminal. -/
def rules (g : Grammar) (s : State) : List Production := (g.productions.get? s).getD []

end Grammar

end AutomatonGrammar
