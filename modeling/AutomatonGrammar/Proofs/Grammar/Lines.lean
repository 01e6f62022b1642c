import AutomatonGrammar.Grammar.Printer
import AutomatonGrammar.Proofs.Grammar.Derivation
import AutomatonGrammar.Proofs.Text.Split
import Mathlib.Data.List.Basic

/-!
# Grammars read from their lines

The lines of a grammar escape nothing, and neither arrow nor bar is kept out of the names. What tells the
parts of a line from each other is the space: where no name has one, the words of a line are the
non-terminal, the arrow, and the right-hand sides with bars between them. And where a symbol is one character,
it is the first character of its right-hand side, and all behind it is the target.

    alternatives (split ' ' (" | ".intercalate ts).toList) = ts.map String.toList  (alternatives_intercalate)
    readLine (line s rules).toList = some (s, rules)                                           (readLine_line)

So in this notation (`Automaton.Textbook`) the lines give the productions back (`readLines_lines`), and no
two lists of productions have the same lines (`lines_eq_iff`).
-/

namespace AutomatonGrammar

open Text

namespace Production

/-- A right-hand side whose symbol and target can be told from each other, and from `ε`. -/
def Plain : Production → Prop
  | step x t => (∃ c, x.toList = [c] ∧ c ≠ ' ' ∧ c ≠ 'ε') ∧ ' ' ∉ t.toList
  | epsilon => True

/-- The right-hand side that a text stands for. -/
def read? : List Char → Option Production
  | [] => none
  | c :: target =>
    if c = 'ε' ∧ target = [] then some .epsilon
    else some (.step (.ofList [c]) (.ofList target))

theorem read?_text {p : Production} (h : p.Plain) : read? p.text.toList = some p := by
  cases p with
  | epsilon => rfl
  | step x t =>
    obtain ⟨⟨c, hx, -, hc⟩, -⟩ := h
    have htext : (step x t).text.toList = c :: t.toList := by
      rw [text, String.toList_append, hx, List.singleton_append]
    rw [htext, read?, if_neg fun he => hc he.1, ← hx, String.ofList_toList, String.ofList_toList]

theorem no_space_text {p : Production} (h : p.Plain) : ' ' ∉ p.text.toList := by
  cases p with
  | epsilon => decide
  | step x t =>
    obtain ⟨⟨c, hx, hc, -⟩, ht⟩ := h
    rw [text, String.toList_append, hx, List.singleton_append, List.mem_cons, not_or]
    exact ⟨Ne.symm hc, ht⟩

end Production

namespace Grammar

/-! ## One line -/

/-- Every other one of a list of words, from the first on. -/
def alternatives : List (List Char) → List (List Char)
  | [] => []
  | [w] => [w]
  | w :: _ :: ws => w :: alternatives ws

/-- The non-terminal of a line and its right-hand sides. -/
def readLine (line : List Char) : Option (State × List Production) :=
  match split ' ' line with
  | s :: ['-', '>'] :: ws => some (.ofList s, (alternatives ws).filterMap Production.read?)
  | _ => none

theorem alternatives_intercalate {ts : List String} (hne : ts ≠ []) (h : ∀ t ∈ ts, ' ' ∉ t.toList) :
    alternatives (split ' ' (" | ".intercalate ts).toList) = ts.map String.toList := by
  induction ts with
  | nil => exact absurd rfl hne
  | cons t ts ih =>
    obtain ⟨ht, hts⟩ := List.forall_mem_cons.1 h
    cases ts with
    | nil => rw [String.intercalate_singleton, split_of_not_mem ht]; rfl
    | cons u ts =>
      have hbar : (t ++ " | " ++ " | ".intercalate (u :: ts)).toList =
          t.toList ++ ' ' :: (['|'] ++ ' ' :: (" | ".intercalate (u :: ts)).toList) := by
        simp
      rw [String.intercalate_cons_cons, hbar, split_append, split_append, split_of_not_mem ht,
        split_of_not_mem (by decide : ' ' ∉ ['|'])]
      exact congrArg (t.toList :: ·) (ih (by simp) hts)

/-- A line without right-hand sides has nothing behind its second space, and is read like the others. -/
theorem filterMap_read?_alternatives {rules : List Production} (h : ∀ p ∈ rules, p.Plain) :
    (alternatives (split ' ' (" | ".intercalate (rules.map Production.text)).toList)).filterMap
      Production.read? = rules := by
  by_cases hne : rules = []
  · subst hne
    rfl
  · have htexts : ∀ t ∈ rules.map Production.text, ' ' ∉ t.toList := by
      intro t ht
      obtain ⟨p, hp, rfl⟩ := List.mem_map.1 ht
      exact Production.no_space_text (h p hp)
    rw [alternatives_intercalate (by simpa using hne) htexts, List.map_map, List.filterMap_map]
    exact (List.filterMap_congr fun p hp => Production.read?_text (h p hp)).trans List.filterMap_some

theorem readLine_line {s : State} {rules : List Production} (hs : ' ' ∉ s.toList)
    (h : ∀ p ∈ rules, p.Plain) : readLine (line s rules).toList = some (s, rules) := by
  have hline : (line s rules).toList = s.toList ++ ' ' :: (['-', '>'] ++
      ' ' :: (" | ".intercalate (rules.map Production.text)).toList) := by
    simp [line]
  have hwords : split ' ' (line s rules).toList = s.toList :: ['-', '>'] ::
      split ' ' (" | ".intercalate (rules.map Production.text)).toList := by
    rw [hline, split_append, split_append, split_of_not_mem hs,
      split_of_not_mem (by decide : ' ' ∉ ['-', '>'])]
    rfl
  rw [readLine, hwords]
  simp only [filterMap_read?_alternatives h, String.ofList_toList]

/-! ## All lines -/

/-- The non-terminals of some lines with their right-hand sides. -/
def readLines (ls : List String) : List (State × List Production) :=
  ls.filterMap fun l => readLine l.toList

theorem readLines_lines {g : Grammar} (h : ∀ s rules, (s, rules) ∈ g.productions.toList →
    ' ' ∉ s.toList ∧ ∀ p ∈ rules, p.Plain) : readLines g.lines = g.productions.toList := by
  have hread : ∀ e ∈ g.productions.toList, readLine (line e.1 e.2).toList = some e := by
    rintro ⟨s, rules⟩ he
    obtain ⟨hs, hrules⟩ := h s rules he
    exact readLine_line hs hrules
  rw [readLines, lines, List.filterMap_map]
  exact (List.filterMap_congr hread).trans List.filterMap_some

end Grammar

/-! ## Textbook notation -/

namespace Automaton

/-- Symbols are single characters, and no state or destination has a space in it. -/
structure Textbook (a : Automaton) : Prop where
  symbol : ∀ x ∈ a.alphabet, x.length = 1 ∧ x ≠ " " ∧ x ≠ Production.epsilonSymbol
  state : ∀ s ∈ a.states, ' ' ∉ s.toList
  target : ∀ s x t, a.step? s x = some t → ' ' ∉ t.toList

variable {a b : Automaton}

theorem textbook_iff : a.Textbook ↔
    (∀ x ∈ a.alphabet.toList, x.length = 1 ∧ x ≠ " " ∧ x ≠ Production.epsilonSymbol) ∧
    (∀ s ∈ a.states.toList, ' ' ∉ s.toList) ∧ ∀ e ∈ a.edges, ' ' ∉ e.target.toList := by
  constructor
  · intro h
    exact ⟨h.symbol, h.state, fun e he => h.target _ _ _ (Transitions.mem_edges.1 he)⟩
  · rintro ⟨hsymbol, hstate, htarget⟩
    exact ⟨hsymbol, hstate, fun s x t ht => htarget ⟨s, x, t⟩ (Transitions.mem_edges.2 ht)⟩

instance : Decidable a.Textbook := decidable_of_iff _ textbook_iff.symm

theorem Textbook.plain (h : a.Textbook) {s : State} {p : Production} (hp : p ∈ a.grammar.rules s) :
    p.Plain := by
  cases p with
  | epsilon => trivial
  | step x t =>
    obtain ⟨-, hx, ht⟩ := step_mem_rules.1 hp
    obtain ⟨hlength, hspace, hepsilon⟩ := h.symbol x hx
    rw [← String.length_toList, List.length_eq_one_iff] at hlength
    obtain ⟨c, hc⟩ := hlength
    refine ⟨⟨c, hc, ?_, ?_⟩, h.target s x t ht⟩
    · rintro rfl
      exact hspace (String.toList_inj.1 hc)
    · rintro rfl
      exact hepsilon (String.toList_inj.1 hc)

theorem Textbook.readLines_lines (h : a.Textbook) :
    Grammar.readLines a.grammar.lines = a.grammar.productions.toList := by
  refine Grammar.readLines_lines fun s rules he => ?_
  obtain ⟨r, hr, heq⟩ := List.mem_map.1 he
  cases heq
  exact ⟨h.state _ hr, fun p hp => h.plain (a.mem_rules.2 ⟨hr, hp⟩)⟩

/-- **Nothing is lost in the lines of a grammar in textbook notation.**  Two such grammars with the same
lines have the same productions: the same non-terminals, also those without right-hand sides, and for each
of them the same right-hand sides in the same order. -/
theorem lines_eq_iff (ha : a.Textbook) (hb : b.Textbook) :
    a.grammar.lines = b.grammar.lines ↔ a.grammar.productions = b.grammar.productions := by
  constructor
  · intro h
    apply SortedMap.toList_injective
    rw [← ha.readLines_lines, h, hb.readLines_lines]
  · intro h
    rw [Grammar.lines, Grammar.lines, h]

/-- States that are named like the separators and like the empty word, and one without a name; the bar has
no right-hand sides. -/
def separators : Automaton :=
  .ofParts ["", "|", "->", "ε"] ["|", "-"]
    [⟨"", "|", "|"⟩, ⟨"", "-", "->"⟩, ⟨"->", "-", ""⟩, ⟨"ε", "|", "ε"⟩] "" ["", "ε"]

/-- The same with another start state, and with names that are not declared. -/
def separatorsAndMore : Automaton :=
  .ofParts ["", "|", "->", "ε"] ["|", "-", ">"]
    [⟨"", "|", "|"⟩, ⟨"", "-", "->"⟩, ⟨"->", "-", ""⟩, ⟨"ε", "|", "ε"⟩, ⟨"q", "-", "|"⟩, ⟨"", "ab", "ε"⟩]
    "|" ["", "ε", "q"]

theorem lines_eq_iff_separators :
    separators.Textbook ∧ separatorsAndMore.Textbook ∧
    separators.grammar.lines = [" -> --> | || | ε", "-> -> -", "| -> ", "ε -> |ε | ε"] ∧
    separators.grammar.lines = separatorsAndMore.grammar.lines ∧
    separators.grammar.productions = separatorsAndMore.grammar.productions := by
  have ha : separators.Textbook := by decide
  have hb : separatorsAndMore.Textbook := by decide
  have hlines : separators.grammar.lines = separatorsAndMore.grammar.lines := by decide
  exact ⟨ha, hb, by decide, hlines, (lines_eq_iff ha hb).1 hlines⟩

/-- A symbol that is written like the empty word, and a destination without a name. -/
example : let a : Automaton := .ofParts ["s"] ["ε"] [⟨"s", "ε", ""⟩] "s" []
    let b : Automaton := .ofParts ["s"] ["ε"] [] "s" ["s"]
    a.grammar.lines = b.grammar.lines ∧ a.grammar.productions ≠ b.grammar.productions := by
  decide

end Automaton

end AutomatonGrammar
