import AutomatonGrammar.Main
import AutomatonGrammar.Proofs.Automaton.Malformation
import AutomatonGrammar.Proofs.Automaton.Parts
import AutomatonGrammar.Proofs.Command.Reload
import AutomatonGrammar.Proofs.Command.Repeated
import AutomatonGrammar.Proofs.Command.Traces
import AutomatonGrammar.Proofs.Diagram.Faithful
import AutomatonGrammar.Proofs.Diagram.Grammar
import AutomatonGrammar.Proofs.Diagram.Parallel
import AutomatonGrammar.Proofs.Form.Denotation
import AutomatonGrammar.Proofs.Form.RoundTrip
import AutomatonGrammar.Proofs.Grammar.Content
import AutomatonGrammar.Proofs.Grammar.Lines
import AutomatonGrammar.Proofs.Grammar.Listing
import AutomatonGrammar.Proofs.Grammar.Reachable
import AutomatonGrammar.Proofs.Grammar.Rules
import AutomatonGrammar.Proofs.Grammar.Unambiguous
import AutomatonGrammar.Proofs.Record.Document
import AutomatonGrammar.Proofs.Record.Exact
import AutomatonGrammar.Proofs.Command.Steps
