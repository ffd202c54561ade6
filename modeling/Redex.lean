import Redex.Editor.Session
import Redex.Main
import Redex.Proofs.Analysis.Blame
import Redex.Proofs.Analysis.Independence
import Redex.Proofs.Analysis.Unclosed
import Redex.Proofs.Curried.Capture
import Redex.Proofs.Curried.Ending
import Redex.Proofs.Curried.FirstRedex
import Redex.Proofs.Curried.FreeNames
import Redex.Proofs.Curried.Normalization
import Redex.Proofs.Curried.Renaming
import Redex.Proofs.Curried.RoundTrip
import Redex.Proofs.Editor.Correction
import Redex.Proofs.Editor.Echo
import Redex.Proofs.Editor.Pairing
import Redex.Proofs.Editor.Session
import Redex.Proofs.Editor.Typing
import Redex.Proofs.Form.Map
import Redex.Proofs.Form.Partners
import Redex.Proofs.Form.Printing
import Redex.Proofs.Form.Shift
import Redex.Proofs.Form.Shorthand
import Redex.Proofs.Form.Spelling
import Redex.Proofs.Form.Tokens
import Redex.Proofs.Fresh
import Redex.Proofs.NameSet
import Redex.Proofs.Repl.Budget
import Redex.Proofs.Repl.Conversation
import Redex.Proofs.Repl.Evaluation
import Redex.Proofs.Repl.Framing
import Redex.Proofs.Repl.Inspection
import Redex.Proofs.Term.Canonical
import Redex.Proofs.Term.Derivation
import Redex.Proofs.Term.FaultList
import Redex.Proofs.Term.Faults
import Redex.Proofs.Term.FreeNames
import Redex.Proofs.Term.Grammar
import Redex.Proofs.Term.Occurrence
import Redex.Proofs.Term.Writing
import Redex.Proofs.Text.Pairs
import Redex.Proofs.Text.Partners
import Redex.Proofs.Token.Cut
import Redex.Proofs.Token.Lexer
import Redex.Proofs.Worksheet.Agreement
import Redex.Proofs.Worksheet.History
import Redex.Proofs.Worksheet.Pending
import Redex.Proofs.Worksheet.Ticking
