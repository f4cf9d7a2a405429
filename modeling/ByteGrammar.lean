import ByteGrammar.Grammar.Comments
import ByteGrammar.Grammar.Operators
import ByteGrammar.Json.Records
import ByteGrammar.Session
import ByteGrammar.Proofs.Context.Frame
import ByteGrammar.Proofs.Context.Relevance
import ByteGrammar.Proofs.Cursor.Lookbehind
import ByteGrammar.Proofs.Cursor.Reachable
import ByteGrammar.Proofs.Termination.Parses
import ByteGrammar.Proofs.Termination.Detection
import ByteGrammar.Proofs.Termination.Transparency
import ByteGrammar.Proofs.Trace.Finality
import ByteGrammar.Proofs.Trace.Nesting
import ByteGrammar.Proofs.Operators.Reading
import ByteGrammar.Proofs.Forms.Derived
import ByteGrammar.Proofs.Operators.Chains
import ByteGrammar.Proofs.Operators.Lists
import ByteGrammar.Proofs.Values.Counterpart
import ByteGrammar.Proofs.Rules.Binding
import ByteGrammar.Proofs.Repetition.Sequences
import ByteGrammar.Proofs.Repetition.Starts
import ByteGrammar.Proofs.Repetition.Search
import ByteGrammar.Proofs.Repetition.Stepwise
import ByteGrammar.Proofs.Terminals.Strings
import ByteGrammar.Proofs.Lines.Excerpts
import ByteGrammar.Proofs.Conversions.Hexadecimal
import ByteGrammar.Proofs.Failures.Agreement
import ByteGrammar.Proofs.Terminals.Literals
import ByteGrammar.Proofs.Whitespace.Tokens
import ByteGrammar.Proofs.Comments.Openers
import ByteGrammar.Proofs.Terminals.Words
import ByteGrammar.Proofs.Repetition.Runs
