import Cascade.Tree.Navigation
import Cascade.Script
import Cascade.Main
import Cascade.Proofs.Engine.Semantics
import Cascade.Proofs.Engine.Adequacy
import Cascade.Proofs.Tree.Steps
import Cascade.Proofs.Engine.Frame
import Cascade.Proofs.Grammar.Scan
import Cascade.Proofs.Token.Codec
import Cascade.Proofs.Engine.Arena
import Cascade.Proofs.Engine.Calls
import Cascade.Proofs.Engine.Buffer
import Cascade.Proofs.Token.Scan
import Cascade.Proofs.Token.Clean
import Cascade.Proofs.Engine.Parse
import Cascade.Proofs.Grammar.Template
import Cascade.Proofs.Tree.Unfold
import Cascade.Proofs.Engine.RoundTrip
import Cascade.Proofs.Tree.Settle
import Cascade.Proofs.Engine.TokenFree
import Cascade.Proofs.Tree.ExpandsTo
import Cascade.Proofs.Tree.Acyclic
import Cascade.Proofs.Engine.Spelled
import Cascade.Proofs.Engine.Freeze
import Cascade.Proofs.Token.Contains
import Cascade.Proofs.Engine.Literals
import Cascade.Proofs.Engine.Compiled
import Cascade.Proofs.Tree.Trace
import Cascade.Proofs.Engine.Order
import Cascade.Proofs.Engine.Skip
import Cascade.Proofs.Engine.Scope
import Cascade.Proofs.Grammar.Wiring
import Cascade.Proofs.Grammar.Outline
import Cascade.Proofs.Grammar.Mention
import Cascade.Proofs.Grammar.Resolve
import Cascade.Proofs.Grammar.Stages
import Cascade.Proofs.Grammar.Compile
import Cascade.Proofs.Grammar.Outcome
import Cascade.Proofs.Grammar.Unresolved
import Cascade.Proofs.Grammar.Expansion
import Cascade.Proofs.Grammar.Unknown
import Cascade.Proofs.Engine.Depth
import Cascade.Proofs.Engine.Simulation
import Cascade.Proofs.Engine.Seed
import Cascade.Proofs.Tree.Renumber
import Cascade.Proofs.Hook.Number
import Cascade.Proofs.Grammar.Permutation
import Cascade.Proofs.Except
import Cascade.Proofs.Regex.Match
import Cascade.Proofs.Regex.Faithful
import Cascade.Proofs.Pattern.Groups
import Cascade.Proofs.Pattern.Words
import Cascade.Proofs.Regex.Reading
import Cascade.Proofs.Regex.Opening
import Cascade.Proofs.Grammar.Splice
import Cascade.Proofs.Text.Numeral
import Cascade.Proofs.Regex.Regular
import Cascade.Proofs.Regex.Search
import Cascade.Proofs.Regex.Spelling
import Cascade.Proofs.Token.Pattern
import Cascade.Proofs.Token.Display
import Cascade.Proofs.Grammar.Segment
import Cascade.Proofs.Tree.Sibling
import Cascade.Proofs.Engine.Sibling
import Cascade.Proofs.Tree.Preorder
import Cascade.Proofs.Tree.Serialized
import Cascade.Proofs.Engine.Traversal
import Cascade.Proofs.State.Entries
import Cascade.Proofs.State.Write
import Cascade.Proofs.Token.Replace
