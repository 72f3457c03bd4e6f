import Reckoner.Instruction.Document
import Reckoner.Instruction.Listing
import Reckoner.Proofs.Addition
import Reckoner.Proofs.Culprit
import Reckoner.Proofs.Decimal.Cut
import Reckoner.Proofs.Decimal.Exact
import Reckoner.Proofs.Decimal.Lenient
import Reckoner.Proofs.Decimal.Longest
import Reckoner.Proofs.Dependence
import Reckoner.Proofs.Double.Packing
import Reckoner.Proofs.Double.Rounding
import Reckoner.Proofs.Evaluation
import Reckoner.Proofs.Instruction.Columns
import Reckoner.Proofs.Instruction.Numerals
import Reckoner.Proofs.Instruction.Storage
import Reckoner.Proofs.Laziness
import Reckoner.Proofs.Lexicon.Longest
import Reckoner.Proofs.Lexicon.Standard
import Reckoner.Proofs.Machine.Depth
import Reckoner.Proofs.Machine.Faults
import Reckoner.Proofs.Machine.Frame
import Reckoner.Proofs.Phrase.Placement
import Reckoner.Proofs.Refinement
import Reckoner.Proofs.Settings
import Reckoner.Proofs.Term.Basic
import Reckoner.Proofs.Term.Execution
import Reckoner.Proofs.Term.Reading
import Reckoner.Proofs.Token.Classification
import Reckoner.Proofs.Token.Cutting
import Reckoner.Proofs.Token.Demand
import Reckoner.Proofs.Token.Provenance
import Reckoner.Proofs.Token.Quotation
import Reckoner.Proofs.Token.Respacing
import Reckoner.Proofs.Token.Role
import Reckoner.Proofs.Token.Spelling
import Reckoner.Proofs.Token.Unclosed
import Reckoner.Proofs.Tree.Execution
import Reckoner.Proofs.Value.Comparison
import Reckoner.Proofs.Value.Document
import Reckoner.Proofs.Value.Equality
import Reckoner.Proofs.Value.Leaves
import Reckoner.Proofs.Value.Membership
import Reckoner.Proofs.Value.Numerals
import Reckoner.Proofs.Value.Shown
import Reckoner.Proofs.Yard.Above
import Reckoner.Proofs.Yard.Balance
import Reckoner.Proofs.Yard.Brackets
import Reckoner.Proofs.Yard.Conservation
import Reckoner.Proofs.Yard.Counters
import Reckoner.Proofs.Yard.Delimiters
import Reckoner.Proofs.Yard.Draining
import Reckoner.Proofs.Yard.Matching
import Reckoner.Proofs.Yard.Moves
import Reckoner.Proofs.Yard.Ordering
import Reckoner.Proofs.Yard.Relocation
import Reckoner.Proofs.Yard.Split
import Reckoner.Proofs.Yard.Substitution
import Reckoner.Proofs.Yard.Turns
import Reckoner.Session
import Reckoner.Token.Document
import Reckoner.Value.Document
import Reckoner.Yard.Stream
