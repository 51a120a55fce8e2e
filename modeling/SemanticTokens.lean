import SemanticTokens.Main
import SemanticTokens.NameRecord.Printer
import SemanticTokens.Proofs.Delta.Groups
import SemanticTokens.Proofs.Delta.RoundTrip
import SemanticTokens.Proofs.Text.Lines
import SemanticTokens.Proofs.Text.Fields
import SemanticTokens.Proofs.Legend.Names
import SemanticTokens.Proofs.Listing.Lines
import SemanticTokens.Proofs.Listing.Unambiguous
import SemanticTokens.Proofs.Collection.Examination
import SemanticTokens.Proofs.Listing.CollectedNames
import SemanticTokens.Proofs.Highlight.StableSort
import SemanticTokens.Proofs.Delta.UnboundedSums
import SemanticTokens.Proofs.Delta.Payload
import SemanticTokens.Proofs.Collection.Order
import SemanticTokens.Proofs.Collection.Payload
import SemanticTokens.Proofs.Command.Actions
import SemanticTokens.Proofs.Command.Runs
import SemanticTokens.Proofs.Command.Readable
import SemanticTokens.Proofs.Command.Failures
import SemanticTokens.Proofs.Command.Reports
import SemanticTokens.Proofs.Json.Scanners
import SemanticTokens.Proofs.Json.Decimals
import SemanticTokens.Proofs.Json.Forms
import SemanticTokens.Proofs.Occurrence.Inference
import SemanticTokens.Proofs.NameRecord.RoundTrip
import SemanticTokens.Proofs.Command.Formats
import SemanticTokens.Proofs.Collection.Log
import SemanticTokens.Proofs.Command.Levels
import SemanticTokens.Proofs.Collection.Skips
import SemanticTokens.Proofs.Command.Counts
import SemanticTokens.Proofs.Listing.Resolution
import SemanticTokens.Proofs.Json.Stability.Tokens
import SemanticTokens.Proofs.Json.Stability.Values
import SemanticTokens.Proofs.NameRecord.Prefixes
import SemanticTokens.Proofs.Json.Grammar
import SemanticTokens.Proofs.Json.Grammar.Numerals
import SemanticTokens.Proofs.Json.Grammar.Tokens
import SemanticTokens.Proofs.Json.Grammar.Skipping
import SemanticTokens.Proofs.Json.Grammar.Reading
import SemanticTokens.Proofs.NameRecord.Drafts
import SemanticTokens.Proofs.NameRecord.Objects
import SemanticTokens.Proofs.CodeUnit.Encoding
import SemanticTokens.Proofs.CodeUnit.Cuts
import SemanticTokens.Proofs.Listing.CoveredText
import SemanticTokens.Proofs.Collection.Reasons
import SemanticTokens.Proofs.Delta.Edits
import SemanticTokens.Proofs.CodeUnit.Widths
import SemanticTokens.Proofs.Collection.Units
import SemanticTokens.Proofs.Collection.Limits
import SemanticTokens.Proofs.Delta.Concatenation
import SemanticTokens.Proofs.Command.Written
import SemanticTokens.Proofs.Command.WellFormed
import SemanticTokens.Proofs.Command.Tasks
import SemanticTokens.Proofs.Command.ChosenLevel
import SemanticTokens.Proofs.Command.Repetitions
import SemanticTokens.Proofs.CodeUnit.Measures
import SemanticTokens.Proofs.Command.InferenceLimit
import SemanticTokens.Proofs.Command.StandardInput
import SemanticTokens.Proofs.NameRecord.Lists
import SemanticTokens.Proofs.Legend.Masks
