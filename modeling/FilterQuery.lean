import FilterQuery.Main
import FilterQuery.Token.Stream
import FilterQuery.Proofs.Explanation
import FilterQuery.Proofs.RoundTrip
import FilterQuery.Proofs.Matching
import FilterQuery.Proofs.Nesting
import FilterQuery.Proofs.Relocation
import FilterQuery.Proofs.Positions
import FilterQuery.Proofs.Recovery
import FilterQuery.Proofs.Blanks
import FilterQuery.Proofs.Layout
import FilterQuery.Proofs.Widening
import FilterQuery.Proofs.SourceOrder
import FilterQuery.Proofs.HandOff
import FilterQuery.Proofs.Reload
import FilterQuery.Proofs.Answers
import FilterQuery.Proofs.Lexicon
import FilterQuery.Proofs.Concatenation
import FilterQuery.Proofs.Unfinished
import FilterQuery.Proofs.Composition
import FilterQuery.Proofs.FieldNames
import FilterQuery.Proofs.QuotedNumbers
import FilterQuery.Proofs.ExactNumbers
import FilterQuery.Proofs.Cursor
import FilterQuery.Proofs.DecimalJson
