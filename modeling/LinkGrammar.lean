import LinkGrammar.Text.Basic
import LinkGrammar.Text.Blank
import LinkGrammar.Text.Digit
import LinkGrammar.Text.Case
import LinkGrammar.Text.Quoted
import LinkGrammar.Decimal.Share
import LinkGrammar.Connector.Basic
import LinkGrammar.Connector.Compare
import LinkGrammar.Formula.Basic
import LinkGrammar.Formula.Render
import LinkGrammar.Formula.Token
import LinkGrammar.Formula.Parser
import LinkGrammar.Formula.Expansion
import LinkGrammar.Formula.Cleanup
import LinkGrammar.Formula.Region
import LinkGrammar.Formula.NormalForm
import LinkGrammar.Lexicon.Rule
import LinkGrammar.Lexicon.Basic
import LinkGrammar.Lexicon.Grammar
import LinkGrammar.Dictionary.Statement
import LinkGrammar.Dictionary.Load
import LinkGrammar.Link.Basic
import LinkGrammar.Link.Words
import LinkGrammar.Bag.Trigger
import LinkGrammar.Bag.Arrangement
import LinkGrammar.Validation.Pattern
import LinkGrammar.Validation.Place
import LinkGrammar.Validation.Basic
import LinkGrammar.Generation.Sentence
import LinkGrammar.Generation.Basic
import LinkGrammar.Cli.Invocation
import LinkGrammar.Cli.Benchmark
import LinkGrammar.Cli.Report
import LinkGrammar.Cli.Run
import LinkGrammar.Main
import LinkGrammar.Proofs.Text.Case
import LinkGrammar.Proofs.Text.Trim
import LinkGrammar.Proofs.Text.Pieces
import LinkGrammar.Proofs.Text.Fold
import LinkGrammar.Proofs.Text.Letters
import LinkGrammar.Proofs.Text.Lower
import LinkGrammar.Proofs.Connector.Compare
import LinkGrammar.Proofs.Bag.Arrangement
import LinkGrammar.Proofs.Bag.Count
import LinkGrammar.Proofs.Bag.InPlace
import LinkGrammar.Proofs.Formula.Expansion
import LinkGrammar.Proofs.Formula.Token
import LinkGrammar.Proofs.Formula.Reading
import LinkGrammar.Proofs.Formula.Canonical
import LinkGrammar.Proofs.Formula.RoundTrip
import LinkGrammar.Proofs.Formula.Mending
import LinkGrammar.Proofs.Formula.Repair
import LinkGrammar.Proofs.Formula.Settled
import LinkGrammar.Proofs.Formula.Orderly
import LinkGrammar.Proofs.Formula.Deletion
import LinkGrammar.Proofs.Formula.Region
import LinkGrammar.Proofs.Formula.Rendered
import LinkGrammar.Proofs.Formula.NormalForm
import LinkGrammar.Proofs.Formula.Parts
import LinkGrammar.Proofs.Formula.Idempotence
import LinkGrammar.Proofs.Formula.Skeleton
import LinkGrammar.Proofs.Formula.Phrase
import LinkGrammar.Proofs.Formula.Language
import LinkGrammar.Proofs.Formula.Leaves
import LinkGrammar.Proofs.Formula.Flat
import LinkGrammar.Proofs.Formula.Rounds
import LinkGrammar.Proofs.Formula.Dangling
import LinkGrammar.Proofs.Formula.Clean
import LinkGrammar.Proofs.Formula.Doubled
import LinkGrammar.Proofs.Formula.Substitution
import LinkGrammar.Proofs.Formula.Partner
import LinkGrammar.Proofs.Formula.Blame
import LinkGrammar.Proofs.Formula.Truncation
import LinkGrammar.Proofs.Formula.FirstRegion
import LinkGrammar.Proofs.Lexicon.Rule
import LinkGrammar.Proofs.Lexicon.Builder
import LinkGrammar.Proofs.Link.Answer
import LinkGrammar.Proofs.Link.Unknown
import LinkGrammar.Proofs.Link.Branching
import LinkGrammar.Proofs.Link.Attempt
import LinkGrammar.Proofs.Link.Minimal
import LinkGrammar.Proofs.Validation.Match
import LinkGrammar.Proofs.Validation.Coverage
import LinkGrammar.Proofs.Validation.Repeats
import LinkGrammar.Proofs.Validation.Idioms
import LinkGrammar.Proofs.Validation.Unknown
import LinkGrammar.Proofs.Validation.Keyword
import LinkGrammar.Proofs.Validation.Range
import LinkGrammar.Proofs.Generation.Sentence
import LinkGrammar.Proofs.Generation.Search
import LinkGrammar.Proofs.Generation.Order
import LinkGrammar.Proofs.Generation.Outcome
import LinkGrammar.Proofs.Generation.Spelling
import LinkGrammar.Proofs.Generation.Reordering
import LinkGrammar.Proofs.Generation.Splice
import LinkGrammar.Proofs.Generation.Wording
import LinkGrammar.Proofs.Generation.Placeholder
import LinkGrammar.Proofs.Dictionary.Entries
import LinkGrammar.Proofs.Dictionary.Abbreviation
import LinkGrammar.Proofs.Dictionary.Lines
import LinkGrammar.Proofs.Dictionary.Comment
import LinkGrammar.Proofs.Cli.Recovery
import LinkGrammar.Proofs.Cli.Tally
import LinkGrammar.Proofs.Cli.Misplaced
import LinkGrammar.Proofs.Cli.Inline
