import RecordSql.Builder.Request
import RecordSql.Proofs.Names
import RecordSql.Proofs.Pieces
import RecordSql.Proofs.Stock
import RecordSql.Proofs.Placeholders
import RecordSql.Proofs.Masked
import RecordSql.Proofs.TwoRuns
import RecordSql.Proofs.SafeNames
import RecordSql.Proofs.Formula
import RecordSql.Proofs.Clause
import RecordSql.Proofs.Meaning
import RecordSql.Proofs.StoredSearch
import RecordSql.Proofs.Resolution
import RecordSql.Proofs.BatchVariables
import RecordSql.Proofs.Agreement
import RecordSql.Proofs.Templates
import RecordSql.Proofs.BatchSteps
import RecordSql.Proofs.ValueTypes
import RecordSql.Proofs.KeyRestriction
import RecordSql.Proofs.WrittenRows
import RecordSql.Proofs.Renumbering
import RecordSql.Proofs.UnlinkedBatch
import RecordSql.Proofs.TwoDialects
import RecordSql.Proofs.Uses
import RecordSql.Proofs.Weaving
import RecordSql.Proofs.Parts
import RecordSql.Proofs.Carrying
import RecordSql.Proofs.Columns
import RecordSql.Proofs.SameRows
import RecordSql.Proofs.KeyCalls
import RecordSql.Proofs.KeyManagement
import RecordSql.Proofs.UnlinkedAnswers
import RecordSql.Proofs.Refusals
import RecordSql.Proofs.Quoting
import RecordSql.Proofs.ComparedValues
import RecordSql.Proofs.TypedParameters
import RecordSql.Proofs.OwnedValues
import RecordSql.Proofs.LinkedFields
import RecordSql.Proofs.SelectList
import RecordSql.Proofs.ResultColumns
import RecordSql.Proofs.Suffixes
import RecordSql.Proofs.AnsweredListings
import RecordSql.Proofs.Grouping
import RecordSql.Proofs.AggregateColumns
import RecordSql.Proofs.Cells
import RecordSql.Proofs.InsertedValues
import RecordSql.Proofs.NamedUpdates
import RecordSql.Proofs.Pages
import RecordSql.Proofs.ReturnedKeys
import RecordSql.Proofs.SearchGrammar
import RecordSql.Proofs.StableValues
import RecordSql.Proofs.GlobalSearch
import RecordSql.Proofs.QuotedTokens
import RecordSql.Proofs.WellFormedEntities
import RecordSql.Proofs.ShortestDigits
import RecordSql.Proofs.PrintedDecimals
import RecordSql.Proofs.ExampleValues
import RecordSql.Proofs.StoredEntities
import RecordSql.Proofs.JoinDeclarations
import RecordSql.Proofs.WholeNumbers
import RecordSql.Proofs.HexTexts
