import GridQuery.Stack
import GridQuery.Query.Family
import GridQuery.Main
import GridQuery.Proofs.PipelineIntake
import GridQuery.Proofs.CompiledQuery
import GridQuery.Proofs.ForcedConditions
import GridQuery.Proofs.FailedQueries
import GridQuery.Proofs.IndependentCopies
import GridQuery.Proofs.HelperSessions
import GridQuery.Proofs.DecimalNumerals
import GridQuery.Proofs.ScalarOperands
import GridQuery.Proofs.StoreCalls
import GridQuery.Proofs.AddressedDocuments
import GridQuery.Proofs.QueryAnswers
import GridQuery.Proofs.PageSlices
import GridQuery.Proofs.NestedValues
import GridQuery.Proofs.CallerErrors
import GridQuery.Proofs.ReadJson
import GridQuery.Proofs.QueryStrings
import GridQuery.Proofs.ListRequests
import GridQuery.Proofs.QueryVocabulary
import GridQuery.Proofs.WorkCourse
import GridQuery.Proofs.StoreFaults
import GridQuery.Proofs.DateReadings
import GridQuery.Proofs.DatedWrites
import GridQuery.Proofs.AccessLog
import GridQuery.Proofs.PageAccesses
import GridQuery.Proofs.SingleExecution
import GridQuery.Proofs.WholeResults
import GridQuery.Proofs.MomentTexts
import GridQuery.Proofs.SortTexts
import GridQuery.Proofs.FinalQueries
import GridQuery.Proofs.FilterBatches
import GridQuery.Proofs.NumeralGrammar
import GridQuery.Proofs.TextIdentifiers
import GridQuery.Proofs.DoubleRounding
import GridQuery.Proofs.FarIntegers
import GridQuery.Proofs.CalendarDays
import GridQuery.Proofs.EpochMillis
import GridQuery.Proofs.FloatMillis
import GridQuery.Proofs.DateCoercion
import GridQuery.Proofs.SortMerges
import GridQuery.Proofs.LiteralPatterns
import GridQuery.Proofs.IsoLayouts
import GridQuery.Proofs.ZuluTexts
import GridQuery.Proofs.TextEndings
import GridQuery.Proofs.NearestDouble
import GridQuery.Proofs.NumberOperands
import GridQuery.Proofs.FragmentOutcomes
import GridQuery.Proofs.PageBounds
import GridQuery.Proofs.SingleInputs
import GridQuery.Proofs.SharedContents
import GridQuery.Proofs.SettingsRouting
