import LineCompletion.Dictionary.Write
import LineCompletion.Proofs.Line.Literals
import LineCompletion.Proofs.Suggest.ConsumedWord
import LineCompletion.Proofs.Suggest.KeptWords
import LineCompletion.Proofs.Suggest.OfferedKeys
import LineCompletion.Proofs.Line.Assigned
import LineCompletion.Proofs.Engine.Session
import LineCompletion.Proofs.Source.Publications
import LineCompletion.Proofs.Engine.QueueHistory
import LineCompletion.Proofs.Engine.RefreshMarks
import LineCompletion.Proofs.Library.History
import LineCompletion.Proofs.Suggest.OfferedValues
import LineCompletion.Proofs.Dictionary.Sources
import LineCompletion.Proofs.Engine.Loading
import LineCompletion.Proofs.Suggest.RepeatedKeys
import LineCompletion.Proofs.Suggest.AssignedValues
import LineCompletion.Proofs.Suggest.SpentSlots
import LineCompletion.Proofs.Engine.Moves
import LineCompletion.Proofs.Engine.Progress
import LineCompletion.Proofs.Engine.Faults
import LineCompletion.Proofs.Engine.Published
import LineCompletion.Proofs.Engine.Settling
import LineCompletion.Proofs.Cli.FailingSources
import LineCompletion.Proofs.Dictionary.WellFormed
import LineCompletion.Proofs.Source.Refreshing
import LineCompletion.Proofs.Line.LetterCase
import LineCompletion.Proofs.Suggest.LetterCase
import LineCompletion.Proofs.Document.Depth
import LineCompletion.Proofs.Dictionary.RoundTrip
import LineCompletion.Proofs.Source.LastResults
import LineCompletion.Proofs.Engine.Course
import LineCompletion.Proofs.Engine.Stepwise
import LineCompletion.Proofs.Engine.Lifecycle
import LineCompletion.Proofs.Engine.Barriers
import LineCompletion.Proofs.Engine.WakeUps
import LineCompletion.Proofs.Engine.Reloading
import LineCompletion.Proofs.Cli.CheckedPaths
import LineCompletion.Proofs.Cli.TextOutput
import LineCompletion.Proofs.Line.ClosedWords
import LineCompletion.Proofs.Line.EscapedKeys
import LineCompletion.Proofs.Suggest.LongerText
import LineCompletion.Proofs.Source.Freshness
import LineCompletion.Proofs.Library.Index
import LineCompletion.Proofs.Library.Directory
import LineCompletion.Proofs.Source.Renewal
import LineCompletion.Proofs.Engine.DueSources
import LineCompletion.Proofs.Dictionary.Initialization
import LineCompletion.Proofs.Job.PrintedItems
import LineCompletion.Proofs.Cli.Deadlines
import LineCompletion.Proofs.Settings.RoundTrip
import LineCompletion.Proofs.Suggest.Bounds
import LineCompletion.Proofs.Suggest.Sequence
