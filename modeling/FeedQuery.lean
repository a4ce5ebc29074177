import FeedQuery.Filter.OperatorName
import FeedQuery.Main
import FeedQuery.Sample
import FeedQuery.Session
import FeedQuery.Proofs.CommandLine.Posts
import FeedQuery.Proofs.Filter.Congruence
import FeedQuery.Proofs.Filter.Faults
import FeedQuery.Proofs.Filter.Meaning
import FeedQuery.Proofs.Filter.Reading
import FeedQuery.Proofs.Filter.RoundTrip
import FeedQuery.Proofs.Log.Matches
import FeedQuery.Proofs.Log.Pages
import FeedQuery.Proofs.Outcome
import FeedQuery.Proofs.Service.Posts
import FeedQuery.Proofs.Store.Client
import FeedQuery.Proofs.Store.Faults
import FeedQuery.Proofs.Stream.Interleaving
import FeedQuery.Proofs.Stream.Laziness
import FeedQuery.Proofs.Text.Cut
import FeedQuery.Proofs.Query.RoundTrip
import FeedQuery.Proofs.Service.Spelling
import FeedQuery.Proofs.Service.Calls
import FeedQuery.Proofs.Store.Growth
import FeedQuery.Proofs.Environment.Files
import FeedQuery.Proofs.Filter.WireForm
import FeedQuery.Proofs.Log.Fetch
import FeedQuery.Proofs.Log.Lines
import FeedQuery.Proofs.Settings.LastValues
import FeedQuery.Proofs.Message.WrittenForm
import FeedQuery.Proofs.Filter.Exchange
import FeedQuery.Proofs.Filter.Operands
import FeedQuery.Proofs.Filter.Laws
import FeedQuery.Proofs.Filter.Skeleton
import FeedQuery.Proofs.Predicate.Pattern
import FeedQuery.Proofs.Predicate.Visible
import FeedQuery.Proofs.Environment.Lines
import FeedQuery.Proofs.Filter.Arity
import FeedQuery.Proofs.Log.Windows
import FeedQuery.Proofs.Message.WrittenValues
import FeedQuery.Proofs.Filter.Paths
import FeedQuery.Proofs.Query.Nesting
