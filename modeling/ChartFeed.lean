import ChartFeed.Api.Start
import ChartFeed.Proofs.Api.Key
import ChartFeed.Proofs.Calendar.Days
import ChartFeed.Proofs.Calendar.Written
import ChartFeed.Proofs.Cell.Nesting
import ChartFeed.Proofs.Chart.Groups
import ChartFeed.Proofs.Credential.Aes
import ChartFeed.Proofs.Credential.Block
import ChartFeed.Proofs.Credential.Faults
import ChartFeed.Proofs.Credential.RoundTrip
import ChartFeed.Proofs.Credential.StoredForm
import ChartFeed.Proofs.Edit.Commuting
import ChartFeed.Proofs.Edit.Path
import ChartFeed.Proofs.Edit.Pruning
import ChartFeed.Proofs.Edit.Target
import ChartFeed.Proofs.Edit.Undo
import ChartFeed.Proofs.Filter.Cleaning
import ChartFeed.Proofs.Filter.Coding
import ChartFeed.Proofs.Filter.Columns
import ChartFeed.Proofs.Filter.Compaction
import ChartFeed.Proofs.Filter.Condition
import ChartFeed.Proofs.Filter.GroupTree
import ChartFeed.Proofs.Filter.Leaves
import ChartFeed.Proofs.Filter.Meaning
import ChartFeed.Proofs.Filter.Negation
import ChartFeed.Proofs.Filter.NormalForm
import ChartFeed.Proofs.Filter.Range
import ChartFeed.Proofs.Filter.Regrouping
import ChartFeed.Proofs.Filter.Warnings
import ChartFeed.Proofs.Filter.Wire
import ChartFeed.Proofs.Json.Reading
import ChartFeed.Proofs.Json.Writing
import ChartFeed.Proofs.Query.Flatten
import ChartFeed.Proofs.Scalar.Numeral
import ChartFeed.Proofs.Snapshot.Atomic
import ChartFeed.Proofs.Snapshot.Coding
import ChartFeed.Proofs.Snapshot.Files
import ChartFeed.Proofs.Snapshot.Preview
import ChartFeed.Proofs.Snapshot.Replay
import ChartFeed.Proofs.Snapshot.Run
import ChartFeed.Proofs.Snapshot.Secrecy
import ChartFeed.Proofs.Snapshot.Shelves
import ChartFeed.Proofs.Snapshot.Stages
import ChartFeed.Proofs.Snapshot.Store
import ChartFeed.Proofs.Snapshot.Task
import ChartFeed.Proofs.Snapshot.WriteOnce
import ChartFeed.Proofs.Source.Chain
import ChartFeed.Proofs.Source.Replies
import ChartFeed.Proofs.Source.Sweep
import ChartFeed.Proofs.Source.Tokens
import ChartFeed.Proofs.Text.Step
import ChartFeed.Proofs.Text.Trim
