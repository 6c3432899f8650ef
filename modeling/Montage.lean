import Montage.Main
import Montage.Media.Trial
import Montage.Program.Trial
import Montage.Proofs.Store.Order
import Montage.Session.Run
import Montage.Proofs.Timeline.Basic
import Montage.Proofs.Timeline.Change
import Montage.Proofs.Desk.Conduct
import Montage.Proofs.Desk.Lookup
import Montage.Proofs.Desk.Edits
import Montage.Proofs.Desk.Range
import Montage.Proofs.Desk.Execute
import Montage.Proofs.Timeline.Chart
import Montage.Proofs.Desk.Deeds
import Montage.Proofs.Desk.History
import Montage.Proofs.Desk.Manner
import Montage.Proofs.Desk.Evaluate
import Montage.Proofs.Desk.Memo
import Montage.Proofs.Desk.Reentrant
import Montage.Proofs.Double.Error
import Montage.Proofs.Double.Sum
import Montage.Proofs.Timecode.Stamp
import Montage.Proofs.Command.Canonical
import Montage.Proofs.Command.Writable
import Montage.Proofs.Desk.Scratch
import Montage.Proofs.Desk.Incremental
import Montage.Proofs.Watch.Basic
import Montage.Proofs.Watch.Nudge
import Montage.Proofs.Watch.Drift
import Montage.Proofs.Timeline.Complete
import Montage.Proofs.Watch.Lossless
import Montage.Proofs.Watch.Latest
import Montage.Proofs.Desk.Unchanged
import Montage.Proofs.Desk.DirectCut
import Montage.Proofs.Desk.Overtaken
import Montage.Proofs.Desk.Discard
import Montage.Proofs.Text.Number
import Montage.Proofs.Double.Decimal
import Montage.Proofs.Header.Fraction
import Montage.Proofs.Header.Form
import Montage.Proofs.Header.Value
import Montage.Proofs.Header.Directive
import Montage.Proofs.Header.RoundTrip
import Montage.Proofs.Timecode.Reading
import Montage.Proofs.Command.Regenerate
import Montage.Proofs.Store.Change
import Montage.Proofs.Desk.StoreCall
import Montage.Proofs.Desk.Ledger
import Montage.Proofs.Desk.Orderly
import Montage.Proofs.Desk.Nesting
import Montage.Proofs.Desk.Mirror
import Montage.Proofs.Scene.Numbers
import Montage.Proofs.Script.Numbers
import Montage.Proofs.Desk.Numbers
import Montage.Proofs.Coalescer.Interleaving
import Montage.Proofs.Scene.RoundTrip
import Montage.Proofs.Coalescer.Clock
import Montage.Proofs.Desk.Traceless
import Montage.Proofs.Desk.Cuts
import Montage.Proofs.Desk.Parting
import Montage.Proofs.Desk.Presenting
import Montage.Proofs.Desk.Sharing
import Montage.Proofs.Desk.Erasure
import Montage.Proofs.Scene.Partition
import Montage.Proofs.Scene.Content
import Montage.Proofs.Timecode.Lossless
import Montage.Proofs.Header.Line
import Montage.Proofs.Header.Meaning
import Montage.Proofs.Header.WellFormed
import Montage.Proofs.Double.Value
import Montage.Proofs.Header.Closeness
import Montage.Proofs.Command.Grammar
import Montage.Proofs.Command.Load
import Montage.Proofs.RangePicker.Line
import Montage.Proofs.Desk.Reportable
import Montage.Proofs.Desk.Subscription
import Montage.Proofs.Coalescer.Flush
import Montage.Proofs.Media.Prober
import Montage.Proofs.Desk.Assembly
import Montage.Proofs.Header.Body
import Montage.Proofs.Scene.Empty
import Montage.Proofs.Header.Recovery
