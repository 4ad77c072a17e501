import MediaWatch.Fixture.Reader
import MediaWatch.Main
import MediaWatch.Session.Play
import MediaWatch.Proofs.Engine.Cells
import MediaWatch.Proofs.Engine.Links
import MediaWatch.Proofs.Engine.Joining
import MediaWatch.Proofs.Engine.Parting
import MediaWatch.Proofs.Audience.Basic
import MediaWatch.Proofs.Condition.Identities
import MediaWatch.Proofs.Audience.Order
import MediaWatch.Proofs.Audience.Making
import MediaWatch.Proofs.Audience.Prospect
import MediaWatch.Proofs.Audience.Outlook
import MediaWatch.Proofs.Audience.Change
import MediaWatch.Proofs.Audience.Rest
import MediaWatch.Proofs.Audience.Accounting
import MediaWatch.Proofs.Audience.Reentrancy
import MediaWatch.Proofs.Audience.Ruling
import MediaWatch.Proofs.Audience.Alternation
import MediaWatch.Proofs.Audience.Stored
import MediaWatch.Proofs.Text.Cutting
import MediaWatch.Proofs.Text.Pieces
import MediaWatch.Proofs.Text.Joints
import MediaWatch.Proofs.Media.Reading
import MediaWatch.Proofs.Media.Grammar
import MediaWatch.Proofs.Condition.Meaning
import MediaWatch.Proofs.Condition.NormalForm
import MediaWatch.Proofs.Condition.Written
import MediaWatch.Proofs.Query.Grammar
import MediaWatch.Proofs.Query.Native
import MediaWatch.Proofs.Query.Shortcut
import MediaWatch.Proofs.Query.Legible
import MediaWatch.Proofs.Query.Canonical
import MediaWatch.Proofs.Rule.Layering
import MediaWatch.Proofs.Rule.Resolution
import MediaWatch.Proofs.Decimal.Whole
import MediaWatch.Proofs.Shortcut.Breakpoint
import MediaWatch.Proofs.Query.Caseless
import MediaWatch.Proofs.Rule.Pairing
import MediaWatch.Proofs.Audience.Attendance
import MediaWatch.Proofs.Audience.Recorded
import MediaWatch.Proofs.Text.Bytes
import MediaWatch.Proofs.Fixture.Reference
import MediaWatch.Proofs.Audience.Recall
import MediaWatch.Proofs.Rule.Traced
import MediaWatch.Proofs.Media.Malformed
import MediaWatch.Proofs.Media.Spacing
import MediaWatch.Proofs.Rule.Rereading
import MediaWatch.Proofs.Shortcut.Priority
import MediaWatch.Proofs.Query.Barless
import MediaWatch.Proofs.Config.Building
import MediaWatch.Proofs.Media.Setting
import MediaWatch.Proofs.Shortcut.Naming
import MediaWatch.Proofs.Shortcut.Device
import MediaWatch.Proofs.Value.Agreement
import MediaWatch.Proofs.Audience.Baseline
import MediaWatch.Proofs.Engine.Snapshot
import MediaWatch.Proofs.Audience.Conduct
