import InputGauge.Main
import InputGauge.Proofs.Motion.Peak
import InputGauge.Proofs.Watch.Batches
import InputGauge.Proofs.Watch.Drain
import InputGauge.Proofs.Session.Delivery
import InputGauge.Proofs.Extent.Report
import InputGauge.Proofs.Adjustment.History
import InputGauge.Proofs.CommandLine.Grammar
import InputGauge.Proofs.Motion.Rank
import InputGauge.Proofs.CommandLine.Idle
import InputGauge.Proofs.Host
import InputGauge.Proofs.Tool.Tweak
import InputGauge.Proofs.Watch.Course
import InputGauge.Proofs.Session.Course
import InputGauge.Proofs.Session.Holding
import InputGauge.Proofs.Tool.Measure
import InputGauge.Proofs.Ring.Changes
import InputGauge.Proofs.Motion.Gaps
import InputGauge.Proofs.Motion.Steady
import InputGauge.Proofs.Motion.Shift
import InputGauge.Proofs.Device.Identity
import InputGauge.Proofs.Extent.Legible
import InputGauge.Proofs.Extent.Live
import InputGauge.Proofs.Binary64.Decimal
import InputGauge.Proofs.Watch.Row
import InputGauge.Proofs.Extent.Width
import InputGauge.Proofs.Motion.Width
import InputGauge.Proofs.Watch.Replaced
import InputGauge.Proofs.Watch.Polls
import InputGauge.Proofs.Device.Names
import InputGauge.Proofs.CommandLine.Device
