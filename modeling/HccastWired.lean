import HccastWired.Advanced.HealthLog
import HccastWired.Advanced.Safety
import HccastWired.Calibration.CandidateVeto
import HccastWired.Calibration.CheckedSelection
import HccastWired.Calibration.LossCompleteness
import HccastWired.Calibration.NormalForm
import HccastWired.Calibration.ReceiptOrder
import HccastWired.Calibration.Redelivery
import HccastWired.Calibration.SelectionTotal
import HccastWired.Desktop.ChildOwnership
import HccastWired.Desktop.ConfigurationTotal
import HccastWired.Desktop.ControllerSafety
import HccastWired.Desktop.OutputPosition
import HccastWired.Desktop.ResetRecovery
import HccastWired.Foundation.Checked
import HccastWired.Foundation.Path
import HccastWired.Install.OutsideEdits
import HccastWired.Live.AttemptLifecycle
import HccastWired.Live.ConfigRoundTrip
import HccastWired.Live.HardwareRelease
import HccastWired.Live.PersistedIntent
import HccastWired.Live.ReadBoundaries
import HccastWired.Live.Reconciliation
import HccastWired.Live.RetryBackoff
import HccastWired.Live.RunEvidence
import HccastWired.Live.StatusTruth
import HccastWired.Live.SupervisorSafety
import HccastWired.Network.DisconnectCleanup
import HccastWired.Network.ReceiverAddress
import HccastWired.Network.RequestContext
import HccastWired.Network.RestoreDeadline
import HccastWired.Network.RetryGuard
import HccastWired.Network.SinkParser
import HccastWired.Packaging.PlanAcceptance
import HccastWired.Protocol.ByteConservation
import HccastWired.Protocol.RoundTrip
import HccastWired.Pump.ByteDelivery
import HccastWired.Session.FailStop
import HccastWired.Telemetry.CountAgreement
import HccastWired.Telemetry.LossExactness
import HccastWired.Telemetry.RateExactness
import HccastWired.Telemetry.TimingHonesty
import HccastWired.Ui.PendingCommands
import HccastWired.Usb.GadgetOwnership
import HccastWired.Usb.ProbeBoundary
import HccastWired.Video.PacketLimit
import HccastWired.Video.UnitExactness
import HccastWired.Watch.AutomaticStart
import HccastWired.Wfd.AdvertisedMode
import HccastWired.Wfd.ExitStatus
