import LoginSession.CommandLine.Quote
import LoginSession.Main
import LoginSession.Proofs.Callbacks
import LoginSession.Proofs.Cancellation
import LoginSession.Proofs.Delivery
import LoginSession.Proofs.Diagnosis
import LoginSession.Proofs.HelperChoice
import LoginSession.Proofs.HelperCommand
import LoginSession.Proofs.Isolation
import LoginSession.Proofs.JsonPrinting
import LoginSession.Proofs.LifeCycle
import LoginSession.Proofs.LineOutput
import LoginSession.Proofs.Merge
import LoginSession.Proofs.Noninterference
import LoginSession.Proofs.SharedAttempt
import LoginSession.Proofs.Registrations
import LoginSession.Proofs.Transaction
import LoginSession.Proofs.WireFormat
import LoginSession.Supervisor.Children
import LoginSession.Proofs.Decoding
import LoginSession.Proofs.WholeOutput
import LoginSession.Proofs.LastWins
import LoginSession.Proofs.ReportLines
import LoginSession.Proofs.Saturation
import LoginSession.Proofs.MapView
import LoginSession.Proofs.CleanExit
import LoginSession.Proofs.Assignments
import LoginSession.Proofs.OptionOrder
