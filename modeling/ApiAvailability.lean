import ApiAvailability.App
import ApiAvailability.CommandLine.Program
import ApiAvailability.Config.Load
import ApiAvailability.Main
import ApiAvailability.Rehearsal.World
import ApiAvailability.Proofs.Effects
import ApiAvailability.Proofs.Store.Answers
import ApiAvailability.Proofs.Pass.Fate
import ApiAvailability.Proofs.Observation.Lines
import ApiAvailability.Proofs.Pass.Account
import ApiAvailability.Proofs.Pass.Verdict
import ApiAvailability.Proofs.Pass.Growth
import ApiAvailability.Proofs.Files.Place
import ApiAvailability.Proofs.Files.Frame
import ApiAvailability.Proofs.Pass.Addition
import ApiAvailability.Proofs.Operator.Record
import ApiAvailability.Proofs.Pass.Repeat
import ApiAvailability.Proofs.Rehearsal.Steady
import ApiAvailability.Proofs.Pass.Stocked
import ApiAvailability.Proofs.Pass.Order
import ApiAvailability.Proofs.Operator.Edits
import ApiAvailability.Proofs.Pass.Mirror
import ApiAvailability.Proofs.Pass.Deeds
import ApiAvailability.Proofs.Pass.Due
import ApiAvailability.Proofs.Operator.Sharing
import ApiAvailability.Proofs.Pass.Failure
import ApiAvailability.Proofs.Files.Ways
import ApiAvailability.Proofs.Store.Absent
import ApiAvailability.Proofs.Pass.Refused
import ApiAvailability.Proofs.Pass.Untouched
import ApiAvailability.Proofs.Pass.Course
import ApiAvailability.Proofs.Text.Digits
import ApiAvailability.Proofs.Time.Calendar
import ApiAvailability.Proofs.Time.Written
import ApiAvailability.Proofs.Json.Lexemes
import ApiAvailability.Proofs.Json.Spelling
import ApiAvailability.Proofs.Json.Record
import ApiAvailability.Proofs.ApiService.Written
import ApiAvailability.Proofs.Operator.Written
import ApiAvailability.Proofs.Files.Reach
import ApiAvailability.Proofs.Files.Beside
import ApiAvailability.Proofs.Store.StatusFile
import ApiAvailability.Proofs.Store.Directory
import ApiAvailability.Proofs.Operator.Transition
import ApiAvailability.Proofs.Pass.Transition
import ApiAvailability.Proofs.Pass.Interleaved
import ApiAvailability.Proofs.Pass.Race
import ApiAvailability.Proofs.Pass.Independence
import ApiAvailability.Proofs.Store.Writers
import ApiAvailability.Proofs.Files.Missing
import ApiAvailability.Proofs.Pass.Reported
import ApiAvailability.Proofs.Text.Bytes
import ApiAvailability.Proofs.Observation.Ties
import ApiAvailability.Proofs.Pass.Lines
import ApiAvailability.Proofs.Pass.Convergence
import ApiAvailability.Proofs.Pass.Loop
import ApiAvailability.Proofs.Observation.Merge
import ApiAvailability.Proofs.Heard
import ApiAvailability.Proofs.Pass.Listening
import ApiAvailability.Proofs.Pass.Attempts
import ApiAvailability.Proofs.Pass.Trace
import ApiAvailability.Proofs.Config.Faults
import ApiAvailability.Proofs.Store.History
import ApiAvailability.Proofs.Store.Confined
import ApiAvailability.Proofs.Files.Extension
import ApiAvailability.Proofs.Store.Intact
import ApiAvailability.Proofs.Pass.Preserved
import ApiAvailability.Proofs.Pass.Names
