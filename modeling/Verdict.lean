import Verdict.Balanced.Adder
import Verdict.Blueprint.Evaluation
import Verdict.Blueprint.Reading
import Verdict.Cache
import Verdict.Canonical
import Verdict.Circuit
import Verdict.CommandLine
import Verdict.Document.Loading
import Verdict.Draft
import Verdict.Engine
import Verdict.Json.Reader
import Verdict.Log
import Verdict.Log.Decision
import Verdict.Log.Template
import Verdict.Logic
import Verdict.Main
import Verdict.Noise
import Verdict.Proofs.Memo
import Verdict.Proofs.Replay
import Verdict.Proofs.SameKey
import Verdict.Proofs.ShuntingYard
import Verdict.Sequence
import Verdict.Settings
import Verdict.Shortcut
import Verdict.Value.Stamp
import Verdict.Yaml.Reader
import Verdict.Proofs.Expiry
import Verdict.Proofs.Failures
import Verdict.Proofs.Phrases
import Verdict.Proofs.Balance
import Verdict.Proofs.Conversion
import Verdict.Proofs.Acceptance
import Verdict.Proofs.Raising
import Verdict.Proofs.Integrity
import Verdict.Proofs.References
import Verdict.Proofs.Numerals
import Verdict.Proofs.Information
import Verdict.Proofs.Hits
import Verdict.Proofs.Comparison
import Verdict.Proofs.Monotonicity
import Verdict.Proofs.Isolation
import Verdict.Proofs.Circuits
import Verdict.Proofs.Records
import Verdict.Proofs.Schedules
import Verdict.Proofs.Lookalikes
import Verdict.Proofs.Levels
import Verdict.Proofs.Fragments
import Verdict.Proofs.Heights
import Verdict.Proofs.Registrations
import Verdict.Proofs.NumeralForms
import Verdict.Proofs.Inversion
import Verdict.Proofs.Codes
import Verdict.Proofs.Ballots
import Verdict.Proofs.Duality
import Verdict.Proofs.Noise
import Verdict.Proofs.Requirements
import Verdict.Proofs.Complaints
import Verdict.Proofs.Outputs
import Verdict.Proofs.Drafts
import Verdict.Proofs.Labels
import Verdict.Proofs.Sweeps
