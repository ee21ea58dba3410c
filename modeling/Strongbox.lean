import Strongbox.Cipher.Request
import Strongbox.Config
import Strongbox.Key.Manager
import Strongbox.Program.LockTable
import Strongbox.Program.Together
import Strongbox.Rotation.Service
import Strongbox.Secret
import Strongbox.Services
import Strongbox.Storage.Location
import Strongbox.World
import Strongbox.Proofs.Bytes
import Strongbox.Proofs.Text.Base64
import Strongbox.Proofs.Token.Message
import Strongbox.Proofs.Token.Text
import Strongbox.Proofs.Password.Spelling
import Strongbox.Proofs.Program.Action
import Strongbox.Proofs.Time.Instant
import Strongbox.Proofs.Token.Issue
import Strongbox.Proofs.Account.Guard
import Strongbox.Proofs.Services.Run
import Strongbox.Proofs.Services.Access
import Strongbox.Proofs.Services.Retirement
import Strongbox.Proofs.Services.Lifecycle
import Strongbox.Proofs.Services.Context
import Strongbox.Proofs.Services.Status
import Strongbox.Proofs.Program.LockTable
import Strongbox.Proofs.Program.Runs
import Strongbox.Proofs.Program.Surroundings
import Strongbox.Proofs.Key.Pair
import Strongbox.Proofs.Key.Atomicity
import Strongbox.Proofs.Key.Form
import Strongbox.Proofs.Cipher.Aes
import Strongbox.Proofs.Cipher.Blob
import Strongbox.Proofs.Key.Operation
import Strongbox.Proofs.Key.Retention
import Strongbox.Proofs.Key.Catalogue
import Strongbox.Proofs.Key.Consistency
import Strongbox.Proofs.Time.Calendar
import Strongbox.Proofs.Time.Rfc3339
import Strongbox.Proofs.Json.RoundTrip
import Strongbox.Proofs.Cipher.Inverse
import Strongbox.Proofs.Storage.Vault
import Strongbox.Proofs.Program.Discipline
import Strongbox.Proofs.Storage.Interchange
import Strongbox.Proofs.Key.Custody
import Strongbox.Proofs.Key.Conduct
import Strongbox.Proofs.Key.Exclusion
import Strongbox.Proofs.Rotation.Version
import Strongbox.Proofs.Key.Creations
import Strongbox.Proofs.Rotation.Concurrent
import Strongbox.Proofs.Key.Isolation
import Strongbox.Proofs.Storage.Tampering
import Strongbox.Proofs.Rotation.Deadline
import Strongbox.Proofs.Records
import Strongbox.Proofs.Program.Confined
import Strongbox.Proofs.Program.Composed
import Strongbox.Proofs.Key.Composition
import Strongbox.Proofs.Account.Composition
import Strongbox.Proofs.Account.Operation
import Strongbox.Proofs.Storage.Separation
import Strongbox.Proofs.Password.Hashing
import Strongbox.Proofs.Account.Records
import Strongbox.Proofs.Account.Log
import Strongbox.Proofs.Text.Digits
import Strongbox.Proofs.Time.Days
import Strongbox.Proofs.Rotation.Countdown
import Strongbox.Proofs.Rotation.Listing
import Strongbox.Proofs.Program.Answers
import Strongbox.Proofs.Rotation.Minting
import Strongbox.Proofs.Rotation.Succession
import Strongbox.Proofs.Rotation.Settlement
import Strongbox.Proofs.Account.Hashing
import Strongbox.Proofs.Json.Indented
import Strongbox.Proofs.Json.Omission
import Strongbox.Proofs.Config
import Strongbox.Proofs.Program.Progress
import Strongbox.Proofs.Program.Serial
import Strongbox.Proofs.Key.Progress
import Strongbox.Proofs.Cipher.Failure
import Strongbox.Proofs.Account.Refusal
import Strongbox.Proofs.Account.Serial
