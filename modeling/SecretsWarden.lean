import SecretsWarden.Admission.Disabling
import SecretsWarden.Admission.MediaType
import SecretsWarden.Admission.Review
import SecretsWarden.Admission.Router
import SecretsWarden.Backoff
import SecretsWarden.Binary64.Magnitude
import SecretsWarden.Binary64.Reading
import SecretsWarden.Binary64.Shortest
import SecretsWarden.Cluster.Client
import SecretsWarden.Cluster.Discovery
import SecretsWarden.Cluster.Error
import SecretsWarden.Cluster.Reply
import SecretsWarden.Cluster.Request
import SecretsWarden.Cluster.Script
import SecretsWarden.Cluster.Watch
import SecretsWarden.Cluster.Watcher
import SecretsWarden.Command
import SecretsWarden.Controller
import SecretsWarden.Dialogue.Basic
import SecretsWarden.Dialogue.Run
import SecretsWarden.Dialogue.Turns
import SecretsWarden.Duration
import SecretsWarden.Failure
import SecretsWarden.Injection
import SecretsWarden.Instant
import SecretsWarden.Json.Decode
import SecretsWarden.Json.MergePatch
import SecretsWarden.Json.Number
import SecretsWarden.Json.Parser
import SecretsWarden.Json.Printer
import SecretsWarden.Json.Raw
import SecretsWarden.Json.Reader
import SecretsWarden.Json.Shape
import SecretsWarden.Json.Value
import SecretsWarden.Json.Yaml
import SecretsWarden.Main
import SecretsWarden.Manifest
import SecretsWarden.Operator
import SecretsWarden.Reconcile
import SecretsWarden.Resource.Condition
import SecretsWarden.Resource.Definition
import SecretsWarden.Resource.Meta
import SecretsWarden.Resource.SecretsConfig
import SecretsWarden.Resource.Store
import SecretsWarden.Settings
import SecretsWarden.StatusRecord
import SecretsWarden.Text.Base64
import SecretsWarden.Text.Blank
import SecretsWarden.Text.Numeral
import SecretsWarden.Text.Printable
import SecretsWarden.Text.Quoted
import SecretsWarden.Text.Utf8
import SecretsWarden.Usage.Cache
import SecretsWarden.Usage.Informers
import SecretsWarden.Usage.Report
import SecretsWarden.Usage.Strategy
import SecretsWarden.Proofs.Cluster.Exchange
import SecretsWarden.Proofs.Admission.FailClosed
import SecretsWarden.Proofs.Json.MergePatch
import SecretsWarden.Proofs.Json.Decode
import SecretsWarden.Proofs.Resource.Condition
import SecretsWarden.Proofs.Resource.Reading
import SecretsWarden.Proofs.Cluster.Address
import SecretsWarden.Proofs.Cluster.ApiServer
import SecretsWarden.Proofs.Cluster.Concurrent
import SecretsWarden.Proofs.Dialogue.Tries
import SecretsWarden.Proofs.Dialogue.Calls
import SecretsWarden.Proofs.StatusRecord.Cycle
import SecretsWarden.Proofs.StatusRecord.Patch
import SecretsWarden.Proofs.StatusRecord.NoLostUpdate
import SecretsWarden.Proofs.Injection.Sweep
import SecretsWarden.Proofs.Reconcile.Course
import SecretsWarden.Proofs.Reconcile.Phases
import SecretsWarden.Proofs.Resource.Definition
import SecretsWarden.Proofs.Cluster.Serving
import SecretsWarden.Proofs.Injection.Serving
import SecretsWarden.Proofs.Reconcile.Convergence
import SecretsWarden.Proofs.StatusRecord.Repeat
import SecretsWarden.Proofs.Reconcile.Quiescence
import SecretsWarden.Proofs.Reconcile.Interleaving
import SecretsWarden.Proofs.Reconcile.Decision
import SecretsWarden.Proofs.Reconcile.Generation
import SecretsWarden.Proofs.Reconcile.Attempts
import SecretsWarden.Proofs.Resource.History
import SecretsWarden.Proofs.Cluster.Discovery
import SecretsWarden.Proofs.Usage.Agreement
import SecretsWarden.Proofs.Json.Record
import SecretsWarden.Proofs.Usage.FirstLists
import SecretsWarden.Proofs.Resource.Written
import SecretsWarden.Proofs.StatusRecord.ReadBack
import SecretsWarden.Proofs.StatusRecord.Protocol
import SecretsWarden.Proofs.StatusRecord.Refinement
import SecretsWarden.Proofs.Injection.FirstFailure
import SecretsWarden.Proofs.Usage.FirstDecision
import SecretsWarden.Proofs.Usage.ExactReport
import SecretsWarden.Proofs.Cluster.History
import SecretsWarden.Proofs.Reconcile.Absence
import SecretsWarden.Proofs.Reconcile.SideBySide
import SecretsWarden.Proofs.Resource.Change
import SecretsWarden.Proofs.Resource.Commuting
import SecretsWarden.Proofs.Reconcile.Requeue
import SecretsWarden.Proofs.Text.Numeral
import SecretsWarden.Proofs.Text.Utf8
import SecretsWarden.Proofs.Settings.Grammar
import SecretsWarden.Proofs.Cluster.Polling
import SecretsWarden.Proofs.Usage.TellingApart
import SecretsWarden.Proofs.Except
import SecretsWarden.Proofs.Cluster.Others
import SecretsWarden.Proofs.Controller.Questions
import SecretsWarden.Proofs.Controller.Schedule
import SecretsWarden.Proofs.Controller.Waiting
import SecretsWarden.Proofs.Operator.Run
import SecretsWarden.Proofs.Usage.Caches
import SecretsWarden.Proofs.Admission.Webhook
