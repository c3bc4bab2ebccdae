import NodeFeatureOperator.Client.Endpoint
import NodeFeatureOperator.Client.Exchange
import NodeFeatureOperator.Client.StatusDocument
import NodeFeatureOperator.Client.Watch
import NodeFeatureOperator.Cluster.Call
import NodeFeatureOperator.Cluster.Program
import NodeFeatureOperator.Cluster.Rehearsal
import NodeFeatureOperator.Cluster.Store
import NodeFeatureOperator.CommandLine
import NodeFeatureOperator.Component.Basic
import NodeFeatureOperator.Component.Blueprint
import NodeFeatureOperator.Component.Build
import NodeFeatureOperator.Component.Ownership
import NodeFeatureOperator.Component.Pod
import NodeFeatureOperator.Dict
import NodeFeatureOperator.Digest.Sha256
import NodeFeatureOperator.Double.Basic
import NodeFeatureOperator.Double.Decimal
import NodeFeatureOperator.Drift
import NodeFeatureOperator.Duration
import NodeFeatureOperator.Failure
import NodeFeatureOperator.Http.Message
import NodeFeatureOperator.Http.Target
import NodeFeatureOperator.Json.Basic
import NodeFeatureOperator.Json.Halt
import NodeFeatureOperator.Json.Numeral
import NodeFeatureOperator.Json.Objection
import NodeFeatureOperator.Json.Piece
import NodeFeatureOperator.Json.Pointer
import NodeFeatureOperator.Json.Printer
import NodeFeatureOperator.Json.Reader
import NodeFeatureOperator.Json.Written
import NodeFeatureOperator.Json.Yaml
import NodeFeatureOperator.Main
import NodeFeatureOperator.Managed.JobState
import NodeFeatureOperator.Managed.Kind
import NodeFeatureOperator.Managed.Object
import NodeFeatureOperator.Managed.Schema
import NodeFeatureOperator.Managed.Schema.Document
import NodeFeatureOperator.Managed.Schema.Objection
import NodeFeatureOperator.Managed.Schema.Pod
import NodeFeatureOperator.Managed.Schema.Volume
import NodeFeatureOperator.Managed.Schema.Workload
import NodeFeatureOperator.Power
import NodeFeatureOperator.Reconcile.Converge
import NodeFeatureOperator.Reconcile.Health
import NodeFeatureOperator.Reconcile.Pass
import NodeFeatureOperator.Reconcile.Poll
import NodeFeatureOperator.Reconcile.Scenario
import NodeFeatureOperator.Reconcile.Teardown
import NodeFeatureOperator.Resource.Condition
import NodeFeatureOperator.Resource.Definition
import NodeFeatureOperator.Resource.Field
import NodeFeatureOperator.Resource.Metadata
import NodeFeatureOperator.Resource.NodeFeatureDiscovery
import NodeFeatureOperator.Resource.Spec
import NodeFeatureOperator.Resource.Toleration
import NodeFeatureOperator.Table
import NodeFeatureOperator.Text.Base64
import NodeFeatureOperator.Text.Blank
import NodeFeatureOperator.Text.Displayed
import NodeFeatureOperator.Text.FormEncoded
import NodeFeatureOperator.Text.Hex
import NodeFeatureOperator.Text.Invisible
import NodeFeatureOperator.Text.Quoted
import NodeFeatureOperator.Time.Basic
import NodeFeatureOperator.Time.Calendar
import NodeFeatureOperator.Time.Reader
import NodeFeatureOperator.Proofs.Teardown
import NodeFeatureOperator.Proofs.Build
import NodeFeatureOperator.Proofs.Converge
import NodeFeatureOperator.Proofs.Pass
import NodeFeatureOperator.Proofs.Release
import NodeFeatureOperator.Proofs.World
import NodeFeatureOperator.Proofs.Leftovers
import NodeFeatureOperator.Proofs.PruneOnce
import NodeFeatureOperator.Proofs.PruneStep
import NodeFeatureOperator.Proofs.Ownership
import NodeFeatureOperator.Proofs.Commons
import NodeFeatureOperator.Proofs.Quiet
import NodeFeatureOperator.Proofs.Settled
import NodeFeatureOperator.Proofs.SteadyState
import NodeFeatureOperator.Proofs.Causes
import NodeFeatureOperator.Proofs.Retry
import NodeFeatureOperator.Proofs.Conflict
import NodeFeatureOperator.Proofs.Versions
import NodeFeatureOperator.Proofs.LostUpdate
import NodeFeatureOperator.Proofs.Amendment
import NodeFeatureOperator.Proofs.Records
import NodeFeatureOperator.Proofs.Coverage
import NodeFeatureOperator.Proofs.Controller
import NodeFeatureOperator.Proofs.Footprint
import NodeFeatureOperator.Proofs.Availability
import NodeFeatureOperator.Proofs.Extension
import NodeFeatureOperator.Proofs.Recognition
import NodeFeatureOperator.Proofs.Rollout
import NodeFeatureOperator.Proofs.Attendance
import NodeFeatureOperator.Proofs.Modes
import NodeFeatureOperator.Proofs.Faults
import NodeFeatureOperator.Proofs.Isolation
import NodeFeatureOperator.Proofs.Atomicity
import NodeFeatureOperator.Proofs.Repair
import NodeFeatureOperator.Proofs.ConfigData
import NodeFeatureOperator.Proofs.Restriction
import NodeFeatureOperator.Proofs.Departure
import NodeFeatureOperator.Proofs.Residue
import NodeFeatureOperator.Proofs.Interference
import NodeFeatureOperator.Proofs.Upkeep
import NodeFeatureOperator.Proofs.Upgrade
import NodeFeatureOperator.Proofs.Calendar
import NodeFeatureOperator.Proofs.TimeText
import NodeFeatureOperator.Proofs.Ordered
import NodeFeatureOperator.Proofs.ReadBack
import NodeFeatureOperator.Proofs.Normal
import NodeFeatureOperator.Proofs.Verdict
import NodeFeatureOperator.Proofs.Report
import NodeFeatureOperator.Proofs.Finalizers
import NodeFeatureOperator.Proofs.Absence
import NodeFeatureOperator.Proofs.Classification
import NodeFeatureOperator.Proofs.MasterArguments
import NodeFeatureOperator.Proofs.Waiting
import NodeFeatureOperator.Proofs.Drift
import NodeFeatureOperator.Proofs.Digest
import NodeFeatureOperator.Proofs.Proper
import NodeFeatureOperator.Proofs.Unambiguous
