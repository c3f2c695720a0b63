import OperandLifecycle.Number.Binary64
import OperandLifecycle.Number.Shortest
import OperandLifecycle.Json.Value
import OperandLifecycle.Json.Parse
import OperandLifecycle.Json.Print
import OperandLifecycle.Json.Overlay
import OperandLifecycle.Json.Display
import OperandLifecycle.Failure
import OperandLifecycle.Text.Blank
import OperandLifecycle.Text.Bytes
import OperandLifecycle.Text.Literal
import OperandLifecycle.Text.Case
import OperandLifecycle.Digest.Sha1
import OperandLifecycle.Clock
import OperandLifecycle.Cluster.Selector
import OperandLifecycle.Json.Path
import OperandLifecycle.Json.Order
import OperandLifecycle.Status.Phase
import OperandLifecycle.Status.Members
import OperandLifecycle.Status.Conditions
import OperandLifecycle.Status.Change
import OperandLifecycle.Event
import OperandLifecycle.Resource.Basic
import OperandLifecycle.Resource.Registry
import OperandLifecycle.Resource.Config
import OperandLifecycle.Resource.Request
import OperandLifecycle.Resource.BindInfo
import OperandLifecycle.Catalog.Examples
import OperandLifecycle.Service.Answer
import OperandLifecycle.Service.Request
import OperandLifecycle.Service.Status
import OperandLifecycle.Service.Values
import OperandLifecycle.Config.Validation
import OperandLifecycle.Config.Settings
import OperandLifecycle.Reconcile.Controller
import OperandLifecycle.Samples
import OperandLifecycle.Service.Resources
import OperandLifecycle.Service.Library
import OperandLifecycle.Service.Dispatch
import OperandLifecycle.Cluster.Store
import OperandLifecycle.Cluster.Faults
import OperandLifecycle.Cluster.Client
import OperandLifecycle.Cluster.Ownership
import OperandLifecycle.Event.Record
import OperandLifecycle.Catalog.Lookup
import OperandLifecycle.Catalog.Referents
import OperandLifecycle.Reconcile.Requeue
import OperandLifecycle.Reconcile.Session
import OperandLifecycle.Controllers.Basic
import OperandLifecycle.Controllers.Registry
import OperandLifecycle.Controllers.Config
import OperandLifecycle.Controllers.BindInfo
import OperandLifecycle.Controllers.Request
import OperandLifecycle.Reconcile.Manager
import OperandLifecycle.Json.Patch
import OperandLifecycle.Service.Scenario
import OperandLifecycle.Cluster.Api
import OperandLifecycle.Cluster.Live
import OperandLifecycle.Service.Live
import OperandLifecycle.Text.Printable
import OperandLifecycle.Text.CaseProperties
import OperandLifecycle.Proofs.Equality
import OperandLifecycle.Proofs.Table
import OperandLifecycle.Proofs.Members
import OperandLifecycle.Proofs.Store
import OperandLifecycle.Proofs.Operations
import OperandLifecycle.Proofs.Cluster
import OperandLifecycle.Proofs.Calls
import OperandLifecycle.Proofs.Lifecycle
import OperandLifecycle.Proofs.StaleUpdates
import OperandLifecycle.Proofs.RequestMembers
import OperandLifecycle.Proofs.Reads
import OperandLifecycle.Proofs.References
import OperandLifecycle.Proofs.Injection
import OperandLifecycle.Proofs.RegistryStatus
import OperandLifecycle.Proofs.ObserverFootprint
import OperandLifecycle.Proofs.Documents
import OperandLifecycle.Proofs.Overlay
import OperandLifecycle.Proofs.StatusChange
import OperandLifecycle.Proofs.SelectorGrammar
import OperandLifecycle.Proofs.SelectorMatching
import OperandLifecycle.Proofs.FloatRounding
import OperandLifecycle.Proofs.ShortestDigits
import OperandLifecycle.Proofs.NumberText
import OperandLifecycle.Proofs.JsonText
import OperandLifecycle.Proofs.OwnerReferences
import OperandLifecycle.Proofs.EventFolding
import OperandLifecycle.Proofs.ConflictRetry
import OperandLifecycle.Proofs.SafeReconcile
import OperandLifecycle.Proofs.MergeInputs
import OperandLifecycle.Proofs.MemberUpsert
import OperandLifecycle.Proofs.EventNames
import OperandLifecycle.Proofs.BindingCopies
import OperandLifecycle.Proofs.ValidationPaths
import OperandLifecycle.Proofs.ConfigStatus
import OperandLifecycle.Proofs.GatheredFailures
import OperandLifecycle.Proofs.TransitionTimes
import OperandLifecycle.Proofs.FlatPaths
import OperandLifecycle.Proofs.BindingReplication
import OperandLifecycle.Proofs.RemovalPaths
import OperandLifecycle.Proofs.RemovalSteps
import OperandLifecycle.Proofs.ConvergeSteps
import OperandLifecycle.Proofs.DeleteSafety
