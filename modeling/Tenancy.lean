import Tenancy.Admission.Decision
import Tenancy.Admission.Defaults
import Tenancy.Admission.Endpoint
import Tenancy.Admission.Exchange
import Tenancy.Admission.Listener
import Tenancy.Admission.Pipeline
import Tenancy.Admission.Validation
import Tenancy.Backoff.Curve
import Tenancy.Backoff.Retry
import Tenancy.Cluster.Api
import Tenancy.Cluster.Memory
import Tenancy.Cluster.Server
import Tenancy.Command.Basic
import Tenancy.Command.Run
import Tenancy.Decimal.Double
import Tenancy.Decimal.Nanoseconds
import Tenancy.Decimal.Nearest
import Tenancy.Decimal.Power
import Tenancy.Decimal.Shortest
import Tenancy.Failure
import Tenancy.Files
import Tenancy.Http.Address
import Tenancy.Http.Certificate
import Tenancy.Http.MediaType
import Tenancy.Http.Status
import Tenancy.Http.Target
import Tenancy.Http.Uri
import Tenancy.Json.Basic
import Tenancy.Json.Decode
import Tenancy.Json.Fault
import Tenancy.Json.MergePatch
import Tenancy.Json.Patch
import Tenancy.Json.Pointer
import Tenancy.Json.Pretty
import Tenancy.Json.Printer
import Tenancy.Json.Reader
import Tenancy.Json.Schema
import Tenancy.Json.Token
import Tenancy.Json.Typed
import Tenancy.Main
import Tenancy.Proofs.Admission.Additions
import Tenancy.Proofs.Admission.Agreement
import Tenancy.Proofs.Admission.Carrying
import Tenancy.Proofs.Admission.Defaults
import Tenancy.Proofs.Admission.Endpoint
import Tenancy.Proofs.Admission.Exchange
import Tenancy.Proofs.Admission.Patching
import Tenancy.Proofs.Admission.Response
import Tenancy.Proofs.Admission.Review
import Tenancy.Proofs.Admission.Rules
import Tenancy.Proofs.Admission.Specification
import Tenancy.Proofs.Admission.Typed
import Tenancy.Proofs.Admission.Validation
import Tenancy.Proofs.Backoff.Curve
import Tenancy.Proofs.Backoff.Retry
import Tenancy.Proofs.Cluster.Memory
import Tenancy.Proofs.Cluster.StatusPatch
import Tenancy.Proofs.Command.Manifest
import Tenancy.Proofs.Json.Agreement
import Tenancy.Proofs.Json.Agreement.Containers
import Tenancy.Proofs.Json.Agreement.Records
import Tenancy.Proofs.Json.Agreement.Scalars
import Tenancy.Proofs.Json.Concordance
import Tenancy.Proofs.Json.Declared
import Tenancy.Proofs.Json.Decoding
import Tenancy.Proofs.Json.Diff
import Tenancy.Proofs.Json.Document
import Tenancy.Proofs.Json.Exactness
import Tenancy.Proofs.Json.Extent
import Tenancy.Proofs.Json.Fields
import Tenancy.Proofs.Json.Following
import Tenancy.Proofs.Json.Located
import Tenancy.Proofs.Json.Members
import Tenancy.Proofs.Json.Merging
import Tenancy.Proofs.Json.Normal
import Tenancy.Proofs.Json.Number
import Tenancy.Proofs.Json.Numeral
import Tenancy.Proofs.Json.PatchText
import Tenancy.Proofs.Json.Reading
import Tenancy.Proofs.Json.Records
import Tenancy.Proofs.Json.Reordering
import Tenancy.Proofs.Json.RoundTrip
import Tenancy.Proofs.Json.Scalar
import Tenancy.Proofs.Json.Skipping
import Tenancy.Proofs.Json.Spelled
import Tenancy.Proofs.Json.Spelling
import Tenancy.Proofs.Json.Taken
import Tenancy.Proofs.Json.Text
import Tenancy.Proofs.Json.Typing
import Tenancy.Proofs.Json.Within
import Tenancy.Proofs.Json.Written
import Tenancy.Proofs.Reconcile.Calls
import Tenancy.Proofs.Reconcile.Failures
import Tenancy.Proofs.Reconcile.Interleaving
import Tenancy.Proofs.Reconcile.Lifetime
import Tenancy.Proofs.Reconcile.Protocol
import Tenancy.Proofs.Reconcile.Recording
import Tenancy.Proofs.Reconcile.Report
import Tenancy.Proofs.Reconcile.Resumption
import Tenancy.Proofs.Reconcile.Settling
import Tenancy.Proofs.Reconcile.Standing
import Tenancy.Proofs.Reconcile.Steps
import Tenancy.Proofs.Sequence
import Tenancy.Proofs.Settings.Arguments
import Tenancy.Proofs.Settings.CommandLine
import Tenancy.Proofs.Settings.Supplied
import Tenancy.Proofs.Tenant.Compliance
import Tenancy.Proofs.Tenant.Decoding
import Tenancy.Proofs.Tenant.Normalization
import Tenancy.Proofs.Tenant.Ownership
import Tenancy.Proofs.Tenant.Wire
import Tenancy.Proofs.Text.Order
import Tenancy.Proofs.Text.Utf8
import Tenancy.Proofs.Yaml.Building
import Tenancy.Proofs.Yaml.Flow
import Tenancy.Proofs.Yaml.Gap
import Tenancy.Proofs.Yaml.Lexing
import Tenancy.Proofs.Yaml.Meaning
import Tenancy.Proofs.Yaml.Plain
import Tenancy.Proofs.Yaml.Quoted
import Tenancy.Proofs.Yaml.Reading
import Tenancy.Reconcile.Client
import Tenancy.Reconcile.Controller
import Tenancy.Reconcile.Loop
import Tenancy.Reconcile.Run
import Tenancy.Settings.Basic
import Tenancy.Settings.Flag
import Tenancy.Tenant.Basic
import Tenancy.Tenant.Definition
import Tenancy.Tenant.Isolation
import Tenancy.Tenant.Resources
import Tenancy.Text.Blank
import Tenancy.Text.Digits
import Tenancy.Text.Invisible
import Tenancy.Text.Quoted
import Tenancy.Text.Utf8
import Tenancy.Timestamp
import Tenancy.Yaml.Cursor
import Tenancy.Yaml.Decode
import Tenancy.Yaml.Document
import Tenancy.Yaml.Meaning
import Tenancy.Yaml.Node
import Tenancy.Yaml.Printer
import Tenancy.Yaml.Problem
import Tenancy.Yaml.Scalar
import Tenancy.Yaml.Tag
import Tenancy.Yaml.Token
