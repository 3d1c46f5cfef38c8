import Tenancy.Admission.Listener
import Tenancy.Command.Basic
import Tenancy.Http.Uri
import Tenancy.Json.Pretty
import Tenancy.Tenant.Definition
import Tenancy.Yaml.Decode
import Tenancy.Yaml.Printer

/-! # Running a command

What comes of a command depends on nothing but its arguments, the environment and the files. The
program sees no cluster: it gets as far as asking one to install the definition of tenants, or, if
that is not wanted, to the point where the server is open.
-/

namespace Tenancy

/-- What the program sees of the machine. -/
structure Host where
  environment : Environment := []
  files : Files := {}

inductive Ending where
  /-- With a code and what was written for the user and about errors. -/
  | exit (code : Nat) (output errors : String)
  /-- Not by itself: the server is open. -/
  | serving
  deriving DecidableEq, Repr

namespace Ending

/-- The end of a run that did what it was asked to. -/
def success (output : String) : Ending := .exit 0 output ""

/-- The end of a run that failed, perhaps after some output. -/
def failure (reason : String) (output : String := "") : Ending :=
  .exit 1 output ("Error: " ++ reason ++ "\n")

end Ending

def versionLine : String := "genesis-operator 0.1.0"

def usageLine : String := "Usage: genesis-operator [OPTIONS] [COMMAND]"

namespace Command

/-- Reads a manifest; every JSON text is also one in YAML. -/
def readManifest (files : Files) (file : String) : Except String Json := do
  let text ← (files.read file).mapError fun e =>
    "Failed to read " ++ Files.quotePath file ++ ": " ++ e.message
  (Json.Schema.document.readYaml text.toList).mapError fun e =>
    "Failed to parse " ++ Files.quotePath file ++ ": " ++ e.message

/-- Sends a document through the admission stages and shows the report. -/
def tryDocument (verb : Admission.Verb) (document : Json) : Ending :=
  let report := Admission.review verb document.encode
  let output := report.toJson.pretty ++ "\n"
  if report.isAllowed then .success output
  else
    let (stage, decision) := report.final
    .failure ("Tenant rejected by " ++ stage.name ++ " stage: " ++ decision.reason) output

def tryManifest (files : Files) (file : String) (verb : Admission.Verb) : Ending :=
  match readManifest files file with
  | .ok document => tryDocument verb document
  | .error reason => .failure reason

/-- The files that tell how to reach the cluster. -/
def clusterFiles (env : Environment) : List String :=
  (((env.get? "KUBECONFIG").getD "").toList.splitOn ':').map String.ofList |>.filter (· ≠ "")

/-- Why nothing tells how to reach the cluster, if that is so. The surroundings of a cluster's own
processes are looked for as well, and not found. -/
def clusterFault? (host : Host) : Option String :=
  let reason? :=
    match clusterFiles host.environment with
    | [] => some "failed to find the path of kubeconfig"
    | paths => paths.findSome? fun path =>
      match host.files.read path with
      | .ok _ => none
      | .error e =>
        some ("failed to read kubeconfig from '" ++ Files.quotePath path ++ "': " ++ e.message)
  reason?.map fun reason =>
    "Failed to create Kubernetes client: Failed to infer configuration: failed to infer config: "
      ++ "in-cluster: (failed to read an incluster environment variable: environment variable not "
      ++ "found), kubeconfig: (" ++ reason ++ ")"

/-- Why the definition cannot be installed. -/
def unreachable : CallError := .unreachable "client error (Connect)"

def runController (host : Host) (settings : Settings) : Ending :=
  match clusterFault? host with
  | some reason => .failure reason
  | none =>
    if settings.installsDefinition then
      .failure ("Failed to install Tenant CRD: " ++ unreachable.message)
    else
      match settings.tls.bind (Admission.openServer host.files settings.address) with
      | .error e => .failure e.message
      | .ok () => .serving

end Command

/-- Why telemetry cannot be set up, if that is so. -/
def Telemetry.fault? (t : Telemetry) : Option TelemetryFailure :=
  match t.endpoint.map Http.Uri.check with
  | some (.error fault) =>
    some (.metrics ("Metrics exporter otlp failed with invalid URI " ++ fault.message))
  | _ => none

def Invocation.run (i : Invocation) (host : Host) : Ending :=
  match i.command with
  | .printDefinition => .success (Yaml.render Definition.document ++ "\n")
  | command =>
    match i.telemetry.fault? with
    | some e => .failure e.message
    | none =>
      match command with
      | .review file verb => Command.tryManifest host.files file verb
      | _ => Command.runController host i.settings

def runProgram (arguments : List String) (host : Host) : Ending :=
  match Invocation.read arguments host.environment with
  | .ok i => i.run host
  | .error .version => .success (versionLine ++ "\n")
  | .error .help => .success (usageLine ++ "\n")
  | .error _ => .exit 2 "" (usageLine ++ "\n")

end Tenancy
