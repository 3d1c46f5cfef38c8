import Tenancy.Failure
import Tenancy.Settings.Flag

/-! # Settings

Every setting of the operator is a flag that may also come from the environment, and has a default.
The certificate and the key of the webhook server go together: one without the other is refused.
-/

namespace Tenancy

/-- The port of the webhook server, unless set otherwise. -/
def defaultPort : Nat := 9443

/-- The seconds after which a tenant is looked at again, unless set otherwise. -/
def defaultResyncSeconds : Nat := 300

/-- How many tenants are looked after at a time, unless set otherwise. -/
def defaultConcurrency : Nat := 4

/-- The files of a server that speaks with encryption. -/
structure TlsFiles where
  certificate : String
  key : String
  deriving DecidableEq, Repr

/-- The settings of the controller and the webhook server. -/
structure Settings where
  /-- Where the webhook server listens. -/
  address : Http.Address := ⟨.v4 0 0 0 0, defaultPort⟩
  certificate : Option String := none
  key : Option String := none
  resyncSeconds : Nat := defaultResyncSeconds
  concurrency : Nat := defaultConcurrency
  /-- Whether the definition of tenants is installed at the start. -/
  installsDefinition : Bool := true
  deriving DecidableEq, Repr

namespace Settings

/-- The greatest number of seconds. -/
def longest : Nat := 0xFFFFFFFFFFFFFFFF

/-- The greatest number of tenants at a time. -/
def widest : Nat := 0xFFFF

/-- The seconds after which a tenant is looked at again, at least one. -/
def resyncInterval (s : Settings) : Nat := max s.resyncSeconds 1

/-- The files for encryption; none means that there is no encryption. -/
def tls (s : Settings) : Except Failure (Option TlsFiles) :=
  match s.certificate, s.key with
  | some certificate, some key => .ok (some ⟨certificate, key⟩)
  | none, none => .ok none
  | _, _ => .error (.internal "config" "TLS certificate and key must be set together")

def addressFlag : Flag where
  name := "webhook-addr"
  envName := some "GENESIS_WEBHOOK_ADDR"
  role := .value .address

def certificateFlag : Flag where
  name := "tls-cert"
  envName := some "GENESIS_TLS_CERT"
  role := .value .path

def keyFlag : Flag where
  name := "tls-key"
  envName := some "GENESIS_TLS_KEY"
  role := .value .path

def resyncFlag : Flag where
  name := "resync-secs"
  envName := some "GENESIS_RESYNC_SECS"
  role := .value (.number false longest)

/-- The one number that may be written with a minus sign, as long as it is zero. -/
def concurrencyFlag : Flag where
  name := "concurrency"
  envName := some "GENESIS_CONCURRENCY"
  role := .value (.number true widest)

def installFlag : Flag where
  name := "install-crds"
  envName := some "GENESIS_INSTALL_CRDS"
  role := .value (.word ["true", "false"])

/-- The flags in the order in which the environment is asked about them. -/
def flags : List Flag :=
  [addressFlag, certificateFlag, keyFlag, resyncFlag, concurrencyFlag, installFlag]

def ofChoices (c : Choices) : Settings where
  address := ((c.get? addressFlag.name).bind Http.Address.read?).getD ⟨.v4 0 0 0 0, defaultPort⟩
  certificate := c.get? certificateFlag.name
  key := c.get? keyFlag.name
  resyncSeconds :=
    ((c.get? resyncFlag.name).bind (ValueForm.number? false longest)).getD defaultResyncSeconds
  concurrency :=
    ((c.get? concurrencyFlag.name).bind (ValueForm.number? true widest)).getD defaultConcurrency
  installsDefinition := c.get? installFlag.name ≠ some "false"

/-- The settings that the choices stand for, unless only one of two files is chosen. -/
def ofChoices? (c : Choices) : Except UsageError Settings :=
  if (c.get? certificateFlag.name).isSome = (c.get? keyFlag.name).isSome then .ok (ofChoices c)
  else .error .missingFlag

end Settings

/-! ## Telemetry -/

inductive LogFormat where
  /-- One object a line. -/
  | json
  /-- For people to read. -/
  | text
  deriving DecidableEq, Repr

/-- Where traces and metrics go and how log lines look. -/
structure Telemetry where
  /-- The name under which the operator reports. -/
  serviceName : String := "genesis-operator"
  /-- Without an endpoint nothing leaves the process. -/
  endpoint : Option String := none
  logFormat : LogFormat := .json
  deriving DecidableEq, Repr

namespace Telemetry

def endpointVariable : String := "OTEL_EXPORTER_OTLP_ENDPOINT"

/-- The log lines that are kept, unless set otherwise. -/
def defaultFilter : String := "info,genesis_operator=debug,kube=info,tower=warn,hyper=warn"

def formatFlag : Flag where
  name := "log-format"
  envName := some "GENESIS_LOG_FORMAT"
  role := .value (.word ["json", "text"])

def endpointFlag : Flag where
  name := "otlp-endpoint"
  envName := some endpointVariable
  role := .value .text

def flags : List Flag := [formatFlag, endpointFlag]

def ofEnvironment (env : Environment) : Telemetry := { endpoint := env.get? endpointVariable }

def ofChoices (c : Choices) : Telemetry where
  endpoint := c.get? endpointFlag.name
  logFormat := if c.get? formatFlag.name = some "text" then .text else .json

end Telemetry

/-- Reads settings and telemetry from arguments and environment, where there is no command. -/
def readSettings (arguments : List String) (env : Environment) :
    Except UsageError (Settings × Telemetry) := do
  let flags := Settings.flags ++ Telemetry.flags
  let (reading, _) ← readArguments (flags ++ [.help]) [] {} arguments
  let choices ← reading.finish flags env
  return (← Settings.ofChoices? choices, Telemetry.ofChoices choices)

end Tenancy
