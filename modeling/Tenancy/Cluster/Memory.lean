import Tenancy.Reconcile.Client

/-! # A cluster in memory

The state of a small cluster: tenants by key, the names of the namespaces, the names of the bindings
with their namespaces, and for every kind of call the errors that its next calls will meet. A call
that meets an error has no other effect.
-/

namespace Tenancy

inductive CallKind where
  | getTenant
  | createNamespace
  | createBinding
  | patchStatus
  deriving DecidableEq, Repr

/-- Names in increasing order, each once. -/
abbrev NameSet := List String

namespace NameSet

def add (name : String) : NameSet → NameSet
  | [] => [name]
  | first :: rest =>
    if name = first then first :: rest
    else if name < first then name :: first :: rest
    else first :: add name rest

def remove (name : String) (names : NameSet) : NameSet := names.filter (· ≠ name)

end NameSet

structure Cluster where
  /-- The tenants by key, in increasing order. -/
  tenants : List (String × Tenant) := []
  namespaces : NameSet := []
  /-- The bindings, each as `namespace/name`. -/
  bindings : NameSet := []
  /-- The errors that the next calls of each kind meet. -/
  faults : CallKind → List Failure := fun _ => []

namespace Cluster

def tenant? (c : Cluster) (key : String) : Option Tenant :=
  (c.tenants.find? fun entry => entry.1 = key).map (·.2)

/-- Puts an entry in its place, in exchange for one of the same key. -/
def putEntry (key : String) (tenant : Tenant) : List (String × Tenant) → List (String × Tenant)
  | [] => [(key, tenant)]
  | (k, t) :: rest =>
    if key = k then (key, tenant) :: rest
    else if key < k then (key, tenant) :: (k, t) :: rest
    else (k, t) :: putEntry key tenant rest

/-- Stores a tenant under a key. -/
def put (key : String) (tenant : Tenant) (c : Cluster) : Cluster :=
  { c with tenants := putEntry key tenant c.tenants }

def remove (key : String) (c : Cluster) : Cluster :=
  { c with tenants := c.tenants.filter fun entry => entry.1 ≠ key }

def addNamespace (name : String) (c : Cluster) : Cluster :=
  { c with namespaces := NameSet.add name c.namespaces }

def deleteNamespace (name : String) (c : Cluster) : Cluster :=
  { c with namespaces := NameSet.remove name c.namespaces }

def deleteBinding (name : String) (c : Cluster) : Cluster :=
  { c with bindings := NameSet.remove name c.bindings }

/-- Lets the coming calls of a kind meet an error that many times. -/
def addFault (kind : CallKind) (error : Failure) (times : Nat) (c : Cluster) : Cluster :=
  { c with faults := fun k =>
      if k = kind then c.faults k ++ List.replicate times error else c.faults k }

/-- The error that a call of a kind meets, and the state after it. -/
def fault? (kind : CallKind) (c : Cluster) : Option (Failure × Cluster) :=
  match c.faults kind with
  | [] => none
  | e :: rest => some (e, { c with faults := fun k => if k = kind then rest else c.faults k })

/-- Makes a call of a kind, unless it meets an error. -/
def attempt {α : Type} (kind : CallKind) (effect : Cluster → Except Failure α × Cluster)
    (c : Cluster) : Except Failure α × Cluster :=
  match c.fault? kind with
  | some (e, c) => (.error e, c)
  | none => effect c

def create (name : String) (names : NameSet) : Creation × NameSet :=
  if name ∈ names then (.alreadyExists, names) else (.created, NameSet.add name names)

def bindingKey (binding : Resource) : String :=
  binding.metadata.namespace?.getD "" ++ "/" ++ binding.metadata.name?.getD ""

def recordNamespace (name : Option String) (tenant : Tenant) : Tenant :=
  { tenant with status := some { tenant.status.getD {} with namespaceName := name } }

/-- Records the namespace of a status in the stored tenant. -/
def patch (key : String) (status : TenantStatus) (c : Cluster) : Except Failure Unit × Cluster :=
  match c.tenant? key with
  | some tenant => (.ok (), c.put key (recordNamespace status.namespaceName tenant))
  | none => (.error (.internal "status" (key ++ " not found")), c)

def client : Client Cluster where
  getTenant key := attempt .getTenant fun c => (.ok (c.tenant? key), c)
  createNamespace _ object := attempt .createNamespace fun c =>
    let (creation, names) := create (object.metadata.name?.getD "") c.namespaces
    (.ok creation, { c with namespaces := names })
  createBinding _ object := attempt .createBinding fun c =>
    let (creation, names) := create (bindingKey object) c.bindings
    (.ok creation, { c with bindings := names })
  patchStatus key status := attempt .patchStatus (patch key status)

end Cluster

end Tenancy
