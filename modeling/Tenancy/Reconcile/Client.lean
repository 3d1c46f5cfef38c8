import Tenancy.Failure
import Tenancy.Tenant.Resources

/-! # Calls to the cluster

What a reconcile asks of the cluster, and what can answer it. A `Client` over a state `σ` answers
each call with a result and the state that it leaves behind.
-/

namespace Tenancy

inductive Creation where
  /-- The call created the object. -/
  | created
  /-- An object of that name was there before. -/
  | alreadyExists
  deriving DecidableEq, Repr

def Creation.isNew : Creation → Bool
  | .created => true
  | .alreadyExists => false

inductive Call where
  /-- Looks up a tenant by name. -/
  | getTenant (name : String)
  /-- Creates the namespace of a tenant. -/
  | createNamespace (tenant : String) (object : Resource)
  /-- Creates a binding in the namespace of a tenant. -/
  | createBinding (tenant : String) (object : Resource)
  /-- Sets those members of a tenant's status that the given status has. -/
  | patchStatus (name : String) (status : TenantStatus)
  deriving Repr, DecidableEq

/-- Something that answers calls, over a state. -/
structure Client (σ : Type) where
  getTenant : String → σ → Except Failure (Option Tenant) × σ
  createNamespace : String → Resource → σ → Except Failure Creation × σ
  createBinding : String → Resource → σ → Except Failure Creation × σ
  patchStatus : String → TenantStatus → σ → Except Failure Unit × σ

/-- The client that answers as another one does and keeps the calls, the last one first. -/
def Client.logged {σ : Type} (client : Client σ) : Client (σ × List Call) where
  getTenant name s :=
    let (result, next) := client.getTenant name s.1
    (result, next, .getTenant name :: s.2)
  createNamespace tenant object s :=
    let (result, next) := client.createNamespace tenant object s.1
    (result, next, .createNamespace tenant object :: s.2)
  createBinding tenant object s :=
    let (result, next) := client.createBinding tenant object s.1
    (result, next, .createBinding tenant object :: s.2)
  patchStatus name status s :=
    let (result, next) := client.patchStatus name status s.1
    (result, next, .patchStatus name status :: s.2)

end Tenancy
