import Tenancy.Cluster.Server
import Tenancy.Reconcile.Controller

/-! # The control loop

The loop keeps a queue of tenants with the time at which each is due. News of a tenant makes it due
at once; after a run it is due again as the controller says. Times are in nanoseconds from the
start, and the delays after failures are taken without their random part.
-/

namespace Tenancy

/-- The tenants that are due, with their times; a tenant is in the queue once. -/
structure Queue where
  entries : List (String × Nat) := []
  deriving Repr

namespace Queue

/-- Makes a tenant due, unless it is due sooner. -/
def add (name : String) (due : Nat) (q : Queue) : Queue :=
  match q.entries.find? fun entry => entry.1 = name with
  | some (_, earlier) =>
    if earlier ≤ due then q
    else ⟨(name, due) :: q.entries.filter fun entry => entry.1 ≠ name⟩
  | none => ⟨(name, due) :: q.entries⟩

/-- The tenant that is due first, if that is not after `limit`. -/
def first? (limit : Nat) (q : Queue) : Option (String × Nat) :=
  q.entries.foldl (fun best entry =>
    if limit < entry.2 then best
    else
      match best with
      | some (_, due) => if entry.2 ≤ due then some entry else best
      | none => some entry) none

def remove (name : String) (q : Queue) : Queue :=
  ⟨q.entries.filter fun entry => entry.1 ≠ name⟩

end Queue

/-- The state of the loop and of the server that it works on. -/
structure Loop where
  server : Server
  failures : FailureCounts := {}
  queue : Queue := {}
  now : Nat := 0

namespace Loop

/-- Makes every tenant due of which there is news. -/
def hear (l : Loop) : Loop :=
  { l with
    queue := l.server.news.foldr (fun name q => q.add name l.now) l.queue
    server := { l.server with news := [] } }

/-- Reconciles one tenant, if it still exists. -/
def work (c : ControllerSettings) (name : String) (l : Loop) : Except SpanError Loop :=
  match (Json.lookup name l.server.tenants).map Tenant.decode with
  | some (.ok tenant) =>
    let client := apiClient Server.transport
    let (result, failures, server) := reconcile c client tenant l.failures l.server
    let l := { l with failures, server }
    match result with
    | .ok .awaitChange => .ok l.hear
    | .ok (.requeue span) => .ok { l with queue := l.queue.add name (l.now + span) }.hear
    | .error _ => do
      let (policy, failures) := errorPolicy c tenant l.failures
      let span ← policy.delay
      return { l with failures, queue := l.queue.add name (l.now + span) }.hear
  | _ => .ok l

/-- Works on what is due until the given time. The fuel bounds the number of runs. -/
def advance (c : ControllerSettings) (limit : Nat) : Nat → Loop → Except SpanError Loop
  | 0, l => .ok { l with now := limit }
  | fuel + 1, l =>
    match l.queue.first? limit with
    | none => .ok { l with now := limit }
    | some (name, due) => do
      let l ← work c name { l with now := max l.now due, queue := l.queue.remove name }
      advance c limit fuel l

def change (f : Server → Server) (l : Loop) : Loop := { l with server := f l.server }.hear

/-- Removes a tenant from outside; the controller forgets it. -/
def deleteTenant (name : String) (l : Loop) : Loop :=
  { l.change (·.deleteTenant name) with failures := l.failures.forget name }

end Loop

end Tenancy
