/-! # Isolation modes

How the workloads of a tenant are kept apart from those of the others.
-/

namespace Tenancy

/-- How a tenant's workloads are segregated. -/
inductive IsolationMode where
  /-- In namespaces of a shared cluster. -/
  | namespaced
  /-- On a cluster of their own. -/
  | cluster
  /-- At the network layer. -/
  | network
  deriving DecidableEq, Repr

namespace IsolationMode

/-- Every mode, in the order in which they are shown. -/
def all : List IsolationMode := [namespaced, cluster, network]

def name : IsolationMode → String
  | namespaced => "namespace"
  | cluster => "cluster"
  | network => "network"

def names : List String := all.map name

def title : IsolationMode → String
  | namespaced => "Namespace"
  | cluster => "Cluster"
  | network => "Network"

def ofName? (s : String) : Option IsolationMode := all.find? fun mode => mode.name = s

def unknownMessage (s : String) : String := "unknown isolation mode '" ++ s ++ "'"

theorem ofName?_name (mode : IsolationMode) : ofName? mode.name = some mode := by
  cases mode <;> decide

end IsolationMode

end Tenancy
