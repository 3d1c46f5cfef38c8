import Tenancy.Command.Run

/-! # The program

Collects what the program sees of the machine, runs it, and writes what comes of it.
-/

namespace Tenancy

/-- The variables that can make a difference. -/
def variableNames : List String :=
  "KUBECONFIG" :: (Telemetry.flags ++ Settings.flags).filterMap Flag.envName

/-- The files that a run may look at. -/
def Invocation.paths (i : Invocation) (env : Environment) : List String :=
  let server := [i.settings.certificate, i.settings.key].filterMap id
  match i.command with
  | .printDefinition => []
  | .review file _ => [file]
  | .control => Command.clusterFiles env ++ server

/-- Reads variables; those that are not set are left out. -/
def readEnvironment : List String → IO Environment
  | [] => return []
  | name :: rest => do
    let more ← readEnvironment rest
    match ← IO.getEnv name with
    | some value => return (name, value) :: more
    | none => return more

/-- Reads files; those that cannot be read are left out. -/
def readFiles : List String → IO (List (String × String))
  | [] => return []
  | path :: rest => do
    let more ← readFiles rest
    try
      return (path, ← IO.FS.readFile path) :: more
    catch _ =>
      return more

/-- Runs the program with the arguments given, and gives the code it ends with. -/
def runHere (arguments : List String) : IO UInt32 := do
  let environment ← readEnvironment variableNames
  let paths :=
    match Invocation.read arguments environment with
    | .ok i => i.paths environment
    | .error _ => []
  let host : Host := { environment, files := ⟨← readFiles paths⟩ }
  match runProgram arguments host with
  | .exit code output errors =>
    (← IO.getStdout).putStr output
    (← IO.getStderr).putStr errors
    return UInt32.ofNat code
  | .serving => return 0

end Tenancy

def main (arguments : List String) : IO UInt32 := Tenancy.runHere arguments
