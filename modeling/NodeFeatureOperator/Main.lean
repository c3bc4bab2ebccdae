import NodeFeatureOperator.CommandLine

/-!
# The program

The outer layer of the command line: it looks up the environment, writes, and ends with the exit
code. A run of the controller takes a connection to a cluster, which this program does not have.
-/

namespace NodeFeatureOperator

namespace CommandLine

/-- The variables of the environment that the options look at. -/
def lookUpEnvironment : IO (List (String × String)) := do
  let found ← (Setting.all.filterMap Setting.variableName?).mapM fun name => do
    let value ← IO.getEnv name
    pure (value.map fun v => (name, v))
  pure (found.filterMap id)

/-- Runs the program. -/
def execute (arguments : List String) : IO UInt32 := do
  match respond arguments (← lookUpEnvironment) with
  | .inl response =>
    IO.print response.output
    IO.eprint response.errors
    pure response.exitCode
  | .inr _ =>
    IO.eprintln "Error: Failed to create Kubernetes client: no cluster is configured"
    pure 1

end CommandLine

end NodeFeatureOperator

/-- The program. -/
def main (arguments : List String) : IO UInt32 :=
  NodeFeatureOperator.CommandLine.execute arguments
