import RunnerPool.Daemon.Console

/-! # The program

Gives a process its environment and its input, and shows what it leaves behind. -/

namespace RunnerPool.Program

/-- A variable and its value, as they are listed with an equals sign between them. -/
def nameAndValue (bytes : List UInt8) : Option (String × String) :=
  match Utf8.decode bytes with
  | .error _ => none
  | .ok [] => none
  | .ok cs => some (String.ofList (cs.takeWhile (· != '=')),
      String.ofList ((cs.dropWhile (· != '=')).drop 1))

/-- The bytes of a file, if there is one. -/
def bytes? (path : String) : IO (Option (List UInt8)) := do
  try
    let bytes ← IO.FS.readBinFile path
    return some bytes.toList
  catch _ => return none

/-- The variables of the environment. -/
def environment : IO (List (String × String)) := do
  let bytes ← bytes? "/proc/self/environ"
  return (Text.pieces 0 (bytes.getD [])).filterMap nameAndValue

/-- The files that the settings may come from. -/
def files (env : List (String × String)) : IO (List (String × List UInt8)) := do
  let path := (env.lookup Settings.pathVariable).getD ""
  let paths := path :: (Settings.withEnding? path).toList
  let found ← paths.mapM fun p => do
    return (← bytes? p).map fun bytes => (p, bytes)
  return found.filterMap id

end RunnerPool.Program

open RunnerPool in
/-- Runs the process to its end. -/
def main : IO UInt32 := do
  let env ← Program.environment
  let files ← Program.files env
  let input ← (← IO.getStdin).readBinToEnd
  let t := Daemon.transcript (fun path => files.lookup path) env
    ⟨input.toList, none, Cluster.unreachable, fun _ => none⟩
  for e in t.entries do
    IO.println (t.line e)
  IO.eprint t.complaint
  return t.exitCode.getD 1
