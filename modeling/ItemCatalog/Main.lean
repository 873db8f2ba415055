import ItemCatalog.CommandLine

/-!
# The program

Reads arguments, environment and files, and writes the outcome of a run.
-/

open ItemCatalog CommandLine

/-- Reads a file of text. -/
def readTextFile (path : String) : IO (Except FileFault String) := do
  try
    return .ok (← IO.FS.readFile path)
  catch
    | .noFileOrDirectory .. => return .error .notFound
    | .inappropriateType .. => return .error .isDirectory
    | e => return .error (.other (toString e))

/-- The environment variables that are set among those that the program looks at. -/
def knownNames : List String :=
  ["ITEMDEX_CATALOG", "ITEMDEX_CONFIG", "ITEMDEX_LISTING", "ITEMDEX_LISTING__MAX_CHARS",
    "ITEMDEX_LISTING__MAX_GROUPS", "ITEMDEX_LOG", "ITEMDEX_LOG__FILTER", "ITEMDEX_LOOKUP",
    "ITEMDEX_LOOKUP__LIMIT"]

def main (args : List String) : IO UInt32 := do
  let environment ← knownNames.filterMapM fun name => do
    return (← IO.getEnv name).map fun value => (name, value)
  let outcome ← run readTextFile ⟨← IO.getEnv "HOME", environment⟩ args
  (← IO.getStdout).putStr outcome.stdout
  (← IO.getStderr).putStr outcome.stderr
  return outcome.code
