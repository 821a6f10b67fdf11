import KeyBridge.Build.Script
import KeyBridge.Toml.Reader

/-!
# The build script as a program

Runs the build script on the configuration in the current directory, with the output directory
that the environment names.
-/

namespace KeyBridge.Build

/-- The file of the configuration. -/
def configFile : String := "converter.toml"

/-- The bytes of the configuration, if there is one. -/
def loadConfig : IO (Option ByteArray) := do
  match ← (IO.FS.readBinFile configFile).toBaseIO with
  | .ok bytes => return some bytes
  | .error (.noFileOrDirectory ..) => return none
  | .error e => throw e

/-- Prints what the build script says, and ends with an error if the build does. -/
def report (r : Result) : IO UInt32 := do
  for line in r.printed do
    IO.println line
  match r.failure with
  | none => return 0
  | some f =>
    IO.eprintln (String.ofList (f.report?.getD f.title.toList))
    return 1

end KeyBridge.Build

open KeyBridge

/-- Writes the memory map to the output directory and checks the configuration. -/
def main : IO UInt32 := do
  let some outDir ← IO.getEnv "OUT_DIR" | throw (IO.userError "OUT_DIR is not set")
  IO.FS.writeFile (outDir ++ "/memory.x") Build.memoryMap
  Build.report (Build.run Toml.read outDir (← Build.loadConfig))
