/-
  The command line program. It sees the files below the current directory.
-/
import ThemeProps.CommandLine.Outcome

namespace ThemeProps

/-- The files and directories that some directory entries lead to. -/
partial def readEntries (entries : List IO.FS.DirEntry) : IO (List (Text × Node)) :=
  entries.mapM fun entry => do
    if ← entry.path.isDir then
      let children ← readEntries (← entry.path.readDir).toList
      return (entry.fileName.toList, .directory children)
    else
      return (entry.fileName.toList, .file (← IO.FS.readBinFile entry.path).toList)

/-- The file tree below the current directory. -/
def readCurrentDirectory : IO Node := do
  let directory ← IO.currentDir
  return .directory (← readEntries (← directory.readDir).toList)

/-- The report of a run that ends without an outcome. -/
def RunError.message : RunError → Text
  | .config .notText => "The configuration file is not text"
  | .config (.evaluation _) => "A configured number is too large"
  | .scan (.settings _) => "A settings document holds a number that is not readable"
  | .scan (.glob _) => "A file pattern is not valid"
  | .scan (.evaluation _) => "A template holds a number that is too large or not readable"

end ThemeProps

/-- Runs the program on its arguments. -/
def main (args : List String) : IO UInt32 := do
  let tree ← ThemeProps.readCurrentDirectory
  let colors := ((← IO.getEnv "NO_COLOR").getD "").isEmpty
  match ThemeProps.runCommandLine tree colors (args.map String.toList) with
  | .ok outcome =>
    IO.print (String.ofList outcome.output)
    IO.eprint (String.ofList outcome.errors)
    return outcome.exitCode.toUInt32
  | .error e =>
    IO.eprintln (String.ofList e.message)
    return 1
