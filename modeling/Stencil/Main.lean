import Stencil.Command
import Stencil.Settings.Configure

/-!
# The program

Carries the command line out: it takes a picture of the files that the arguments name, does the work on
that picture, and brings the changes back to the disk.
-/

namespace Stencil.Main

/-- A place on the disk. -/
def onDisk (place : Place) : String :=
  "/" ++ String.intercalate "/" place

/-- What is on the disk at a place in a folder. -/
def entryAt (place : Place) : IO (Option Entry) := do
  try
    let bytes ← IO.FS.readBinFile (onDisk place)
    return some (.file bytes.toList)
  catch
    | .noFileOrDirectory .. => return none
    | _ => return some .folder

/-- The picture of what a path leads through. -/
def picture (files : Files) : Place → List String → IO Files
  | _, [] => return files
  | place, name :: rest => do
    let next := if name = ".." then place.dropLast else place ++ [name]
    match ← entryAt next with
    | none => return files
    | some (.file bytes) => return files.set next (.file bytes)
    | some .folder => picture (files.set next .folder) next rest

/-- The picture of what paths lead through. -/
def pictureAll (files : Files) : List String → IO Files
  | [] => return files
  | s :: rest => do
    let path := Path.ofString s
    pictureAll (← picture files (if path.root = "" then files.here else []) path.names) rest

/-- The paths that the arguments name. -/
def pathsOf (args : List String) : List String :=
  match Options.parse args with
  | .ok (.render o) => o.template :: (o.dataFile.toList ++ o.output.toList)
  | _ => []

/-- The file of settings in the working folder. -/
def settingsFile : String := ".env"

/-- The variables of the environment that settings come from. -/
def environment : IO (List (String × String)) := do
  let fields := [Settings.encodingField, Settings.nameField, Settings.logField, Settings.strictField]
  let names := fields.flatMap fun f =>
    let lower := Settings.environmentMark ++ f
    [lower, String.ofList (lower.toList.map Char.toUpper)]
  let values ← names.mapM fun n => do return (← IO.getEnv n).map fun v => (n, v)
  return values.filterMap id

/-- The settings for the files and the environment. -/
def settingsFor (files : Files) (environment : List (String × String)) : Except String Settings := do
  let values ← match Settings.fileValues files environment settingsFile with
    | .ok values => pure values
    | .error e => throw e.message
  match Settings.ofSources ⟨[], environment, values⟩ with
  | .ok settings => return settings
  | .error faults =>
    throw (String.intercalate "\n" (faults.map fun f => f.field ++ ": " ++ f.cause.message))

/-- Brings the files that have changed back to the disk. -/
def save (before after : Files) : IO Unit := do
  for (place, entry) in after.entries do
    match entry with
    | .file bytes =>
      if before.bytes? place != some bytes then
        IO.FS.writeBinFile (onDisk place) ⟨bytes.toArray⟩
    | .folder => pure ()

/-- The exit code of the process, and what is said about a code that is no number. -/
def processCode : Option Data → UInt32 × String
  | none => (1, "")
  | some .none => (0, "")
  | some (.int n) => (UInt32.ofNat (n % 256).toNat, "")
  | some (.bool b) => (if b then 1 else 0, "")
  | some d => (1, (match d with
    | .str s => s
    | d => d.shown) ++ "\n")

/-- The message of a problem that nothing deals with. -/
def escapedText (o : Command.Outcome) : String :=
  match o.ending with
  | .halted (.escaped p) => p.message ++ "\n"
  | _ => ""

/-- Runs the program with arguments. -/
def runWith (args : List String) : IO UInt32 := do
  let here := (Path.ofString (toString (← IO.currentDir))).names
  let files ← pictureAll ⟨[], here⟩ (settingsFile :: pathsOf args)
  match settingsFor files (← environment) with
  | .error message =>
    (← IO.getStderr).putStr (message ++ "\n")
    return 1
  | .ok settings =>
    let o := Command.run settings files args
    save files o.session.files
    let (code, said) := processCode o.code?
    let messages := shownMessages o.verbosity o.session.log
    (← IO.getStderr).putStr (String.join (messages.map (· ++ "\n")))
    (← IO.getStdout).putStr o.session.output
    (← IO.getStderr).putStr (o.errors ++ escapedText o ++ said)
    return code

end Stencil.Main

/-- Runs the program. -/
def main (args : List String) : IO UInt32 :=
  Stencil.Main.runWith args
