import Stencil.Command.Job
import Stencil.Highlight

/-!
# Stages of the command line

A job goes through five stages: the files are looked for and the bindings collected, the template is read,
compiled and rendered, and the result is written. Every stage gives a new job and leaves what the stages
before have found.
-/

namespace Stencil

open Script (Value Run)

/-- The stages of a job. -/
inductive Stage where
  | check
  | load
  | compile
  | render
  | report
  deriving Repr, DecidableEq

/-- The stages in their order. -/
def Stage.all : List Stage := [.check, .load, .compile, .render, .report]

namespace Job

/-- Whether there is a file at a path. -/
def isFile (path : Path) : Work Bool := do
  match (← get).files.isFile path with
  | .ok b => return b
  | .error _ => Work.fail (.nameTooLong path.shown)

/-- The text of a file of bindings. -/
def readData (settings : Settings) (path : Path) : Work Text := do
  match Encoding.lookup settings.defaultEncoding with
  | .error .nullCharacter => Work.fail (.nullEncoding true)
  | .error .unknown => Work.fail (.unknownEncoding settings.defaultEncoding)
  | .ok e =>
    match (← get).files.read path with
    | .error _ => Work.fail (.noDataFile path.shown)
    | .ok bytes =>
      match e.readStream bytes with
      | .ok text => return text
      | .error error => Work.fail (.unreadableData error)

/-- Bindings from a text, which win over those that are there. -/
def addBindings (origin : String) (form : Notation) (text : Text) (bindings : List (Data × Data)) :
    Work (List (Data × Data)) := do
  match bindingsOfText origin form text with
  | .ok es => return es.foldl (fun all (k, v) => Data.setEntry k v all) bindings
  | .error e => Work.fail (.badBindings e)

/-- The notation of a file of bindings. -/
def notationOf (path : Path) : Notation :=
  if path.suffix = ".json" then .json else .yaml

/-- The bindings in the data file of a job. -/
def fileBindings (settings : Settings) (name : String) : Work (List (Data × Data)) := do
  let path := Path.ofString name
  unless ← isFile path do Work.fail (.noDataFile path.shown)
  let text ← readData settings path
  let bindings ← addBindings path.shown (notationOf path) text []
  Work.say 2 s!"Loaded {bindings.length} bindings from {path.shown}"
  return bindings

/-- An option that is missing when it is empty. -/
def given : Option String → Option String
  | some "" => none
  | o => o

/-- Looks for the files and collects the bindings: those of the data file, then those of the command line,
which win. -/
def check (settings : Settings) (j : Job) : Work Job := do
  Work.say 2 "Checking environment..."
  let path := Path.ofString j.templateFile
  unless ← isFile path do Work.fail (.noTemplate path.shown)
  Work.say 2 s!"Template file: {path.shown}"
  let bindings ← match given j.dataFile with
    | some name => fileBindings settings name
    | none => pure []
  let bindings ← match given j.context with
    | some text => addBindings "--context" .yaml text.toList bindings
    | none => pure bindings
  let value ← Work.rendering (Rendering.ofRun (Value.ofData (.dict bindings)))
  return { j with templatePath := path.shown, bindings := value, checked := true }

/-- Reads the template. -/
def load (settings : Settings) (j : Job) : Work Job := do
  Work.say 1 "Reading template..."
  let files := (← get).files
  let text ← Work.logged .source (loadSource settings files j.templatePath j.encoding)
  return { j with templateSource := some text }

/-- Compiles the template, unless it is only to be highlighted. -/
def compile (settings : Settings) (j : Job) : Work Job := do
  if j.highlight then return j
  Work.say 1 "Compiling template..."
  let name := settings.templateName (some j.templatePath)
  let program ← Work.logged .compile (Program.ofText settings name (j.templateSource.getD []) 1)
  Work.say 2 s!"Compiled {program.instructions.length} instructions"
  return { j with template := some ⟨program, j.html, none⟩ }

/-- Produces what is asked for: the highlighted template, the generated program, or the rendered
template. -/
def render (j : Job) : Work Job := do
  if j.highlight then
    let text := Highlight.render .plain (j.templateSource.getD [])
    return { j with result := some (String.ofList text) }
  if j.showSource then
    match j.template with
    | none => Work.fail (.notCompiled .source)
    | some t => return { j with result := some (String.ofList t.program.source) }
  Work.say 1 "Rendering..."
  match j.template with
  | none => Work.fail (.notCompiled .render)
  | some t =>
    let text ← Work.rendering (t.render j.bindings)
    return { j with result := some text }

/-- Writes a text to a file. The file is emptied before it turns out whether the text can be encoded. -/
def write (settings : Settings) (output text : String) : Work Unit := do
  let path := Path.ofString output
  let encoding := Encoding.lookup settings.defaultEncoding
  if encoding matches .error .nullCharacter then Work.fail (.nullEncoding false)
  let files := (← get).files
  match files.writable path with
  | .error .nullByte => Work.fail .nullPath
  | .error fault => Work.fail (.unwritable output path.shown fault)
  | .ok place =>
    modify fun s => { s with files := files.set place (.file []) }
    match encoding with
    | .error _ => Work.fail (.unknownEncoding settings.defaultEncoding)
    | .ok e =>
      match e.encode text.toList with
      | .error error => Work.fail (.unencodable error)
      | .ok bytes => modify fun s => { s with files := files.set place (.file bytes) }

/-- Writes the result to a file, if one is named, or puts it out. -/
def report (settings : Settings) (j : Job) : Work Job := do
  match j.result with
  | none => Work.fail .nothingRendered
  | some text =>
    match given j.output with
    | some output =>
      write settings output text
      Work.say 1 s!"Wrote {text.length} characters to {output}"
    | none => Work.put text
    return j

end Job

/-- The work of a stage. -/
def Stage.run (settings : Settings) : Stage → Job → Work Job
  | check, j => j.check settings
  | load, j => j.load settings
  | compile, j => j.compile settings
  | render, j => j.render
  | report, j => j.report settings

/-- The work of stages, one after the other. -/
def Stage.runAll (settings : Settings) : List Stage → Job → Work Job
  | [], j => return j
  | s :: rest, j => do runAll settings rest (← s.run settings j)

end Stencil
