import Stencil.Command.Stage

/-!
# The command line

The arguments are read, and the job that they ask for goes through all stages. The outcome is what has been
put out, what has been reported, the files, and the exit code.
-/

namespace Stencil.Command

open Script (Value Machine Run)

/-- The name of the program. -/
def name : String := "embtext"

/-- The version of the program. -/
def version : String := "1.0.0"

/-- How the program is used. -/
def usage : String :=
  s!"usage: {name} [-h] [-H] [-c CONTEXTDATA] [-f DATAFILE] [-x] [--highlight] " ++
    "[--encoding ENCODING] [-o OUTPUT] [-v] [-V] templateFile\n"

/-- How a command ended. -/
inductive Ending where
  /-- The job went through all stages, or there was only something to show. -/
  | finished
  /-- The arguments cannot be used. -/
  | misused (error : UsageError)
  /-- The job was halted. -/
  | halted (halt : Halt)

/-- What a command leaves behind. -/
structure Outcome where
  ending : Ending
  verbosity : Nat
  session : Session

/-- The text on the error output. -/
def Outcome.errors (o : Outcome) : String :=
  match o.ending with
  | .finished => ""
  | .misused e => usage ++ s!"{name}: error: {e.message}\n"
  | .halted h => h.line

/-- The exit code, unless the job was halted by a problem that nothing deals with. -/
def Outcome.code? (o : Outcome) : Option Data :=
  match o.ending with
  | .finished => some (.int 0)
  | .misused _ => some (.int 2)
  | .halted h => h.code?

/-- Runs the job that options ask for. -/
def runJob (settings : Settings) (options : Options) (session : Session) : Outcome :=
  let work : Work Job := do
    let bindings ← Work.rendering (Rendering.ofRun (Value.ofData (.dict [])))
    Stage.runAll settings Stage.all (Job.ofOptions options bindings)
  let (result, session) := work.run.run session
  match result with
  | .ok _ => ⟨.finished, options.verbosity, session⟩
  | .error halt => ⟨.halted halt, options.verbosity, session⟩

/-- A session that only puts out a text. -/
def showing (text : String) (session : Session) : Outcome :=
  let (_, session) := (Work.put text).run.run session
  ⟨.finished, 0, session⟩

/-- Does what the arguments ask for. -/
def run (settings : Settings) (files : Files) (args : List String) : Outcome :=
  let session : Session := ⟨Machine.start, #[], files⟩
  match Options.parse args with
  | .error e => ⟨.misused e, 0, session⟩
  | .ok .help => showing usage session
  | .ok .version => showing s!"{name} {version}\n" session
  | .ok (.render options) => runJob settings options session

end Stencil.Command
