import Stencil.Bindings
import Stencil.Command.Options
import Stencil.Render
import Stencil.Source

/-!
# Jobs of the command line

A job is what the command line asks for together with what its stages have found so far. A stage that
cannot go on halts the job: with a line that reports the problem, with the exit code that the template asks
for, or with a problem that nothing deals with.
-/

namespace Stencil

open Script (Value Machine)

/-- What is asked for and what has been found. -/
structure Job where
  /-- The template as it is named on the command line. -/
  templateFile : String
  encoding : Option String
  html : Bool
  context : Option String
  dataFile : Option String
  showSource : Bool
  highlight : Bool
  output : Option String
  /-- Whether the files that are asked for are there. -/
  checked : Bool
  /-- The path of the template, as it is shown. -/
  templatePath : String
  bindings : Value
  templateSource : Option Text
  template : Option Template
  result : Option String

/-- A job at its beginning, with the value of its bindings. -/
def Job.ofOptions (o : Options) (bindings : Value) : Job where
  templateFile := o.template
  encoding := o.encoding
  html := o.html
  context := o.context
  dataFile := o.dataFile
  showSource := o.source
  highlight := o.highlight
  output := o.output
  checked := false
  templatePath := "/"
  bindings := bindings
  templateSource := none
  template := none
  result := none

/-- What a job that has not been rendered lacks. -/
inductive Lacking where
  | render
  | source
  deriving Repr, DecidableEq

/-- Why a job cannot go on. -/
inductive Problem where
  | noTemplate (path : String)
  | noDataFile (path : String)
  | nameTooLong (path : String)
  | nullEncoding (reading : Bool)
  | unknownEncoding (name : String)
  | unreadableData (error : Encoding.StreamError)
  | badBindings (error : BindingsError)
  | source (error : SourceError)
  | compile (error : CompileError)
  | notCompiled (lacking : Lacking)
  | render (error : RenderError)
  | nothingRendered
  | unwritable (output path : String) (fault : FileFault)
  | nullPath
  | unencodable (error : EncodeError)

/-- A fault at a path, as the system words it. -/
def systemMessage (path : String) (fault : FileFault) : String :=
  let number := match fault.number? with
    | some n => s!"[Errno {n}] "
    | none => ""
  number ++ fault.text ++ ": " ++ Text.quotedString path

/-- Whether a value in a YAML document is merely a wrong value. -/
def Yaml.Fault.isWrongValue : Yaml.Fault → Bool
  | malformed | codeOutOfRange | notNumber _ | noSuchTime _ => true
  | codeTooLarge | emptyNumber | notBool _ | notTimestamp => false

namespace Problem

/-- The message of a problem. -/
def message : Problem → String
  | noTemplate path => s!"Template file not found: {path}"
  | noDataFile path => s!"Data file not found: {path}"
  | nameTooLong path => systemMessage path .nameTooLong
  | nullEncoding _ => "embedded null character"
  | unknownEncoding name => s!"unknown encoding: {name}"
  | unreadableData e => e.message
  | badBindings e => e.message
  | source e => e.message
  | compile e => e.message
  | notCompiled .render => "'NoneType' object has no attribute 'render'"
  | notCompiled .source => "'NoneType' object has no attribute 'source'"
  | render e => e.message
  | nothingRendered => "Nothing rendered"
  | unwritable _ path fault => systemMessage path fault
  | nullPath => FileFault.nullByte.text
  | unencodable e => e.message

/-- What the line that reports a problem begins with; problems that are not reported have none. -/
def heading? : Problem → Option String
  | noTemplate _ | noDataFile _ | unreadableData _ | nothingRendered | nullEncoding true => some "Error"
  | badBindings (.badValue fault) => if fault.isWrongValue then some "Error" else none
  | badBindings _ => some "Error"
  | source e => if e.hasNull then none else some "Error"
  | compile .nullCharacter => none
  | compile _ => some "Compile error"
  | render (.failed ..) => some "Render error"
  | unwritable output _ _ => some s!"Error writing {output}"
  | _ => none

end Problem

/-- How a job that cannot go on ends. -/
inductive Halt where
  | reported (problem : Problem)
  | exited (code : Data)
  | escaped (problem : Problem)

/-- A problem ends a job with a report if it has a heading. -/
def Halt.ofProblem (p : Problem) : Halt :=
  match p with
  | .render (.exited _ _ code) => .exited code
  | p => if p.heading?.isSome then .reported p else .escaped p

/-- The line that a halt leaves on the error output. -/
def Halt.line : Halt → String
  | .reported p => (p.heading?.getD "Error") ++ ": " ++ p.message ++ "\n"
  | .exited _ | .escaped _ => ""

/-- The exit code of a halt. -/
def Halt.code? : Halt → Option Data
  | .reported _ => some (.int 1)
  | .exited code => some code
  | .escaped _ => none

/-- What jobs work on: the objects of the machine, whose output is also that of the job, the messages, and
the files. -/
structure Session where
  machine : Machine
  log : Array LogEntry
  files : Files

/-- The text that a session has put out. -/
def Session.output (s : Session) : String :=
  String.join s.machine.printed.toList

/-- The work of a job. -/
abbrev Work := ExceptT Halt (StateM Session)

namespace Work

/-- Ends the job because of a problem. -/
def fail {α : Type} (p : Problem) : Work α :=
  throw (.ofProblem p)

/-- Leaves a message. -/
def say (level : Nat) (message : String) : Work Unit :=
  modify fun s => { s with log := s.log.push ⟨level, message⟩ }

/-- Puts out a text. -/
def put (text : String) : Work Unit :=
  modify fun s => { s with machine := { s.machine with printed := s.machine.printed.push text } }

/-- Does work that leaves messages. -/
def logged {ε α : Type} (problem : ε → Problem) (c : Logged ε α) : Work α := do
  let s ← get
  let (result, log) := c.run.run s.log
  set { s with log := log }
  match result with
  | .ok a => return a
  | .error e => fail (problem e)

/-- Does work on the machine. -/
def rendering {α : Type} (r : Rendering α) : Work α := do
  let s ← get
  let (result, machine, log) := r.run.run (s.machine, s.log)
  set { s with machine := machine, log := log }
  match result with
  | .ok a => return a
  | .error e => fail (.render e)

end Work

end Stencil
