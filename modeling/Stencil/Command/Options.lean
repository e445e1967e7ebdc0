import Stencil.Text.Letter
import Stencil.Text.Quoted

/-!
# Options of the command line

Reads the arguments of the command line. Long options may be abbreviated and may carry their value behind
an equals sign; short options may be joined, and the last of them may carry its value. Two hyphens end the
options.
-/

namespace Stencil

/-- What an option does. -/
inductive Switch where
  | help
  | html
  | context
  | dataFile
  | source
  | highlight
  | encoding
  | output
  | verbosity
  | version
  deriving Repr, DecidableEq

/-- An option: its names, what it does, and whether it takes a value. -/
structure OptionSpec where
  short : Option String
  long : String
  switch : Switch
  takesValue : Bool
  deriving Repr, DecidableEq

namespace OptionSpec

/-- The options of the program, in the order in which they are listed. -/
def all : List OptionSpec := [
  ⟨some "-h", "--help", .help, false⟩,
  ⟨some "-H", "--html", .html, false⟩,
  ⟨some "-c", "--context", .context, true⟩,
  ⟨some "-f", "--datafile", .dataFile, true⟩,
  ⟨some "-x", "--source", .source, false⟩,
  ⟨none, "--highlight", .highlight, false⟩,
  ⟨none, "--encoding", .encoding, true⟩,
  ⟨some "-o", "--output", .output, true⟩,
  ⟨some "-v", "--verbosity", .verbosity, false⟩,
  ⟨some "-V", "--version", .version, false⟩]

/-- The names of an option, as messages give them. -/
def shown (o : OptionSpec) : String :=
  match o.short with
  | some s => s ++ "/" ++ o.long
  | none => o.long

/-- The option of a name. -/
def named? (name : String) : Option OptionSpec :=
  all.find? fun o => o.short == some name || o.long == name

end OptionSpec

/-- Why the arguments cannot be used. -/
inductive UsageError where
  | ambiguous (option : String) (candidates : List String)
  | unrecognized (arguments : List String)
  | missing (name : String)
  | noValue (option : OptionSpec)
  | superfluousValue (option : OptionSpec) (value : String)
  deriving Repr, DecidableEq

/-- The message of an error. -/
def UsageError.message : UsageError → String
  | ambiguous option candidates =>
    s!"ambiguous option: {option} could match " ++ String.intercalate ", " candidates
  | unrecognized arguments => "unrecognized arguments: " ++ String.intercalate " " arguments
  | missing name => s!"the following arguments are required: {name}"
  | noValue o => s!"argument {o.shown}: expected one argument"
  | superfluousValue o value =>
    s!"argument {o.shown}: ignored explicit argument {Text.quotedString value}"

/-- What an argument is: an operand, the mark that ends the options, an option with the value that it
carries, or an option that is not known. -/
inductive Argument where
  | operand (text : String)
  | endMark
  | option (spec : OptionSpec) (short : Bool) (value : Option String)
  | unknown (text : String)
  deriving Repr, DecidableEq

namespace Argument

/-- The text before and the text behind the first equals sign. -/
def cutValue? (t : Text) : Option (String × String) :=
  (Text.cutAt? ['='] t).map fun (a, b) => (String.ofList a, String.ofList b)

/-- Whether a text is a hyphen and a number: digits, or digits around a point with one behind it. -/
def isNegative (t : Text) : Bool :=
  let digit (c : Char) : Bool := (Text.decimalValue? c).isSome
  match (if t.getLast? = some '\n' then t.dropLast else t) with
  | '-' :: r =>
    match r.dropWhile digit with
    | [] => !r.isEmpty
    | '.' :: s => !s.isEmpty && s.all digit
    | _ => false
  | _ => false

/-- The options that an abbreviated long option could stand for. -/
def longCandidates (t : Text) : List OptionSpec :=
  OptionSpec.all.filter fun o => t.isPrefixOf o.long.toList

/-- What an argument in front of the end mark is. -/
def classify (arg : String) : Except UsageError Argument := do
  let t := arg.toList
  let named (name : String) (value : Option String) : Option Argument :=
    (OptionSpec.named? name).map fun o => .option o (o.short == some name) value
  let other : Argument :=
    if isNegative t || t.contains ' ' then .operand arg else .unknown arg
  match t with
  | '-' :: second :: rest =>
    if let some a := named arg none then return a
    let cut := cutValue? t
    if let some a := cut.bind fun (name, value) => named name (some value) then return a
    if second = '-' then
      let (stem, value) := match cut with
        | some (name, value) => (name, some value)
        | none => (arg, none)
      match longCandidates stem.toList with
      | [] => return other
      | [o] => return .option o false value
      | os => throw (.ambiguous arg (os.map (·.long)))
    else
      match named (String.ofList ['-', second]) (some (String.ofList rest)) with
      | some a => return a
      | none => return other
  | _ => return .operand arg

/-- What the arguments are. -/
def classifyAll : List String → Except UsageError (List Argument)
  | [] => return []
  | "--" :: rest => return .endMark :: rest.map .operand
  | arg :: rest => do
    let a ← classify arg
    return a :: (← classifyAll rest)

end Argument

/-- What the command line asks for. -/
structure Options where
  template : String
  html : Bool
  context : Option String
  dataFile : Option String
  source : Bool
  highlight : Bool
  encoding : Option String
  output : Option String
  verbosity : Nat
  deriving Repr, DecidableEq

/-- The options without any argument. -/
def Options.initial : Options :=
  ⟨"", false, none, none, false, false, none, none, 0⟩

/-- What is to be done: render a template, show the help, or show the version. -/
inductive Request where
  | render (options : Options)
  | help
  | version
  deriving Repr, DecidableEq

namespace Options

/-- An option with its value is taken into account; help and version end the reading. A value that is the
end mark counts as none. -/
def apply (o : Options) (switch : Switch) (value : Option String) : Except Request Options :=
  let value := if value = some "--" then none else value
  match switch with
  | .help => .error .help
  | .version => .error .version
  | .html => .ok { o with html := true }
  | .context => .ok { o with context := value }
  | .dataFile => .ok { o with dataFile := value }
  | .source => .ok { o with source := true }
  | .highlight => .ok { o with highlight := true }
  | .encoding => .ok { o with encoding := value }
  | .output => .ok { o with output := value }
  | .verbosity => .ok { o with verbosity := o.verbosity + 1 }

/-- The options that short options joined in one argument stand for. `text` is what follows the name of
the first one. The last of them may need a value that it does not carry. -/
def joined (spec : OptionSpec) (short : Bool) : Text → Except UsageError (List (OptionSpec × Option String))
  | [] => if spec.takesValue then .ok [(spec, some "")] else .error (.superfluousValue spec "")
  | c :: r =>
    let value := String.ofList (c :: r)
    if spec.takesValue then .ok [(spec, some value)]
    else if !short then .error (.superfluousValue spec value)
    else
      match OptionSpec.named? (String.ofList ['-', c]) with
      | none => .error (.superfluousValue spec value)
      | some next =>
        if r.isEmpty then .ok [(spec, none), (next, none)]
        else (joined next true r).map ((spec, none) :: ·)

/-- The options that one argument stands for. -/
def spread (spec : OptionSpec) (short : Bool) :
    Option String → Except UsageError (List (OptionSpec × Option String))
  | none => .ok [(spec, none)]
  | some value => joined spec short value.toList

/-- Takes options into account one after the other. -/
def applyAll (o : Options) : List (OptionSpec × Option String) → Except Request Options
  | [] => .ok o
  | (spec, value) :: rest => do applyAll (← o.apply spec.switch value) rest

/-- The state of reading: the options so far, whether the template has been named, and the arguments that
have no use. -/
structure Progress where
  options : Options
  named : Bool
  extra : List String

/-- Why reading ends before its end. -/
inductive Ending where
  | request (r : Request)
  | error (e : UsageError)

/-- Takes options into account whose values they carry, except for that of the last one, which may be the
next argument. The result says whether it is. -/
def take (p : Progress) (items : List (OptionSpec × Option String)) (next : Option String) :
    Except Ending (Progress × Bool) := do
  let needs := match items.getLast? with
    | some (spec, none) => if spec.takesValue then some spec else none
    | _ => none
  let (items, used) ← match needs, next with
    | none, _ => pure (items, false)
    | some spec, some v => pure (items.dropLast ++ [(spec, some v)], true)
    | some spec, none => throw (.error (.noValue spec))
  match p.options.applyAll items with
  | .ok o => return ({ p with options := o }, used)
  | .error r => throw (.request r)

/-- Goes through the arguments. The first operand names the template, and takes the end mark next to it
with it. -/
def collect (p : Progress) : List Argument → Except Ending Progress
  | [] => .ok p
  | .operand s :: .endMark :: rest =>
    if p.named then collect { p with extra := p.extra ++ [s, "--"] } rest
    else collect { p with options := { p.options with template := s }, named := true } rest
  | .operand s :: rest =>
    if p.named then collect { p with extra := p.extra ++ [s] } rest
    else collect { p with options := { p.options with template := s }, named := true } rest
  | .endMark :: .operand s :: rest =>
    if p.named then collect { p with extra := p.extra ++ ["--", s] } rest
    else collect { p with options := { p.options with template := s }, named := true } rest
  | .endMark :: rest => collect { p with extra := p.extra ++ ["--"] } rest
  | .unknown s :: rest => collect { p with extra := p.extra ++ [s] } rest
  | .option spec short value :: rest =>
    match spread spec short value with
    | .error e => .error (.error e)
    | .ok items =>
      match rest with
      | .operand s :: rest' =>
        match take p items (some s) with
        | .error e => .error e
        | .ok (p', true) => collect p' rest'
        | .ok (p', false) => collect p' (.operand s :: rest')
      | rest =>
        match take p items none with
        | .error e => .error e
        | .ok (p', _) => collect p' rest
  termination_by args => args.length

/-- The name of the operand. -/
def operandName : String := "templateFile"

/-- What the arguments of the command line ask for. -/
def parse (args : List String) : Except UsageError Request := do
  let arguments ← Argument.classifyAll args
  match collect ⟨initial, false, []⟩ arguments with
  | .error (.request r) => return r
  | .error (.error e) => throw e
  | .ok p =>
    if !p.named then throw (.missing operandName)
    if !p.extra.isEmpty then throw (.unrecognized p.extra)
    return .render p.options

end Options

end Stencil
