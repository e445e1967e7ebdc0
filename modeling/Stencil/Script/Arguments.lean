import Stencil.Script.Ops

/-!
# Arguments of built-in functions

Checks how many arguments a function was given and takes values out of them. The wording of a complaint
depends on how the function takes its arguments.
-/

namespace Stencil.Script.Arguments

/-- Raises an exception when named arguments are given. -/
def noNamed (name : String) (named : Members) : Run Unit := do
  if !named.isEmpty then Run.typeError s!"{name}() takes no keyword arguments"

/-- Raises an exception when arguments are given. -/
def noneOf (name : String) (args : List Value) (named : Members) : Run Unit := do
  noNamed name named
  if !args.isEmpty then Run.typeError s!"{name}() takes no arguments ({args.length} given)"

/-- The only argument of a function. -/
def one (name : String) (args : List Value) (named : Members) : Run Value := do
  noNamed name named
  match args with
  | [v] => return v
  | _ => Run.typeError s!"{name}() takes exactly one argument ({args.length} given)"

/-- A count of things in words. -/
def counted (n : Nat) (what : String) : String :=
  s!"{n} {what}" ++ if n = 1 then "" else "s"

/-- Raises an exception unless the number of arguments is within bounds. -/
def between (name : String) (least most : Nat) (args : List Value) : Run Unit := do
  let n := args.length
  let complain (bound : String) (k : Nat) : Run Unit := do
    Run.typeError (s!"{name} expected {bound}" ++ counted k "argument" ++ s!", got {n}")
  if n < least then complain (if least = most then "" else "at least ") least
  else if most < n then complain (if least = most then "" else "at most ") most

/-- The name of a method without the kind in front of it. -/
def bareName (name : String) : String :=
  (name.splitOn ".").getLastD name

/-- Raises an exception unless the arguments are positional and their number is within bounds. -/
def positional (name : String) (least most : Nat) (args : List Value) (named : Members) :
    Run Unit := do
  noNamed name named
  between (bareName name) least most args

/-- The name of the kind of an argument, or the word for the absent value. -/
def givenName (v : Value) : Run String := do
  match v with
  | .none => return "None"
  | _ => Run.kindName v

/-- An argument as an integer. -/
def integer (v : Value) : Run Int := do
  match v.int? with
  | some i => return i
  | none =>
    match v with
    | .float _ => Run.typeError "'float' object cannot be interpreted as an integer"
    | _ => Run.typeError s!"'{← Run.kindName v}' object cannot be interpreted as an integer"

/-- An argument as an integer that fits into so many bits, which a word names in messages. -/
def sized (bits : Nat) (word : String) (v : Value) : Run Int := do
  let i ← integer v
  if -Int.pow 2 (bits - 1) ≤ i && i < Int.pow 2 (bits - 1) then return i
  else Run.failWith .overflowError s!"Python int too large to convert to C {word}"

/-- An argument as a size. -/
def size (v : Value) : Run Int := sized 64 "ssize_t" v

/-- An argument as a small integer. -/
def small (v : Value) : Run Int := sized 32 "int" v

/-- Raises an exception for the first named argument that is not among those allowed. -/
def onlyNamed (function : String) (allowed : List String) (named : Members) : Run Unit := do
  match List.find? (fun (n, _) => !allowed.contains n) named with
  | some (n, _) => Run.typeError s!"'{n}' is an invalid keyword argument for {function}()"
  | none => return ()

/-- How a function takes its arguments: the names of its parameters in order, an empty name for one that
only a position gives, how many of them are required, and how many a position may give. -/
structure Signature where
  function : String
  names : List String
  required : Nat
  positional : Nat

namespace Signature

/-- The number of parameters that only a position gives. -/
def nameless (s : Signature) : Nat :=
  (s.names.takeWhile (·.isEmpty)).length

/-- Raises an exception when there are too many arguments or too few positional ones. -/
def checkCounts (s : Signature) (args : List Value) (named : Members) : Run Unit := do
  let given := args.length
  let total := given + named.length
  if s.names.length < total then
    let what := if given = 0 then "keyword argument" else "argument"
    Run.typeError (s!"{s.function}() takes at most " ++ counted s.names.length what ++
      s!" ({total} given)")
  if s.positional < given then
    if s.positional = 0 then Run.typeError s!"{s.function}() takes no positional arguments"
    let bound := if s.required < s.positional then "at most " else "exactly "
    Run.typeError (s!"{s.function}() takes {bound}" ++ counted s.positional "positional argument" ++
      s!" ({given} given)")
  let least := min s.required s.nameless
  if given < least then
    let bound := if least < s.positional then "at least " else "exactly "
    Run.typeError (s!"{s.function}() takes {bound}" ++ counted least "positional argument" ++
      s!" ({given} given)")

/-- The values of the parameters of a function, in their order. -/
def take (s : Signature) (args : List Value) (named : Members) : Run (List (Option Value)) := do
  s.checkCounts args named
  let values := s.names.zipIdx.map fun (name, i) =>
    match args[i]? with
    | some v => some v
    | none => if name.isEmpty then none else named.find? name
  match List.find? (fun ((_, i), v) => i < s.required && v.isNone) (s.names.zipIdx.zip values) with
  | some ((name, i), _) =>
    Run.typeError s!"{s.function}() missing required argument '{name}' (pos {i + 1})"
  | none => pure ()
  match List.find? (fun (name, i) => i < args.length && !name.isEmpty && (named.find? name).isSome)
      s.names.zipIdx with
  | some (name, i) =>
    Run.typeError
      s!"argument for {s.function}() given by name ('{name}') and position ({i + 1})"
  | none => pure ()
  onlyNamed s.function (s.names.filter (!·.isEmpty)) named
  return values

end Signature

end Stencil.Script.Arguments
