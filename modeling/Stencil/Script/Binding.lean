import Stencil.Script.Ops

/-!
# Binding arguments to parameters

The arguments of a call are matched with the parameters of a function: by position first, then by name;
what is left goes to the parameters that collect arguments. Each way in which this can fail has its own
message.
-/

namespace Stencil.Script.Binding

/-- Names in quotes, separated by commas, with a word before the last. -/
def listed : List String → String
  | [] => ""
  | [a] => s!"'{a}'"
  | [a, b] => s!"'{a}' and '{b}'"
  | names =>
    String.intercalate ", " (names.dropLast.map fun n => s!"'{n}'") ++
      ", and '" ++ names.getLastD "" ++ "'"

/-- The plural ending for a count. -/
def plural (n : Nat) : String :=
  if n = 1 then "" else "s"

/-- The parameters that take a positional argument. -/
def positionals (params : List ParamSlot) : List ParamSlot :=
  params.filter fun p => p.kind == .positionOnly || p.kind == .plain

/-- The parameters that can be given by name. -/
def nameable (params : List ParamSlot) : List ParamSlot :=
  params.filter fun p => p.kind == .plain || p.kind == .nameOnly

/-- The name of the parameter that collects arguments of a kind. -/
def collector? (params : List ParamSlot) (kind : ParamKind) : Option String :=
  (params.find? (·.kind == kind)).map (·.id)

/-- The message for too many positional arguments. -/
def tooMany (path : String) (params : List ParamSlot) (given : Nat) (bound : Members) : String :=
  let slots := positionals params
  let withDefault := (slots.filter (·.default.isSome)).length
  let n := slots.length
  let byName := (params.filter fun p => p.kind == .nameOnly && (bound.find? p.id).isSome).length
  let signature := if withDefault = 0 then s!"{n}" else s!"from {n - withDefault} to {n}"
  let ending := if withDefault = 0 then plural n else "s"
  let extra :=
    if byName = 0 then ""
    else s!" positional argument{plural given} (and {byName} keyword-only argument{plural byName})"
  let verb := if given = 1 && byName = 0 then "was" else "were"
  s!"{path}() takes {signature} positional argument{ending} but {given}{extra} {verb} given"

/-- Binds the named arguments; those that no parameter takes are collected. -/
def bindNamed (path : String) (params : List ParamSlot) :
    Members → Members → Members → Run (Members × Members)
  | [], bound, extra => return (bound, extra)
  | (name, v) :: rest, bound, extra => do
    if (nameable params).any (·.id == name) then
      if (bound.find? name).isSome then
        Run.typeError s!"{path}() got multiple values for argument '{name}'"
      bindNamed path params rest (bound.insert name v) extra
    else if (collector? params .names).isSome then
      bindNamed path params rest bound (extra ++ [(name, v)])
    else
      let given : Members := (name, v) :: rest
      let wrong := (params.filter fun p =>
        p.kind == .positionOnly && (given.find? p.id).isSome).map (·.id)
      if wrong.isEmpty then
        Run.typeError s!"{path}() got an unexpected keyword argument '{name}'"
      else
        Run.typeError (s!"{path}() got some positional-only arguments passed as keyword " ++
          "arguments: '" ++ String.intercalate ", " wrong ++ "'")

/-- Raises an exception for parameters without a value. -/
def checkMissing (path what : String) (params : List ParamSlot) (bound : Members) : Run Unit := do
  let missing := (params.filter fun p => p.default.isNone && (bound.find? p.id).isNone).map (·.id)
  if !missing.isEmpty then
    Run.typeError (s!"{path}() missing {missing.length} required {what} " ++
      s!"argument{plural missing.length}: {listed missing}")

/-- Binds arguments to parameters. The result has a value for every parameter. -/
def bind (path : String) (params : List ParamSlot) (args : List Value) (named : Members) :
    Run Members := do
  let slots := positionals params
  let byPosition : Members := (slots.zip args).map fun (p, v) => (p.id, v)
  let (bound, extra) ← bindNamed path params named byPosition []
  let rest := args.drop slots.length
  let many := collector? params .positions
  if !rest.isEmpty && many.isNone then Run.typeError (tooMany path params args.length bound)
  checkMissing path "positional" slots bound
  checkMissing path "keyword-only" (params.filter (·.kind == .nameOnly)) bound
  let filled := params.foldl (fun (bound : Members) p =>
    match bound.find? p.id, p.default with
    | none, some v => bound.insert p.id v
    | _, _ => bound) bound
  let filled := match many with
    | some id => filled.insert id (.tuple rest)
    | none => filled
  match collector? params .names with
  | some id =>
    let dict ← Run.newDict (extra.map fun (k, v) => (.str k, v))
    return filled.insert id dict
  | none => return filled

end Stencil.Script.Binding
