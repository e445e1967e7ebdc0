import Stencil.Script.Compare
import Stencil.Script.Value.Basic

/-!
# Iteration

An iterator gives the items of a value one at a time. Lists and dictionaries are read while they are
iterated over; a dictionary must not change its size meanwhile. A generator runs its body up to the next
place where it gives a value.
-/

namespace Stencil.Script.Iterate

/-- A new iterator. -/
def new (i : Iterator) : Run Value :=
  Run.alloc (.iterator i)

/-- The values of single characters. -/
def characters (s : String) : List Value :=
  s.toList.map fun c => .str c.toString

/-- An entry of a dictionary as a view shows it. -/
def shown (what : View) (e : Value × Value) : Value :=
  match what with
  | .keys => e.1
  | .values => e.2
  | .items => .tuple [e.1, e.2]

/-- An iterator over the entries of a dictionary. -/
def overEntries (what : View) (a : Address) : Run Value := do
  new (.entries what a 0 (← Run.entries a).length)

/-- Raises the exception for a value that cannot be iterated over. -/
def notIterable {α : Type} (v : Value) : Run α := do
  Run.typeError s!"'{← Run.kindName v}' object is not iterable"

/-- An iterator over an object of a class. -/
def overInstance (ops : Ops) (v : Value) (i : Instance) : Run Value := do
  match i.cls with
  | .kind (.context .text) | .kind (.context .html) =>
    match i.members.find? "_vars" with
    | some (.ref vars) => overEntries .keys vars
    | _ => notIterable v
  | _ =>
    match ← ops.special? v "__iter__" [] with
    | some it =>
      match it with
      | .ref a =>
        match ← Run.object? a with
        | some (.generator _) | some (.iterator _) => return it
        | _ =>
          if (← Run.special? it "__next__").isSome then return it
          else Run.typeError s!"iter() returned non-iterator of type '{← Run.kindName it}'"
      | _ => Run.typeError s!"iter() returned non-iterator of type '{← Run.kindName it}'"
    | none =>
      if (← Run.special? v "__getitem__").isSome then new (.indexed v 0) else notIterable v

/-- An iterator over the items of a value. -/
def start (ops : Ops) (v : Value) : Run Value := do
  match v with
  | .str s =>
    let ascii := s.toList.all fun c => c.toNat < 0x80
    let kind : Kind := if ascii then .strIterator else .foreign "str_iterator"
    new (.items kind (characters s))
  | .bytes b => new (.items (.foreign "bytes_iterator") (b.map fun (n : Nat) => .int n))
  | .tuple vs => new (.items .tupleIterator vs)
  | .range a b c => new (.range a b c)
  | .view what a => overEntries what a
  | .ref a =>
    match ← Run.object? a with
    | some (.list _) => new (.listFrom a 0)
    | some (.dict _) => overEntries .keys a
    | some (.set _ vs) => new (.items .setIterator (Value.arranged vs))
    | some (.iterator _) | some (.generator _) => return v
    | some (.instance i) => overInstance ops v i
    | _ => notIterable v
  | _ => notIterable v

/-- The items of a value. -/
def items (ops : Ops) (v : Value) : Run (List Value) := do
  match v with
  | .tuple vs => return vs
  | .str s => return characters s
  | _ => return (← ops.drain (← start ops v)).toList

/-- Takes up a generator with a signal. -/
def resume (ops : Ops) (a : Address) (g : Generator) (signal : Signal) : Run Advance := do
  match g.state with
  | .running => Run.valueError "generator already executing"
  | .finished =>
    match signal with
    | .raised e => Run.raise e
    | _ => return .done .none
  | .waiting tasks =>
    Run.store a (.generator { g with state := .running, started := true })
    let leave (state : GeneratorState) : Run Unit :=
      Run.store a (.generator { g with state, started := true })
    let outcome ← tryCatch (Run.nested (ops.resume g.env signal tasks)) fun stop => do
      leave .finished
      match stop with
      | .raised e =>
        if ← Run.isException e .stopIteration then
          Run.failWith .runtimeError "generator raised StopIteration"
        else throw stop
      | .exhausted => throw stop
    match outcome with
    | .yielded v rest =>
      leave (.waiting rest)
      return .item v
    | .finished v =>
      leave .finished
      return .done v

/-- The end of an iterator that says by an exception that it is there. Other exceptions go on. -/
def endedBy (e : Address) : Run Advance := do
  if ← Run.isException e .stopIteration then
    match ← Run.object? e with
    | some (.instance i) => return .done (i.args.headD .none)
    | _ => return .done .none
  else throw (.raised e)

/-- Takes up an iterator of a class, which says by an exception that it is at its end. -/
def advanceInstance (ops : Ops) (v : Value) : Run Advance := do
  Run.catching
    (do
      match ← ops.special? v "__next__" [] with
      | some r => return .item r
      | none => Run.typeError s!"'{← Run.kindName v}' object is not an iterator")
    endedBy

/-- Raises an exception where a generator waits for the iterator whose values it hands on. A generator
has it raised where it waits in turn, or is closed when the exception asks to end. -/
def raiseFrom (ops : Ops) (it : Value) (e : Address) : Run Advance := do
  match it with
  | .ref a =>
    match ← Run.object? a with
    | some (.generator _) =>
      if ← Run.isException e .generatorExit then
        let _ ← ops.call (.method it "close") [] []
        Run.raise e
      else
        Run.catching (return .item (← ops.call (.method it "throw") [.ref e] [])) endedBy
    | _ => Run.raise e
  | _ => Run.raise e

/-- Takes up iterators in turn; the number of those that gave an item comes with the items. -/
def advanceAll (ops : Ops) : List Value → List Value → Run (List Value × Bool)
  | [], acc => return (acc.reverse, true)
  | it :: rest, acc => do
    match ← ops.advance it .none with
    | .item v => advanceAll ops rest (v :: acc)
    | .done _ => return (acc.reverse, false)

/-- The names of the first arguments in messages. -/
def argumentsBefore (n : Nat) : String :=
  if n = 1 then "argument 1" else s!"arguments 1-{n}"

/-- Checks that iterators which must have the same length all end together. -/
def checkTogether (ops : Ops) (sources : List Value) (given : Nat) : Run Unit := do
  if 0 < given then
    Run.valueError s!"zip() argument {given + 1} is shorter than {argumentsBefore given}"
  else
    (sources.drop 1).zipIdx.forM fun (it, i) => do
      match ← ops.advance it .none with
      | .item _ =>
        Run.valueError s!"zip() argument {i + 2} is longer than {argumentsBefore (i + 1)}"
      | .done _ => return ()

/-- Looks for the next item that a filter lets through. -/
def search (ops : Ops) (test source : Value) : Nat → Run Advance
  | 0 => throw .exhausted
  | n + 1 => do
    match ← ops.advance source .none with
    | .done v => return .done v
    | .item v =>
      let kept ← match test with
        | .none => ops.truthy v
        | _ => do ops.truthy (← ops.call test [v] [])
      if kept then return .item v else search ops test source n

/-- Takes up an iterator that is an object of the machine. -/
def advanceIterator (ops : Ops) (a : Address) (i : Iterator) : Run Advance := do
  let keep (i : Iterator) : Run Unit := Run.store a (.iterator i)
  let finish (kind : Kind) : Run Advance := do
    keep (.items kind [])
    return .done .none
  match i with
  | .items _ [] => return .done .none
  | .items kind (v :: rest) =>
    keep (.items kind rest)
    return .item v
  | .listFrom list n =>
    match (← Run.items list)[n]? with
    | some v =>
      keep (.listFrom list (n + 1))
      return .item v
    | none => finish .listIterator
  | .listBack list n =>
    match n with
    | 0 => finish .listReverseIterator
    | k + 1 =>
      match (← Run.items list)[k]? with
      | some v =>
        keep (.listBack list k)
        return .item v
      | none => finish .listReverseIterator
  | .entries what dict n size =>
    let es ← Run.entries dict
    if es.length ≠ size then
      Run.failWith .runtimeError "dictionary changed size during iteration"
    else
      match es[n]? with
      | some e =>
        keep (.entries what dict (n + 1) size)
        return .item (shown what e)
      | none => finish .keyIterator
  | .range n stop step =>
    if (0 < step && n < stop) || (step < 0 && stop < n) then
      keep (.range (n + step) stop step)
      return .item (.int n)
    else return .done .none
  | .enumerate source n =>
    match ← ops.advance source .none with
    | .item v =>
      keep (.enumerate source (n + 1))
      return .item (.tuple [.int n, v])
    | .done v => return .done v
  | .zip [] _ => return .done .none
  | .zip sources strict =>
    let (vs, complete) ← advanceAll ops sources []
    if complete then return .item (.tuple vs)
    else
      if strict then checkTogether ops sources vs.length
      finish .zip
  | .map f sources =>
    let (vs, complete) ← advanceAll ops sources []
    if complete then return .item (← ops.call f vs []) else return .done .none
  | .filter f source => search ops f source ops.steps
  | .untilEqual f stop =>
    let v ← ops.call f [] []
    if ← ops.equal v stop then finish .callIterator else return .item v
  | .indexed object n =>
    Run.catching
      (do
        match ← ops.special? object "__getitem__" [.int n] with
        | some v =>
          keep (.indexed object (n + 1))
          return .item v
        | none => return .done .none)
      fun e => do
        if ← Run.isException e .indexError then return .done .none else throw (.raised e)

/-- Takes up an iterator, to which a value is sent. -/
def advance (ops : Ops) (it sent : Value) : Run Advance := do
  match it with
  | .ref a =>
    match ← Run.object? a with
    | some (.iterator i) => advanceIterator ops a i
    | some (.generator g) =>
      let signal := if g.started then Signal.sent sent else .proceed
      resume ops a g signal
    | some (.instance _) => advanceInstance ops it
    | _ => Run.typeError s!"'{← Run.kindName it}' object is not an iterator"
  | _ => Run.typeError s!"'{← Run.kindName it}' object is not an iterator"

end Stencil.Script.Iterate
