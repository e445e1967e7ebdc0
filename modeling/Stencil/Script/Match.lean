import Stencil.Script.Eval

/-!
# Matching values against patterns

A match gives the names that a pattern captures, or fails. Values are compared for equality, except for
the three singletons; sequences and mappings are taken apart; a class pattern looks at members.
-/

namespace Stencil.Script.Match

/-- The items of a value that patterns for sequences apply to. -/
def sequence? (v : Value) : Run (Option (List Value)) := do
  match v with
  | .tuple vs => return some vs
  | .range a b c =>
    return some ((List.range (rangeLength a b c)).map fun (k : Nat) => .int (a + k * c))
  | .ref a =>
    match ← Run.object? a with
    | some (.list xs) => return some xs.toList
    | _ => return none
  | _ => return none

/-- The entries of a value that patterns for mappings apply to. -/
def mapping? (v : Value) : Run (Option Entries) := do
  match v with
  | .ref a =>
    match ← Run.object? a with
    | some (.dict es) => return some es
    | _ => return none
  | _ => return none

/-- Whether a pattern takes the rest of a sequence. -/
def takesRest : Pattern → Bool
  | .star _ _ => true
  | _ => false

/-- The parts of a sequence that the patterns for its items are matched with. -/
def spread (items : List Pattern) (vs : List Value) : Run (Option (List Value)) := do
  match items.findIdx? takesRest with
  | none => return if items.length = vs.length then some vs else none
  | some k =>
    let behind := items.length - k - 1
    if vs.length < k + behind then return none
    else
      let rest ← Run.newList ((vs.drop k).take (vs.length - k - behind))
      return some (vs.take k ++ rest :: vs.drop (vs.length - behind))

/-- The kinds whose only positional pattern is matched with the value itself. -/
def selfMatching : List Kind :=
  [.bool, .bytes, .dict, .float, .frozenSet, .int, .list, .set, .str, .tuple]

/-- Captures of several matches in turn, unless one fails. -/
def inTurn (f : Pattern → Value → Run (Option Members)) : List (Pattern × Value) →
    Run (Option Members)
  | [] => return some []
  | (p, v) :: rest => do
    match ← f p v with
    | none => return none
    | some ms =>
      match ← inTurn f rest with
      | none => return none
      | some more => return some (ms ++ more)

/-- The values of members that patterns are matched with, unless one is missing. -/
def membersOf (ops : Ops) (v : Value) : List (String × Pattern) →
    Run (Option (List (Pattern × Value)))
  | [] => return some []
  | (name, p) :: rest => do
    let found ← Run.catching (do return some (← ops.member v name)) fun e => do
      if ← Run.isException e .attributeError then return none else throw (.raised e)
    match found with
    | none => return none
    | some m => return (← membersOf ops v rest).map ((p, m) :: ·)

/-- Matches a value with a pattern; patterns are nested at most as deep as the bound. -/
def pattern (ops : Ops) (env : Env) : Nat → Pattern → Value → Run (Option Members)
  | 0, _, _ => throw .exhausted
  | n + 1, p, v => do
    match p with
    | .value l e =>
      let w ← ops.eval env e
      Run.atLine l
      return if ← ops.equal v w then some [] else none
    | .singleton _ c => return if Compare.identical v (Eval.constant c) then some [] else none
    | .capture _ id => return some [(id, v)]
    | .wildcard _ => return some []
    | .star _ id => return some (match id with
      | some id => [(id, v)]
      | none => [])
    | .sequence l items =>
      Run.atLine l
      match ← sequence? v with
      | none => return none
      | some vs =>
        match ← spread items vs with
        | none => return none
        | some parts => inTurn (pattern ops env n) (items.zip parts)
    | .mapping l items rest =>
      Run.atLine l
      match ← mapping? v with
      | none => return none
      | some es =>
        let keys ← items.mapM fun (k, _) => ops.eval env k
        let found := keys.filterMap es.find?
        if found.length < keys.length then return none
        else
          match ← inTurn (pattern ops env n) ((items.map (·.2)).zip found) with
          | none => return none
          | some ms =>
            match rest with
            | none => return some ms
            | some id =>
              let left ← Run.newDict (keys.foldl (fun es k => es.erase k) es)
              return some (ms ++ [(id, left)])
    | .ofClass l callee items named =>
      let cls ← ops.eval env callee
      Run.atLine l
      if !(← Run.isClass cls) then Run.typeError "called match pattern must be a class"
      if !(← Run.isSubclass (← Run.classOf v) cls) then return none
      else
        let positional : List (Pattern × Value) ← match cls, items with
          | _, [] => pure []
          | .kind k, [p] =>
            if selfMatching.contains k then pure [(p, v)]
            else Run.typeError s!"{k.name}() accepts 0 positional sub-patterns (1 given)"
          | _, _ => do
            let names ← match ← Run.userMember? cls "__match_args__" with
              | some (.tuple ns) => pure ns
              | _ => pure []
            if names.length < items.length then
              Run.typeError (s!"{← Run.nameOf cls}() accepts {names.length} positional " ++
                s!"sub-pattern{Binding.plural names.length} ({items.length} given)")
            let named ← (names.zip items).mapM fun (name, p) => do
              return (← ContextMethod.memberName name, p)
            match ← membersOf ops v named with
            | some parts => pure parts
            | none => return none
        match ← membersOf ops v named with
        | none => return none
        | some parts => inTurn (pattern ops env n) (positional ++ parts)
    | .either _ items =>
      let rec first : List Pattern → Run (Option Members)
        | [] => return none
        | p :: rest => do
          match ← pattern ops env n p v with
          | some ms => return some ms
          | none => first rest
      first items
    | .named _ inner id =>
      return (← pattern ops env n inner v).map (· ++ [(id, v)])

end Stencil.Script.Match
