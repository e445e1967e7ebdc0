import Stencil.Bindings.Yaml.Binary
import Stencil.Bindings.Yaml.Node
import Stencil.Data
import Stencil.Script.Value.Numeral

/-!
# Values of YAML

The data tree that a node stands for. A mapping may take over the entries of others; its own entries come
behind theirs and win over them.
-/

namespace Stencil.Yaml

open Script (Numeral.readInt Numeral.readFloat)

/-- A fault and how deep in the document it is. Of several faults the one that is the least deep counts,
and of those at one depth the first. -/
abbrev Deep := Except (Nat × Fault)

/-- A computation that may fail, at a depth. -/
def Deep.lift {α : Type} (depth : Nat) : Except Fault α → Deep α
  | .ok a => .ok a
  | .error fault => .error (depth, fault)

/-- Two computations, of which the fault that counts is reported. -/
def Deep.both {α β γ : Type} (combine : α → β → γ) : Deep α → Deep β → Deep γ
  | .ok a, .ok b => .ok (combine a b)
  | .ok _, .error e => .error e
  | .error e, .ok _ => .error e
  | .error e, .error e' => if e'.1 < e.1 then .error e' else .error e

/-- The text of a scalar. A mapping with an entry for its value stands for the text of that. -/
def Node.text? : Nat → Node → Option String
  | _, .scalar _ text => some text
  | 0, _ => none
  | fuel + 1, .mapping _ entries =>
    (entries.find? fun e => match e.1 with
      | .scalar .value _ | .sequence .value _ | .mapping .value _ => true
      | _ => false).bind fun e => e.2.text? fuel
  | _, .sequence _ _ => none

/-- A text without underscores and without its sign, and whether the sign is a minus. -/
def signed (s : String) : Except Fault (Bool × Text) :=
  match s.toList.filter (· != '_') with
  | [] => .error .emptyNumber
  | '-' :: r => .ok (true, r)
  | '+' :: r => .ok (false, r)
  | r => .ok (false, r)

/-- The text between the colons of a text. -/
def splitColons : Text → List Text
  | [] => [[]]
  | c :: r =>
    if c = ':' then [] :: splitColons r
    else match splitColons r with
      | [] => [[c]]
      | first :: rest => (c :: first) :: rest

/-- Reads an integer in a base. -/
def readInt (base : Nat) (t : Text) : Except Fault Int :=
  match Numeral.readInt base (String.ofList t) with
  | .ok i => .ok i
  | .error failure =>
    match failure.args with
    | .str message :: _ => .error (.notNumber message)
    | _ => .error (.notNumber "")

/-- Reads a floating-point number. -/
def readFloat (t : Text) : Except Fault Float :=
  match Numeral.readFloat (String.ofList t) with
  | .ok x => .ok x
  | .error failure =>
    match failure.args with
    | .str message :: _ => .error (.notNumber message)
    | _ => .error (.notNumber "")

/-- The integer of a text: binary, hexadecimal or octal by its beginning, in groups of sixty, or decimal. -/
def intOf (s : String) : Except Fault Int := do
  let (negative, t) ← signed s
  let n ← match t with
    | [] => throw .emptyNumber
    | ['0'] => pure 0
    | '0' :: 'b' :: r => readInt 2 r
    | '0' :: 'x' :: r => readInt 16 r
    | '0' :: r => readInt 8 ('0' :: r)
    | t =>
      if t.contains ':' then do
        let groups ← (splitColons t).mapM (readInt 10)
        pure (groups.foldl (fun n g => 60 * n + g) 0)
      else readInt 10 t
  return if negative then -n else n

/-- The floating-point number of a text: infinite, in groups of sixty, or decimal. -/
def floatOf (s : String) : Except Fault Float := do
  let (negative, t) ← signed (String.ofList (Text.lower s.toList))
  let sign : Float := if negative then -1.0 else 1.0
  if t = ".inf".toList then return sign * (1.0 / 0.0)
  if t = ".nan".toList then return 0.0 / 0.0
  if t.contains ':' then
    let groups ← (splitColons t).mapM readFloat
    let (x, _) := groups.reverse.foldl (fun (x, base) g => (x + g * base, base * 60.0))
      ((0.0, 1.0) : Float × Float)
    return sign * x
  return sign * (← readFloat t)

/-- The truth value of a word. -/
def boolOf (s : String) : Except Fault Bool :=
  let word := String.ofList (Text.lower s.toList)
  if ["yes", "true", "on"].contains word then .ok true
  else if ["no", "false", "off"].contains word then .ok false
  else .error (.notBool word)

/-- The data that a scalar stands for. -/
def scalarData (tag : Tag) (s : String) : Except Fault Data :=
  match tag with
  | .null => .ok .none
  | .bool => (boolOf s).map .bool
  | .int => (intOf s).map .int
  | .float => (floatOf s).map .float
  | .str => .ok (.str s)
  | .binary =>
    match Binary.decode? s.toList with
    | some bytes => .ok (.other "bytes" (Binary.shown bytes) (Binary.shown bytes))
    | none => .error .malformed
  | .timestamp =>
    match Time.read? s.toList with
    | some t => t.toData
    | none => .error .notTimestamp
  | _ => .error .malformed

/-- The entries of the mappings that a node stands for when it is taken over: one mapping, or several, of
which the first win. -/
def Node.takenOver? (flatten : List (Node × Node) → Option (List (Node × Node))) :
    Node → Option (List (Node × Node))
  | .mapping _ entries => flatten entries
  | .sequence _ items => do
    let groups ← items.mapM fun n => match n with
      | .mapping _ entries => flatten entries
      | _ => none
    return groups.reverse.flatten
  | .scalar _ _ => none

/-- The entries of a mapping with those that it takes over in front. -/
def flatten : Nat → List (Node × Node) → Option (List (Node × Node))
  | 0, _ => none
  | fuel + 1, entries => do
    let taken ← entries.mapM fun (k, v) => match k with
      | .scalar .merge _ | .sequence .merge _ | .mapping .merge _ => v.takenOver? (flatten fuel)
      | _ => some []
    let own := entries.filterMap fun (k, v) => match k with
      | .scalar .merge _ | .sequence .merge _ | .mapping .merge _ => none
      | .scalar .value s => some (.scalar .str s, v)
      | .sequence .value items => some (.sequence .str items, v)
      | .mapping .value es => some (.mapping .str es, v)
      | _ => some (k, v)
    return taken.flatten ++ own

/-- A set, as it is shown. -/
def setShown (keys : List Data) : String :=
  if keys.isEmpty then "set()"
  else "\x7b" ++ String.intercalate ", " (Data.shownItems keys) ++ "\x7d"

/-- The entries of a mapping as data, in the order of their first keys. -/
def dictOf (entries : List (Data × Data)) : List (Data × Data) :=
  entries.foldl (fun es (k, v) => Data.setEntry k v es) []

/-- The data of entries, each read by a function. Only a scalar can be a key. -/
def entriesData (depth : Nat) (read : Node → Deep Data) :
    List (Node × Node) → Deep (List (Data × Data))
  | [] => .ok []
  | (k, v) :: rest =>
    let key := match k with
      | .scalar _ _ => read k
      | _ => .error (depth, .malformed)
    Deep.both List.cons (Deep.both Prod.mk key (read v)) (entriesData depth read rest)

/-- The data of items, each read by a function. -/
def itemsData (read : Node → Deep Data) : List Node → Deep (List Data)
  | [] => .ok []
  | n :: rest => Deep.both List.cons (read n) (itemsData read rest)

/-- The data that a node stands for. -/
def Node.toData : Nat → Nat → Node → Deep Data
  | 0, depth, _ => .error (depth, .malformed)
  | fuel + 1, depth, n =>
    let within := depth + 1
    let read := Node.toData fuel within
    let malformed {α : Type} : Deep α := .error (within, .malformed)
    let pairsOf (items : List Node) : Deep Data := do
      let pairs ← itemsData (fun
        | .mapping _ [(k, v)] =>
          Deep.both (fun k v => Data.tuple [k, v]) (read k) (read v)
        | _ => malformed) items
      return .list pairs
    let mapOf (entries : List (Node × Node)) : Deep (List (Data × Data)) :=
      match flatten (fuel + 1) entries with
      | none => malformed
      | some es => (entriesData within read es).map dictOf
    match n with
    | .sequence .seq items => (itemsData read items).map .list
    | .sequence .orderedMap items | .sequence .pairs items => pairsOf items
    | .mapping .map entries => (mapOf entries).map .dict
    | .mapping .set entries => (mapOf entries).map fun es =>
        let text := setShown (es.map (·.1))
        .other "set" text text
    | n =>
      let tag := match n with
        | .scalar tag _ | .sequence tag _ | .mapping tag _ => tag
      match n.text? (fuel + 1) with
      | some s => Deep.lift depth (scalarData tag s)
      | none => .error (depth, .malformed)

/-- Reads a document as data; an empty document is the missing value. -/
def read (t : Text) : Except Fault Data := do
  match ← Node.ofText t with
  | none => return .none
  | some n =>
    match n.toData (t.length + 2) 0 with
    | .ok d => return d
    | .error (_, fault) => throw fault

end Stencil.Yaml
