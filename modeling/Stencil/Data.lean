import Stencil.Decimal.Notation
import Stencil.Text.Quoted

/-!
# Data trees

A data tree is a value without identity or behaviour: what a JSON or YAML document denotes, what is
handed to a template as a binding, and what is shown of a value after a run. Mappings keep the order
in which their keys were first written. Messages show a data tree in one line: strings in quotes, lists
in brackets, tuples in parentheses, and mappings in braces.
-/

namespace Stencil

/-- A finite tree of data. `callable` stands for anything that can be called, `other` for a value of a
named kind of which only two texts are known: the plain one, and the one shown inside containers. -/
inductive Data where
  | none
  | bool (b : Bool)
  | int (i : Int)
  | float (x : Float)
  | str (s : String)
  | list (items : List Data)
  | tuple (items : List Data)
  | dict (entries : List (Data × Data))
  | callable
  | other (kind plain shown : String)
  deriving Inhabited

namespace Data

/-- The name of the kind of a value, as messages give it. -/
def kind : Data → String
  | none => "NoneType"
  | bool _ => "bool"
  | int _ => "int"
  | float _ => "float"
  | str _ => "str"
  | list _ => "list"
  | tuple _ => "tuple"
  | dict _ => "dict"
  | callable => "function"
  | other k _ _ => k

/-- The number that a key stands for when keys are compared. There is one key that is not a number. -/
inductive KeyNumber where
  | finite (value : Rat)
  | infinite (negative : Bool)
  | notNumber
  deriving DecidableEq

/-- The exact number that a floating-point number stands for. -/
def KeyNumber.ofFloat (x : Float) : KeyNumber :=
  match Decimal.ofFloat? x with
  | some b => .finite b.value
  | Option.none => if x.isNaN then .notNumber else .infinite (Decimal.signBit x)

/-- Reads a key as a number: truth values are the numbers one and zero. -/
def keyNumber? : Data → Option KeyNumber
  | bool b => some (.finite (if b then 1 else 0))
  | int i => some (.finite i)
  | float x => some (.ofFloat x)
  | _ => Option.none

mutual

/-- Whether two data trees are the same key of a mapping. -/
def sameKey : Data → Data → Bool
  | none, none => true
  | str s, str t => s == t
  | tuple xs, tuple ys => sameKeys xs ys
  | other k s _, other l t _ => k == l && s == t
  | a, b =>
    match keyNumber? a, keyNumber? b with
    | some x, some y => x = y
    | _, _ => false

/-- Whether two lists of data trees agree key by key. -/
def sameKeys : List Data → List Data → Bool
  | [], [] => true
  | x :: xs, y :: ys => sameKey x y && sameKeys xs ys
  | _, _ => false

end

/-- Writes an entry: a key that is there keeps its place and takes the new value, another key goes to
the end. -/
def setEntry (key value : Data) : List (Data × Data) → List (Data × Data)
  | [] => [(key, value)]
  | (k, v) :: rest =>
    if sameKey k key then (k, value) :: rest else (k, v) :: setEntry key value rest

/-- The value under a key. -/
def entry? (key : Data) (entries : List (Data × Data)) : Option Data :=
  (entries.find? fun e => sameKey e.1 key).map (·.2)

/-- The value under a key that is a string. -/
def field? (d : Data) (name : String) : Option Data :=
  match d with
  | dict entries => entry? (str name) entries
  | _ => Option.none

/-! ## Data trees as they are shown -/

mutual

/-- A data tree as it is shown. -/
def shown : Data → String
  | none => "None"
  | bool b => if b then "True" else "False"
  | int i => toString i
  | float x => Decimal.floatText x
  | str s => Text.quotedString s
  | list items => "[" ++ String.intercalate ", " (shownItems items) ++ "]"
  | tuple [d] => "(" ++ d.shown ++ ",)"
  | tuple items => "(" ++ String.intercalate ", " (shownItems items) ++ ")"
  | dict entries => "\x7b" ++ String.intercalate ", " (shownEntries entries) ++ "\x7d"
  | callable => "<function>"
  | other _ _ s => s

/-- The items of a list as they are shown. -/
def shownItems : List Data → List String
  | [] => []
  | d :: rest => d.shown :: shownItems rest

/-- The entries of a mapping as they are shown. -/
def shownEntries : List (Data × Data) → List String
  | [] => []
  | (k, v) :: rest => (k.shown ++ ": " ++ v.shown) :: shownEntries rest

end

end Data

end Stencil
