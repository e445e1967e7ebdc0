import Stencil.Data
import Stencil.Script.Value.Numeral

/-!
# JSON data in templates

The data trees that JSON denotes are what templates are given as bindings. What a template does with them
depends on their text, on whether they count as true, and on the items that a loop runs over.
-/

namespace Stencil

namespace Data

mutual

/-- Whether a data tree is one that JSON can denote. -/
def isJson : Data → Bool
  | none | bool _ | int _ | float _ | str _ => true
  | list items => areJson items
  | dict entries => areJsonEntries entries
  | tuple _ | callable | other _ _ _ => false

/-- Whether JSON can denote all items of a list. -/
def areJson : List Data → Bool
  | [] => true
  | d :: rest => d.isJson && areJson rest

/-- Whether JSON can denote the entries of a mapping: their keys are strings. -/
def areJsonEntries : List (Data × Data) → Bool
  | [] => true
  | (str _, d) :: rest => d.isJson && areJsonEntries rest
  | _ => false

end

mutual

/-- Whether no integer within a data tree has too many digits to be written. -/
def isShort : Data → Bool
  | int i => i.natAbs < Nat.pow 10 Script.Numeral.digitLimit
  | list items | tuple items => areShort items
  | dict entries => areShortEntries entries
  | none | bool _ | float _ | str _ | callable | other _ _ _ => true

/-- Whether no integer within the items of a list has too many digits. -/
def areShort : List Data → Bool
  | [] => true
  | d :: rest => d.isShort && areShort rest

/-- Whether no integer within the entries of a mapping has too many digits. -/
def areShortEntries : List (Data × Data) → Bool
  | [] => true
  | (k, d) :: rest => k.isShort && d.isShort && areShortEntries rest

end

/-- The text of a value in the output: nothing for a missing value, a string as it is, and any other
value as it is shown. -/
def plain : Data → String
  | none => ""
  | str s => s
  | d => d.shown

/-- Whether a value counts as true. -/
def isTruthy : Data → Bool
  | none => false
  | bool b => b
  | int i => i ≠ 0
  | float x => !(x == 0)
  | str s => !s.isEmpty
  | list items | tuple items => !items.isEmpty
  | dict entries => !entries.isEmpty
  | callable | other _ _ _ => true

/-- The items of a value over which a loop can run: the characters of a string, the items of a list, the
keys of a mapping. -/
def items? : Data → Option (List Data)
  | str s => some (s.toList.map fun c => str c.toString)
  | list items | tuple items => some items
  | dict entries => some (entries.map (·.1))
  | none | bool _ | int _ | float _ | callable | other _ _ _ => Option.none

mutual

/-- How deep the lists and mappings of a data tree nest. -/
def height : Data → Nat
  | list items | tuple items => heightAll items + 1
  | dict entries => heightEntries entries + 1
  | none | bool _ | int _ | float _ | str _ | callable | other _ _ _ => 0

/-- How deep the items of a list nest. -/
def heightAll : List Data → Nat
  | [] => 0
  | d :: rest => max d.height (heightAll rest)

/-- How deep the entries of a mapping nest. -/
def heightEntries : List (Data × Data) → Nat
  | [] => 0
  | (k, d) :: rest => max (max k.height d.height) (heightEntries rest)

end

end Data

end Stencil
