import Stencil.Script.Item
import Stencil.Script.Format.Spec

/-!
# Texts with fields

A text with fields between braces is filled in from positional and named values. A field names its
value, by number, by name or by its turn, and may go on to members and items of it; it may have a letter
that selects the text of the value, and a format, which may itself hold fields.
-/

namespace Stencil.Script.Fields

/-- A field: the text that names its value, the letter that selects its text, and its format. -/
structure Field where
  name : Text
  conversion : Option Char
  format : Text
  /-- Whether the format holds fields. -/
  nested : Bool

/-- Whether fields are numbered by their turn or explicitly. -/
inductive Numbering where
  | unknown | byTurn (next : Nat) | explicit

/-- Splits a text at the end of a name: before a closing brace, a colon or an exclamation mark outside
square brackets. -/
def readName : Bool → Text → Except Failure (Text × Text)
  | _, [] => valueError "expected '\x7d' before end of string"
  | inside, c :: r =>
    if inside then (readName (c ≠ ']') r).map fun (n, rest) => (c :: n, rest)
    else if c = '\x7b' then valueError "unexpected '\x7b' in field name"
    else if c = '\x7d' || c = ':' || c = '!' then .ok ([], c :: r)
    else (readName (c = '[') r).map fun (n, rest) => (c :: n, rest)

/-- Splits a text at the closing brace that matches an opening one before it. -/
def readFormat : Nat → Text → Except Failure (Text × Text)
  | _, [] => valueError "unmatched '\x7b' in format spec"
  | depth, c :: r =>
    if c = '\x7d' then
      match depth with
      | 0 => .ok ([], r)
      | n + 1 => (readFormat n r).map fun (f, rest) => (c :: f, rest)
    else
      (readFormat (if c = '\x7b' then depth + 1 else depth) r).map fun (f, rest) => (c :: f, rest)

/-- Reads a field behind its opening brace. -/
def readField (t : Text) : Except Failure (Field × Text) := do
  let (name, r) ← readName false t
  let withFormat (conversion : Option Char) (r : Text) : Except Failure (Field × Text) := do
    let (format, rest) ← readFormat 0 r
    return (⟨name, conversion, format, format.contains '\x7b'⟩, rest)
  match r with
  | ':' :: r' => withFormat none r'
  | '!' :: [] => valueError "end of string while looking for conversion specifier"
  | '!' :: c :: d :: r' =>
    if d = '\x7d' then return (⟨name, some c, [], false⟩, r')
    else if d = ':' then withFormat (some c) r'
    else valueError "expected ':' after conversion specifier"
  | '!' :: [_] => valueError "unmatched '\x7b' in format spec"
  | _ => return (⟨name, none, [], false⟩, r.drop 1)

/-- A number written in decimal digits alone. -/
def number? (t : Text) : Option Nat :=
  if !t.isEmpty && t.all (fun c => '0' ≤ c && c ≤ '9') then some (Decimal.ofDigits t) else none

/-- The value that the first part of a field's name stands for. -/
def firstValue (args : List Value) (named : Members) (n : Numbering) (name : Text) :
    Run (Value × Numbering) := do
  let positional (i : Nat) : Run Value :=
    match args[i]? with
    | some v => pure v
    | none =>
      Run.failWith .indexError s!"Replacement index {i} out of range for positional args tuple"
  if name.isEmpty then
    match n with
    | .explicit =>
      Run.valueError
        "cannot switch from manual field specification to automatic field numbering"
    | .unknown => return (← positional 0, .byTurn 1)
    | .byTurn i => return (← positional i, .byTurn (i + 1))
  else
    match number? name with
    | some i =>
      match n with
      | .byTurn _ =>
        Run.valueError
          "cannot switch from automatic field numbering to manual field specification"
      | _ => return (← positional i, .explicit)
    | none =>
      let key := String.ofList name
      match named.find? key with
      | some v => return (v, n)
      | none => Run.fail ⟨.keyError, [.str key]⟩

/-- Follows the members and items that a field's name goes on to. -/
def follow (ops : Ops) : Nat → Value → Text → Run Value
  | 0, v, _ => return v
  | _, v, [] => return v
  | fuel + 1, v, '.' :: r => do
    let (name, rest) := r.span fun c => c ≠ '.' && c ≠ '['
    if name.isEmpty then Run.valueError "Empty attribute in format string"
    follow ops fuel (← ops.member v (String.ofList name)) rest
  | fuel + 1, v, '[' :: r => do
    let (key, rest) := r.span (· ≠ ']')
    match rest with
    | [] => Run.valueError "Missing ']' in format string"
    | _ :: rest =>
      if key.isEmpty then Run.valueError "Empty attribute in format string"
      let index : Value := match number? key with
        | some i => .int i
        | none => .str (String.ofList key)
      follow ops fuel (← Item.get ops v index) rest
  | _, _, _ => Run.valueError "Only '.' or '[' may follow ']' in format field specifier"

/-- The text of a value that a letter selects, as a value. -/
def converted (ops : Ops) (c : Option Char) (v : Value) : Run Value := do
  match c with
  | none => return v
  | some 's' => return .str (← ops.str v)
  | some 'r' => return .str (← ops.repr v)
  | some 'a' => return .str (String.ofList (Text.asciiOnly (← ops.repr v).toList))
  | some c => Run.valueError s!"Unknown conversion specifier '{c}'"

/-- Fills in a text; fields may be nested as deep as `depth` says. -/
def fill (ops : Ops) (args : List Value) (named : Members) :
    Nat → Nat → Numbering → Text → Run (Text × Numbering)
  | 0, _, n, _ => return ([], n)
  | _, _, n, [] => return ([], n)
  | fuel + 1, depth, n, c :: r => do
    let plain (r : Text) : Run (Text × Numbering) := do
      let (t, n) ← fill ops args named fuel depth n r
      return (c :: t, n)
    if c = '\x7d' then
      match r with
      | d :: r' =>
        if d = '\x7d' then plain r' else Run.valueError "Single '\x7d' encountered in format string"
      | [] => Run.valueError "Single '\x7d' encountered in format string"
    else if c = '\x7b' then
      match r with
      | [] => Run.valueError "Single '\x7b' encountered in format string"
      | d :: r' =>
        if d = '\x7b' then plain r'
        else
          let (field, rest) ← Run.lift (readField r)
          let (first, path) := field.name.span fun c => c ≠ '.' && c ≠ '['
          let (v, n) ← firstValue args named n first
          let v ← follow ops path.length v path
          let v ← converted ops field.conversion v
          let (format, n) ←
            if field.nested then
              if depth = 0 then Run.valueError "Max string recursion exceeded"
              else fill ops args named fuel (depth - 1) n field.format
            else pure (field.format, n)
          let written ← ops.format v (String.ofList format)
          let (t, n) ← fill ops args named fuel depth n rest
          return (written.toList ++ t, n)
    else plain r

/-- Fills in a text from values. -/
def format (ops : Ops) (t : Text) (args : List Value) (named : Members) : Run String := do
  let (written, _) ← fill ops args named (t.length + 1) 1 .unknown t
  return String.ofList written

/-- Writes a value by a specification. -/
def write (ops : Ops) (v : Value) (spec : String) : Run String := do
  match ← ops.special? v "__format__" [.str spec] with
  | some (.str s) => return s
  | some r => Run.typeError s!"__format__ must return a str, not {← Run.kindName r}"
  | none =>
    if spec.isEmpty then ops.str v
    else
      return String.ofList (← Run.lift (v.formatted (← Run.kindName v) spec.toList))

end Stencil.Script.Fields
