import Stencil.Script.Value.Kind
import Stencil.Script.Tree
import Stencil.Decimal.Notation

/-!
# The values of scripts

A value is immediate or refers to an object of the machine by its address. Numbers, strings and tuples
are immediate; lists, dictionaries, functions, classes and everything else that has an identity are
objects. A set keeps its members in numbered places, and gives them in the order of the places.
-/

namespace Stencil.Script

/-- The address of an object. -/
structure Address where
  index : Nat
  deriving DecidableEq, Repr, Inhabited

/-- How a value becomes text in the output: escaped for HTML, as plain text, in upper case, between
brackets, or not at all. -/
inductive Escaper where
  | html | text | upper | bracket | identity
  deriving DecidableEq, Repr, Inhabited

/-- The functions that every script can call, and the escapers. -/
inductive Native where
  | abs | all | any | ascii | bin | callable | chr | deleteMember | divmod | format | getMember
  | globals | hasMember | hash | hex | isInstance | isSubclass | iter | len | locals | max | min | next
  | oct | ord | pow | print | repr | round | setMember | sorted | sum | super
  | escaper (e : Escaper)
  /-- What every raw expression goes through. -/
  | plainText
  deriving DecidableEq, Repr, Inhabited

/-- The name of a function. -/
def Native.name : Native → String
  | abs => "abs"
  | all => "all"
  | any => "any"
  | ascii => "ascii"
  | bin => "bin"
  | callable => "callable"
  | chr => "chr"
  | deleteMember => "delattr"
  | divmod => "divmod"
  | format => "format"
  | getMember => "getattr"
  | globals => "globals"
  | hasMember => "hasattr"
  | hash => "hash"
  | hex => "hex"
  | isInstance => "isinstance"
  | isSubclass => "issubclass"
  | iter => "iter"
  | len => "len"
  | locals => "locals"
  | max => "max"
  | min => "min"
  | next => "next"
  | oct => "oct"
  | ord => "ord"
  | pow => "pow"
  | print => "print"
  | repr => "repr"
  | round => "round"
  | setMember => "setattr"
  | sorted => "sorted"
  | sum => "sum"
  | super => "super"
  | escaper .html => "html_escape"
  | escaper .text => "text_escape"
  | escaper _ => "<lambda>"
  | plainText => "value_toText"

/-- The name of a function together with where it is defined, unless it is built in. -/
def Native.fullName (f : Native) : String :=
  match f with
  | plainText | escaper .html | escaper .text => "embtext.lib.escaper." ++ f.name
  | _ => f.name

/-- The functions that scripts can name. -/
def Native.named : List Native := [
  abs, all, any, ascii, bin, callable, chr, deleteMember, divmod, format, getMember, globals,
  hasMember, hash, hex, isInstance, isSubclass, iter, len, locals, max, min, next, oct, ord, pow,
  print, repr, round, setMember, sorted, sum, super]

/-- What a view of a dictionary shows. -/
inductive View where
  | keys | values | items
  deriving DecidableEq, Repr, Inhabited

/-- Values. -/
inductive Value where
  | none
  | ellipsis
  | notImplemented
  | bool (b : Bool)
  | int (i : Int)
  | float (x : Float)
  | str (s : String)
  | bytes (b : List Nat)
  | tuple (items : List Value)
  | range (start stop step : Int)
  | slice (low high step : Value)
  | native (f : Native)
  | kind (k : Kind)
  /-- A method of a kind, bound to a value. -/
  | method (self : Value) (name : String)
  /-- A method of a kind that takes the value as its first argument. -/
  | unbound (k : Kind) (name : String)
  /-- A function bound to a value. -/
  | bound (self function : Value)
  | view (what : View) (dict : Address)
  /-- A function that a class keeps in a special way. -/
  | wrapped (how : Kind) (function : Value)
  /-- A value seen as an object of the classes behind one of its own. -/
  | behind (cls self : Value)
  /-- A value of another kind, of which only its two texts are known. -/
  | foreign (kind plain shown : String)
  | ref (a : Address)
  deriving Inhabited

/-- A value as a number: truth values are the numbers zero and one. -/
inductive Number where
  | int (i : Int)
  | float (x : Float)

/-- The number a value is. -/
def Value.number? : Value → Option Number
  | bool b => some (.int (if b then 1 else 0))
  | int i => some (.int i)
  | float x => some (.float x)
  | _ => Option.none

/-- The integer a value is. -/
def Value.int? : Value → Option Int
  | bool b => some (if b then 1 else 0)
  | int i => some i
  | _ => Option.none

/-- How an integer and a floating-point number compare, unless the latter is not a number. -/
def compareIntFloat? (i : Int) (x : Float) : Option Ordering :=
  if x.isNaN then none
  else match Decimal.ofFloat? x with
    | some b => some (b.compareInt i).swap
    | none => some (if 0 < x then .lt else .gt)

/-- How two numbers compare, unless one of them is not a number. -/
def Number.compare? : Number → Number → Option Ordering
  | .int i, .int j => some (compare i j)
  | .int i, .float x => compareIntFloat? i x
  | .float x, .int i => (compareIntFloat? i x).map Ordering.swap
  | .float x, .float y =>
    if x < y then some .lt else if y < x then some .gt else if x == y then some .eq else none

/-- Whether two numbers are equal. -/
def Number.same (a b : Number) : Bool :=
  a.compare? b == some .eq

/-- The number of integers in a range. -/
def rangeLength (start stop step : Int) : Nat :=
  if 0 < step then ((stop - start + step - 1).fdiv step).toNat
  else if step < 0 then ((start - stop - step - 1).fdiv (-step)).toNat
  else 0

mutual

/-- Whether two values are the same key. Objects are the same only at the same address. -/
def Value.same : Value → Value → Bool
  | .none, .none | .ellipsis, .ellipsis | .notImplemented, .notImplemented => true
  | .str s, .str t => s == t
  | .bytes b, .bytes c => b == c
  | .tuple xs, .tuple ys => Value.sameAll xs ys
  | .range a b c, .range d e f =>
    let n := rangeLength a b c
    n == rangeLength d e f && (n == 0 || (a == d && (n == 1 || c == f)))
  | .slice a b c, .slice d e f => Value.same a d && Value.same b e && Value.same c f
  | .native f, .native g => f == g
  | .kind k, .kind l => k == l
  | .method s m, .method t n => m == n && Value.same s t
  | .unbound k m, .unbound l n => k == l && m == n
  | .bound s f, .bound t g => Value.same s t && Value.same f g
  | .view w a, .view v b => w == v && a == b
  | .wrapped k f, .wrapped l g => k == l && Value.same f g
  | .behind c s, .behind d t => Value.same c d && Value.same s t
  | .foreign k s _, .foreign l t _ => k == l && s == t
  | .ref a, .ref b => a == b
  | .bool a, .bool b => a == b
  | .bool a, .int i | .int i, .bool a => i == (if a then 1 else 0)
  | .int i, .int j => i == j
  | .float x, .float y => x == y
  | .float x, .int i | .int i, .float x => Number.same (.int i) (.float x)
  | .float x, .bool a | .bool a, .float x => x == (if a then 1 else 0)
  | _, _ => false

/-- Whether two lists of values agree key by key. -/
def Value.sameAll : List Value → List Value → Bool
  | [], [] => true
  | x :: xs, y :: ys => Value.same x y && Value.sameAll xs ys
  | _, _ => false

end

/-- Values under names, in the order in which the names were first written. -/
abbrev Members := List (String × Value)

namespace Members

/-- The value under a name. -/
def find? (ms : Members) (name : String) : Option Value :=
  ms.lookup name

/-- Writes a value under a name: a name that is there keeps its place. -/
def insert (name : String) (v : Value) : Members → Members
  | [] => [(name, v)]
  | (n, w) :: rest => if n = name then (n, v) :: rest else (n, w) :: insert name v rest

/-- Removes a name. -/
def erase (name : String) (ms : Members) : Members :=
  ms.filter (·.1 ≠ name)

end Members

/-- The entries of a dictionary, in the order in which the keys were first written. -/
abbrev Entries := List (Value × Value)

namespace Entries

/-- The value under a key. -/
def find? (es : Entries) (key : Value) : Option Value :=
  (List.find? (fun e => e.1.same key) es).map (·.2)

/-- Writes an entry: a key that is there keeps its place and takes the new value, another key goes to
the end. -/
def insert (key v : Value) : Entries → Entries
  | [] => [(key, v)]
  | (k, w) :: rest => if k.same key then (k, v) :: rest else (k, w) :: insert key v rest

/-- Removes a key. -/
def erase (key : Value) (es : Entries) : Entries :=
  es.filter fun e => !e.1.same key

/-- The value under a name. -/
def named? (es : Entries) (name : String) : Option Value :=
  es.find? (.str name)

end Entries

/-- Why an operation fails: the kind of the exception to raise and the values it carries. -/
structure Failure where
  kind : ExceptionKind
  args : List Value

/-- A failure that carries a message. -/
def Failure.of (kind : ExceptionKind) (message : String) : Failure :=
  ⟨kind, [.str message]⟩

/-- Fails with a message. -/
def failWith {α : Type} (kind : ExceptionKind) (message : String) : Except Failure α :=
  .error (.of kind message)

/-- The greatest number of items of a sequence that one operation makes. -/
def roomLimit : Nat := Nat.pow 2 26

/-- Fails when there is no room for so many items. -/
def checkRoom (count : Nat) : Except Failure Unit :=
  if roomLimit < count then .error ⟨.memoryError, []⟩ else .ok ()

/-- Fails because a value is of the wrong kind. -/
def typeError {α : Type} (message : String) : Except Failure α :=
  failWith .typeError message

/-- Fails because of a value. -/
def valueError {α : Type} (message : String) : Except Failure α :=
  failWith .valueError message

/-! ## The order of a set

A whole number goes to the place that is its remainder by the number of places. Members whose places
would clash, and members of other kinds, are given in the order in which they were put in.
-/

namespace Places

/-- The number of places for so many members: eight, and four times as many whenever three fifths of the
places would be taken. -/
def count (members : Nat) : Nat :=
  go members 8
where
  /-- Enlarges a number of places, at most so many times. -/
  go : Nat → Nat → Nat
    | 0, n => n
    | fuel + 1, n => if 3 * (n - 1) ≤ 5 * members then go fuel (4 * n) else n

/-- The place of a whole number; minus one goes where minus two goes. -/
def of? (places : Nat) (v : Value) : Option Nat :=
  v.int?.bind fun i =>
    if i.natAbs < Nat.pow 2 61 - 1 then some (((if i = -1 then -2 else i) % (places : Int)).toNat) else none

/-- Puts a member with its place before those with higher places. -/
def inserted (x : Nat × Value) : List (Nat × Value) → List (Nat × Value)
  | [] => [x]
  | y :: rest => if x.1 < y.1 then x :: y :: rest else y :: inserted x rest

end Places

/-- The members of a set in the order in which the set gives them. -/
def Value.arranged (vs : List Value) : List Value :=
  (vs.mapM (Places.of? (Places.count vs.length))).elim vs fun ps =>
    if ps.Nodup then ((ps.zip vs).foldr Places.inserted []).map (·.2) else vs

end Stencil.Script
