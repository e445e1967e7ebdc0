import Stencil.Script.Arguments
import Stencil.Script.Format.Fields
import Stencil.Text.Basic

/-!
# The methods of strings

Searching, splitting, trimming, padding, letter case, and filling in fields. Positions count characters.
-/

namespace Stencil.Script.Str

/-- The methods of strings. -/
def methods : List String := [
  "capitalize", "casefold", "center", "count", "encode", "endswith", "expandtabs", "find", "format",
  "format_map", "index", "isalnum", "isalpha", "isascii", "isdecimal", "isdigit", "isidentifier",
  "islower", "isnumeric", "isprintable", "isspace", "istitle", "isupper", "join", "ljust", "lower",
  "lstrip", "partition", "removeprefix", "removesuffix", "replace", "rfind", "rindex", "rjust",
  "rpartition", "rsplit", "rstrip", "split", "splitlines", "startswith", "strip", "swapcase", "title",
  "upper", "zfill"]

/-- A text as a value. -/
def value (t : Text) : Value := .str (String.ofList t)

/-! ## Searching -/

/-- The first place from `place` on where a part occurs. -/
def findFrom (part : Text) : Nat → Text → Option Nat
  | place, [] => if part.isEmpty then some place else none
  | place, c :: r => if part.isPrefixOf (c :: r) then some place else findFrom part (place + 1) r

/-- The last place where a part occurs. -/
def findLast? (part t : Text) : Option Nat :=
  (findFrom part.reverse 0 t.reverse).map fun k => t.length - k - part.length

/-- How often a part occurs without overlaps; the empty part occurs around every character. -/
def countOf (part : Text) : Nat → Text → Nat
  | 0, _ => 0
  | _, [] => if part.isEmpty then 1 else 0
  | fuel + 1, c :: r =>
    if part.isEmpty then 1 + countOf part fuel r
    else if part.isPrefixOf (c :: r) then 1 + countOf part fuel ((c :: r).drop part.length)
    else countOf part fuel r

/-- A string argument. -/
def string (complain : String → String) (v : Value) : Run Text := do
  match v with
  | .str s => return s.toList
  | _ => Run.typeError (complain (← Run.kindName v))

/-- A string argument that the message names. -/
def namedString (argument : String) (v : Value) : Run Text := do
  match v with
  | .str s => return s.toList
  | _ => Run.typeError s!"{argument} must be str, not {← Arguments.givenName v}"

/-- A string argument without a position in the message. -/
def plainString (v : Value) : Run Text :=
  string (fun k => s!"must be str, not {k}") v

/-- An optional bound of a search. -/
def searchBound (args : List Value) (index : Nat) : Run (Option Int) := do
  match args[index]? with
  | some v => Item.bound? v
  | none => return none

/-- The part of a text that is searched, and where it starts, unless the start is behind the end. -/
def searched (t : Text) (args : List Value) : Run (Option (Nat × Text)) := do
  let n : Int := t.length
  let low ← searchBound args 1
  let high ← searchBound args 2
  let shift (i : Int) : Int := if i < 0 then max 0 (i + n) else i
  let start := shift (low.getD 0)
  let stop := min n (shift (high.getD n))
  if stop < start then return none
  else return some (start.toNat, (t.drop start.toNat).take (stop - start).toNat)

/-- Raises an exception unless there are one to three arguments. -/
def searchArguments (name : String) (args : List Value) (named : Members) : Run Unit := do
  Arguments.noNamed s!"str.{name}" named
  if args.isEmpty then Run.typeError s!"{name}() takes at least 1 argument (0 given)"
  if 3 < args.length then
    Run.typeError s!"{name}() takes at most 3 arguments ({args.length} given)"

/-- The place where an argument occurs. -/
def place? (name : String) (t : Text) (args : List Value) (named : Members) (last : Bool) :
    Run (Option Nat) := do
  searchArguments name args named
  let region ← searched t args
  let part ← plainString (args.headD .none)
  match region with
  | none => return none
  | some (start, region) =>
    return (if last then findLast? part region else findFrom part 0 region).map (· + start)

/-- Whether a text starts or ends with a string or with one of a tuple of strings. -/
def edge (name : String) (test : Text → Text → Bool) (t : Text) (args : List Value)
    (named : Members) : Run Value := do
  searchArguments name args named
  let region ← searched t args
  let holds (p : Text) : Bool := region.any fun (_, r) => test p r
  match args.headD .none with
  | .str s => return .bool (holds s.toList)
  | .tuple vs =>
    let parts ← vs.mapM (string fun k =>
      s!"tuple for {name} must only contain str, not {k}")
    return .bool (parts.any holds)
  | v =>
    Run.typeError s!"{name} first arg must be str or a tuple of str, not {← Run.kindName v}"

/-! ## Splitting -/

/-- Splits a text at blanks, at most as often as the limit says. -/
def splitBlanks : Nat → Option Nat → Text → List Text
  | 0, _, _ => []
  | fuel + 1, limit, t =>
    match Text.trimStart t with
    | [] => []
    | t' =>
      match limit with
      | some 0 => [t']
      | _ =>
        let (word, rest) := t'.span (!Text.isBlank ·)
        word :: splitBlanks fuel (limit.map (· - 1)) rest

/-- Splits a text at a mark, at most as often as the limit says. -/
def splitAt (mark : Text) : Nat → Option Nat → Text → List Text
  | 0, _, t => [t]
  | fuel + 1, limit, t =>
    match limit with
    | some 0 => [t]
    | _ =>
      match Text.cutAt? mark t with
      | some (before, after) => before :: splitAt mark fuel (limit.map (· - 1)) after
      | none => [t]

/-- The parts that a text is split into. -/
def parts (name : String) (fromEnd : Bool) (t : Text) (args : List Value) (named : Members) :
    Run (List Text) := do
  let values ← Arguments.Signature.take ⟨name, ["sep", "maxsplit"], 0, 2⟩ args named
  let mark := (values.head?.join).getD .none
  let count ← match values[1]?.join with
    | some v => Arguments.size v
    | none => pure (-1)
  let limit : Option Nat := if count < 0 then none else some count.toNat
  let turn (u : Text) : Text := if fromEnd then u.reverse else u
  let turnAll (us : List Text) : List Text :=
    if fromEnd then (us.map List.reverse).reverse else us
  match mark with
  | .none => return turnAll (splitBlanks (t.length + 1) limit (turn t))
  | .str m =>
    if m.isEmpty then Run.valueError "empty separator"
    else return turnAll (splitAt (turn m.toList) (t.length + 1) limit (turn t))
  | v => Run.typeError s!"must be str or None, not {← Run.kindName v}"

/-- A text before, at and after a mark. -/
def partition (fromEnd : Bool) (t : Text) (v : Value) : Run Value := do
  let mark ← plainString v
  if mark.isEmpty then Run.valueError "empty separator"
  if fromEnd then
    match findLast? mark t with
    | some k => return .tuple [value (t.take k), value mark, value (t.drop (k + mark.length))]
    | none => return .tuple [.str "", .str "", value t]
  else
    match Text.cutAt? mark t with
    | some (before, after) => return .tuple [value before, value mark, value after]
    | none => return .tuple [value t, .str "", .str ""]

/-- Replaces a part, at most as often as the limit says. -/
def replace (old new : Text) : Nat → Option Nat → Text → Text
  | 0, _, t => t
  | fuel + 1, limit, t =>
    match limit with
    | some 0 => t
    | _ =>
      let next := limit.map (· - 1)
      if old.isEmpty then
        match t with
        | [] => new
        | c :: r => new ++ c :: replace old new fuel next r
      else
        match Text.cutAt? old t with
        | some (before, after) => before ++ new ++ replace old new fuel next after
        | none => t

/-- Joins texts by another one. -/
def join (ops : Ops) (t : Text) (v : Value) : Run Value := do
  let iterator ← Run.catching (Iterate.start ops v) fun e => do
    if ← Run.isException e .typeError then Run.typeError "can only join an iterable"
    else throw (.raised e)
  let vs ← ops.drain iterator
  let texts ← vs.toList.zipIdx.mapM fun (v, i) => do
    match v with
    | .str s => return s
    | _ =>
      Run.typeError s!"sequence item {i}: expected str instance, {← Run.kindName v} found"
  return .str (String.intercalate (String.ofList t) texts)

/-! ## Trimming and padding -/

/-- The characters that trimming removes. -/
def trimmed (name : String) (args : List Value) (named : Members) : Run (Char → Bool) := do
  Arguments.positional s!"str.{name}" 0 1 args named
  match args.headD .none with
  | .none => return Text.isBlank
  | .str s => return s.toList.contains
  | _ => Run.typeError s!"{name} arg must be None or str"

/-- An argument as a width; one below zero counts as zero, and one that is too large fails. -/
def width (v : Value) : Run Nat := do
  let n := (← Arguments.size v).toNat
  Run.lift (checkRoom n)
  return n

/-- The width and the fill of a padded text. -/
def padding (name : String) (args : List Value) (named : Members) : Run (Nat × Char) := do
  Arguments.positional s!"str.{name}" 1 2 args named
  let n ← width (args.headD .none)
  match (args[1]? : Option Value) with
  | none => return (n, ' ')
  | some (.str s) =>
    match s.toList with
    | [c] => return (n, c)
    | _ => Run.typeError "The fill character must be exactly one character long"
  | some v =>
    Run.typeError s!"The fill character must be a unicode character, not {← Run.kindName v}"

/-- A text in the middle of a width; an odd fill goes to the left when the width is odd. -/
def center (width : Nat) (fill : Char) (t : Text) : Text :=
  let missing := width - t.length
  let left := missing / 2 + (if missing % 2 = 1 && width % 2 = 1 then 1 else 0)
  List.replicate left fill ++ t ++ List.replicate (missing - left) fill

/-- A text with zeros behind its sign up to a width. -/
def zeroFill (width : Nat) (t : Text) : Text :=
  let zeros := List.replicate (width - t.length) '0'
  match t with
  | c :: r => if c = '+' || c = '-' then c :: zeros ++ r else zeros ++ t
  | [] => zeros

/-- A text with tabs replaced by spaces up to the next multiple of a size. -/
def expandTabs (size : Nat) : Nat → Text → Text
  | _, [] => []
  | column, c :: r =>
    if c = '\t' then
      let width := if size = 0 then 0 else size - column % size
      List.replicate width ' ' ++ expandTabs size (column + width) r
    else if c = '\n' || c = '\r' then c :: expandTabs size 0 r
    else c :: expandTabs size (column + 1) r

/-! ## Character classes -/

/-- Whether a text has letters of one case only. -/
def onlyCase (wanted : Char → Bool) (t : Text) : Bool :=
  t.any wanted && t.all fun c => wanted c || !Text.isCased c

/-- Whether every word of a text starts with a capital and goes on in lower case. -/
def isTitle : Bool → Bool → Text → Bool
  | _, seen, [] => seen
  | inWord, seen, c :: r =>
    if Text.isLower c then inWord && isTitle true true r
    else if Text.isCased c then !inWord && isTitle true true r
    else isTitle false seen r

/-- Whether a text is a name. -/
def isName : Text → Bool
  | [] => false
  | c :: r => Text.isNameStart c && r.all Text.isNameRest

/-- The tests that a string passes or fails as a whole. -/
def test? (name : String) (t : Text) : Option Bool :=
  let every (p : Char → Bool) : Bool := !t.isEmpty && t.all p
  match name with
  | "isalnum" => some (every Text.isAlnum)
  | "isalpha" => some (every Text.isLetter)
  | "isascii" => some (t.all (·.toNat < 0x80))
  | "isdecimal" => some (every fun c => (Text.decimalValue? c).isSome)
  | "isdigit" => some (every Text.isDigit)
  | "isnumeric" => some (every fun c => Text.isAlnum c && !Text.isLetter c)
  | "isidentifier" => some (isName t)
  | "islower" => some (onlyCase Text.isLower t)
  | "isupper" => some (onlyCase Text.isUpper t)
  | "isprintable" => some (t.all Text.isPrintable)
  | "isspace" => some (every Text.isBlank)
  | "istitle" => some (isTitle false false t)
  | _ => none

/-- The changes of letter case. -/
def caseChange? (name : String) (t : Text) : Option Text :=
  match name with
  | "capitalize" => some (Text.capitalize t)
  | "casefold" => some (Text.lower t)
  | "lower" => some (Text.lower t)
  | "swapcase" => some (Text.swapCase t)
  | "title" => some (Text.title t)
  | "upper" => some (Text.upper t)
  | _ => none

/-- Calls a method of a string that takes arguments. -/
def callWith (ops : Ops) (t : Text) (name : String) (args : List Value) (named : Members) :
    Run Value := do
  let whole := s!"str.{name}"
  let first := args.headD .none
  match name with
  | "center" =>
    let (width, fill) ← padding name args named
    return value (center width fill t)
  | "ljust" =>
    let (width, fill) ← padding name args named
    return value (t ++ List.replicate (width - t.length) fill)
  | "rjust" =>
    let (width, fill) ← padding name args named
    return value (List.replicate (width - t.length) fill ++ t)
  | "zfill" =>
    return value (zeroFill (← width (← Arguments.one whole args named)) t)
  | "expandtabs" =>
    let values ← Arguments.Signature.take ⟨name, ["tabsize"], 0, 1⟩ args named
    let size ← match values.head?.join with
      | some v => Arguments.small v
      | none => pure 8
    Run.lift (checkRoom (size.toNat * t.count '\t'))
    return value (expandTabs size.toNat 0 t)
  | "strip" =>
    let p ← trimmed name args named
    return value ((t.dropWhile p).reverse.dropWhile p).reverse
  | "lstrip" => return value (t.dropWhile (← trimmed name args named))
  | "rstrip" => return value (t.reverse.dropWhile (← trimmed name args named)).reverse
  | "find" | "rfind" =>
    match ← place? name t args named (name = "rfind") with
    | some k => return .int k
    | none => return .int (-1)
  | "index" | "rindex" =>
    match ← place? name t args named (name = "rindex") with
    | some k => return .int k
    | none => Run.valueError "substring not found"
  | "count" =>
    searchArguments name args named
    let region ← searched t args
    let part ← plainString first
    match region with
    | some (_, region) => return .int (countOf part (region.length + 1) region)
    | none => return .int 0
  | "startswith" => edge name (fun p r => p.isPrefixOf r) t args named
  | "endswith" => edge name (fun p r => p.isSuffixOf r) t args named
  | "removeprefix" =>
    let p ← namedString "removeprefix() argument" (← Arguments.one whole args named)
    return value (if p.isPrefixOf t then t.drop p.length else t)
  | "removesuffix" =>
    let p ← namedString "removesuffix() argument" (← Arguments.one whole args named)
    return value (if p.isSuffixOf t then t.take (t.length - p.length) else t)
  | "split" => Run.newList ((← parts name false t args named).map value)
  | "rsplit" => Run.newList ((← parts name true t args named).map value)
  | "partition" => partition false t (← Arguments.one whole args named)
  | "rpartition" => partition true t (← Arguments.one whole args named)
  | "splitlines" =>
    let values ← Arguments.Signature.take ⟨name, ["keepends"], 0, 1⟩ args named
    let keep ← match values.head?.join with
      | some v => do pure (decide ((← Arguments.small v) ≠ 0))
      | none => pure false
    Run.newList ((Text.rows t).map fun r => value (if keep then r else Text.bareRow r))
  | "join" => join ops t (← Arguments.one whole args named)
  | "replace" =>
    Arguments.positional whole 2 3 args named
    let old ← namedString "replace() argument 1" first
    let new ← namedString "replace() argument 2" (args.getD 1 .none)
    let count ← match args[2]? with
      | some v => Arguments.size v
      | none => pure (-1)
    return value (replace old new (t.length + 2) (if count < 0 then none else some count.toNat) t)
  | "format" => return .str (← Fields.format ops t args named)
  | "format_map" =>
    match ← Arguments.one whole args named with
    | .ref a =>
      let named := (← Run.entries a).filterMap fun
        | (.str k, v) => some (k, v)
        | _ => none
      return .str (← Fields.format ops t [] named)
    | v => Run.typeError s!"'{← Run.kindName v}' object is not subscriptable"
  | "encode" => return .bytes ((String.ofList t).toUTF8.toList.map (·.toNat))
  | _ => Run.failWith .attributeError s!"'str' object has no attribute '{name}'"

/-- Calls a method of a string. -/
def call (ops : Ops) (s name : String) (args : List Value) (named : Members) : Run Value := do
  let t := s.toList
  match test? name t with
  | some b =>
    Arguments.noneOf s!"str.{name}" args named
    return .bool b
  | none =>
    match caseChange? name t with
    | some u =>
      Arguments.noneOf s!"str.{name}" args named
      return value u
    | none => callWith ops t name args named

end Stencil.Script.Str
