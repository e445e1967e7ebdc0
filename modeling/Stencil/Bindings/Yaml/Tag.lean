import Stencil.Bindings.Yaml.Time

/-!
# Tags of YAML

The tag of a node says what kind of value the node stands for. A plain scalar without a tag has the tag
that its text shows: truth values, numbers, points in time and the missing value are known by their form,
all else is a string.
-/

namespace Stencil.Yaml

/-- The tags that have a meaning. -/
inductive Tag where
  | null
  | bool
  | int
  | float
  | binary
  | timestamp
  | orderedMap
  | pairs
  | set
  | str
  | seq
  | map
  | merge
  | value
  | unknown
  deriving Repr, DecidableEq

/-- What stands in front of the names of the tags. -/
def tagRoot : String := "tag:yaml.org,2002:"

/-- The names of the tags. -/
def tagNames : List (String × Tag) := [
  ("null", .null), ("bool", .bool), ("int", .int), ("float", .float), ("binary", .binary),
  ("timestamp", .timestamp), ("omap", .orderedMap), ("pairs", .pairs), ("set", .set),
  ("str", .str), ("seq", .seq), ("map", .map), ("merge", .merge), ("value", .value)]

/-- The tag of a full name. -/
def Tag.ofUri (uri : String) : Tag :=
  match tagNames.find? fun entry => tagRoot ++ entry.1 == uri with
  | some (_, t) => t
  | none => .unknown

namespace Plain

/-- The words for truth values. -/
def boolWords : List String := [
  "yes", "Yes", "YES", "no", "No", "NO", "true", "True", "TRUE", "false", "False", "FALSE",
  "on", "On", "ON", "off", "Off", "OFF"]

/-- The words for the missing value. -/
def nullWords : List String := ["", "~", "null", "Null", "NULL"]

/-- The words for infinite numbers; a sign may stand in front. -/
def infinityWords : List String := [".inf", ".Inf", ".INF"]

/-- The words for what is no number. -/
def nanWords : List String := [".nan", ".NaN", ".NAN"]

/-- A text without a sign in front. -/
def unsigned : Text → Text
  | '-' :: r => r
  | '+' :: r => r
  | r => r

/-- A digit up to a greatest one, or an underscore. -/
def isDigitUpTo (greatest : Char) (c : Char) : Bool :=
  c == '_' || ('0' ≤ c && c ≤ greatest)

/-- A hexadecimal digit or an underscore. -/
def isHexDigit (c : Char) : Bool :=
  c == '_' || (Json.hexValue? c).isSome

/-- Digits in groups of sixty: each group has a colon in front and one or two digits. What follows the
groups is given back, if there is a group. -/
def sixties? : Nat → Text → Option Text
  | 0, _ => none
  | fuel + 1, ':' :: a :: r =>
    if !Text.isAsciiDigit a then none
    else
      let rest := match r with
        | b :: s => if Text.isAsciiDigit b && a ≤ '5' then s else r
        | [] => r
      match sixties? fuel rest with
      | some behind => some behind
      | none => some rest
  | _, _ => none

/-- Whether a text without a sign is an integer. -/
def isInt (t : Text) : Bool :=
  match t with
  | '0' :: 'b' :: c :: r => (c :: r).all (isDigitUpTo '1')
  | '0' :: 'x' :: c :: r => (c :: r).all isHexDigit
  | ['0'] => true
  | '0' :: r => r.all (isDigitUpTo '7')
  | d :: r =>
    if '1' ≤ d && d ≤ '9' then
      let rest := r.dropWhile (isDigitUpTo '9')
      rest.isEmpty || sixties? (rest.length + 1) rest == some []
    else false
  | [] => false

/-- Whether a text is empty or an exponent: a mark, a sign, and digits. -/
def isExponent : Text → Bool
  | [] => true
  | e :: s :: d :: r =>
    (e == 'e' || e == 'E') && (s == '+' || s == '-') && (d :: r).all Text.isAsciiDigit
  | _ => false

/-- Whether a text is a point, digits, and perhaps an exponent. -/
def isFraction : Text → Bool
  | '.' :: r => isExponent (r.dropWhile (isDigitUpTo '9'))
  | _ => false

/-- Whether a text is a floating-point number. A number that begins with its point has no sign. -/
def isFloat (t : Text) : Bool :=
  let u := unsigned t
  infinityWords.contains (String.ofList u) || nanWords.contains (String.ofList t) ||
    match u with
    | '.' :: d :: _ => u.length == t.length && Text.isAsciiDigit d && isFraction t
    | d :: r =>
      Text.isAsciiDigit d &&
        let rest := r.dropWhile (isDigitUpTo '9')
        isFraction rest ||
          match sixties? (rest.length + 1) rest with
          | some ('.' :: s) => s.all (isDigitUpTo '9')
          | _ => false
    | [] => false

/-- The tag that the text of a plain scalar shows. -/
def tag (s : String) : Tag :=
  let t := s.toList
  if boolWords.contains s then .bool
  else if isFloat t then .float
  else if isInt (unsigned t) then .int
  else if s == "<<" then .merge
  else if nullWords.contains s then .null
  else if Time.isPlain t then .timestamp
  else if s == "=" then .value
  else .str

end Plain

end Stencil.Yaml
