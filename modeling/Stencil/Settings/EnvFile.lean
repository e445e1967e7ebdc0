import Stencil.Text.Basic

/-!
# Environment files

An environment file gives values to names, one a line. Values may be quoted, and a name between braces
behind a dollar sign stands for its value. Lines that are not understood are left out.
-/

namespace Stencil.EnvFile

/-- White space that does not end a line. -/
def isInlineBlank (c : Char) : Bool :=
  Text.isBlank c && c != '\n'

/-- The text behind white space within the line. -/
def skipInline (t : Text) : Text :=
  t.dropWhile isInlineBlank

/-- The text behind the end of the line. -/
def skipLine (t : Text) : Text :=
  (t.dropWhile (· != '\n')).drop 1

/-- The text of a quoted value and the text behind it. The value ends at the first mark without a
backslash in front or, where there is none, at the last mark. `last` is where it would end by the marks
seen so far. -/
def closeQuote (mark : Char) (acc : Text) (last : Option (Text × Text)) :
    Text → Option (Text × Text)
  | [] => last
  | '\\' :: c :: r =>
    if c = mark then closeQuote mark (c :: '\\' :: acc) (some (('\\' :: acc).reverse, r)) r
    else closeQuote mark ('\\' :: acc) last (c :: r)
  | c :: r => if c = mark then some (acc.reverse, r) else closeQuote mark (c :: acc) last r

/-- The character that a letter behind a backslash stands for between apostrophes. -/
def plainEscape? : Char → Option Char
  | '\\' => some '\\'
  | '\'' => some '\''
  | _ => none

/-- The character that a letter behind a backslash stands for between double quotes. -/
def richEscape? : Char → Option Char
  | '\\' => some '\\'
  | '\'' => some '\''
  | '"' => some '"'
  | 'a' => some (Char.ofNat 7)
  | 'b' => some (Char.ofNat 8)
  | 'f' => some (Char.ofNat 12)
  | 'n' => some '\n'
  | 'r' => some '\r'
  | 't' => some '\t'
  | 'v' => some (Char.ofNat 11)
  | _ => none

/-- A text with its escapes replaced by what they stand for. -/
def unescape (escape? : Char → Option Char) : Text → Text
  | '\\' :: c :: r =>
    match escape? c with
    | some d => d :: unescape escape? r
    | none => '\\' :: unescape escape? (c :: r)
  | c :: r => c :: unescape escape? r
  | [] => []

/-- The part of an unquoted value before a comment, which begins with a number sign behind white space. -/
def beforeComment : Text → Text
  | [] => []
  | c :: r =>
    if Text.isBlank c && (r.dropWhile Text.isBlank).head? = some '#' then []
    else c :: beforeComment r

/-- The value at the beginning of a text and the text behind it. -/
def value? : Text → Option (Text × Text)
  | '\'' :: r => (closeQuote '\'' [] none r).map fun (v, rest) => (unescape plainEscape? v, rest)
  | '"' :: r => (closeQuote '"' [] none r).map fun (v, rest) => (unescape richEscape? v, rest)
  | t =>
    let line := t.takeWhile (· != '\n')
    some (Text.trimEnd (beforeComment line), t.drop line.length)

/-- Whether a character belongs to a name without quotes. -/
def isNameChar (c : Char) : Bool :=
  c != '=' && c != '#' && !Text.isBlank c

/-- The name at the beginning of a text and the text behind it; a comment has no name. -/
def name? : Text → Option (Option Text × Text)
  | '#' :: r => some (none, '#' :: r)
  | '\'' :: r =>
    match r.span (· != '\'') with
    | (k :: ks, _ :: rest) => some (some (k :: ks), rest)
    | _ => none
  | t =>
    match t.span isNameChar with
    | ([], _) => none
    | (k, rest) => some (some k, rest)

/-- The text behind the word that may stand in front of a name. -/
def skipExport (t : Text) : Text :=
  let word := "export".toList
  if word.isPrefixOf t then
    let rest := t.drop word.length
    if rest.head?.any isInlineBlank then skipInline rest else t
  else t

/-- The text behind a comment and the end of the line. -/
def endLine? (t : Text) : Option Text :=
  let rest := skipInline t
  let rest := if rest.head? = some '#' then rest.dropWhile (· != '\n') else rest
  match rest with
  | [] => some []
  | '\n' :: r => some r
  | _ => none

/-- A line of the file: a name and its value, either of which may be missing. -/
structure Line where
  name : Option Text
  value : Option Text
  deriving Repr, DecidableEq

/-- Where the reading of a line ends: behind it, or inside it if it is not understood. -/
inductive LineEnd where
  | behind (line : Line) (rest : Text)
  | inside (rest : Text)

/-- Reads a line that begins with something else than white space. -/
def readLine (t : Text) : LineEnd :=
  let t := skipExport t
  match name? t with
  | none => .inside t
  | some (name, rest) =>
    match skipInline rest with
    | '=' :: r =>
      let r := skipInline r
      match value? r with
      | none => .inside r
      | some (v, rest) =>
        match endLine? rest with
        | some rest' => .behind ⟨name, some v⟩ rest'
        | none => .inside rest
    | rest =>
      match endLine? rest with
      | some rest' => .behind ⟨name, none⟩ rest'
      | none => .inside rest

/-- The lines of a file, as far as they are understood. Every line takes at least one character. -/
def readLines : Nat → Text → List Line
  | 0, _ => []
  | fuel + 1, t =>
    match t.dropWhile Text.isBlank with
    | [] => []
    | t' =>
      match readLine t' with
      | .behind line rest => line :: readLines fuel rest
      | .inside rest => readLines fuel (skipLine rest)

/-- The values of names; a name without a value has been named only. -/
abbrev Values := List (String × Option String)

/-- The value of a name. -/
def valueOf? (values : Values) (name : String) : Option (Option String) :=
  (values.find? fun entry => entry.1 == name).map (·.2)

/-- Gives a value to a name. A name that is there keeps its place. -/
def put (name : String) (value : Option String) : Values → Values
  | [] => [(name, value)]
  | (n, v) :: rest => if n == name then (n, value) :: rest else (n, v) :: put name value rest

/-- The name and the default of a reference whose opening brace has been read, and the text behind it. -/
def reference? (t : Text) : Option (Text × Option Text × Text) :=
  let (name, rest) := t.span fun c => c != '\x7d' && c != ':'
  match rest with
  | ':' :: '-' :: r =>
    match r.span (· != '\x7d') with
    | (default, _ :: rest) => some (name, some default, rest)
    | (_, []) => none
  | '\x7d' :: r => some (name, none, r)
  | _ => none

/-- A text with its references replaced by what `lookup` gives for name and default. -/
def expand (lookup : Text → Option Text → Text) : Nat → Text → Text
  | 0, t => t
  | _, [] => []
  | fuel + 1, c :: r =>
    match c, r with
    | '$', '\x7b' :: s =>
      match reference? s with
      | some (name, default, rest) => lookup name default ++ expand lookup fuel rest
      | none => c :: expand lookup fuel r
    | _, _ => c :: expand lookup fuel r

/-- What a reference stands for: the value in the lines before, in the environment, or its default. -/
def resolve (environment : List (String × String)) (before : Values) (name : Text)
    (default : Option Text) : Text :=
  let n := String.ofList name
  match valueOf? before n with
  | some v => (v.getD "").toList
  | none =>
    match environment.reverse.find? fun entry => entry.1 == n with
    | some (_, v) => v.toList
    | none => default.getD []

/-- The values of the lines, each with the references in it replaced. -/
def valuesFrom (environment : List (String × String)) (before : Values) : List Line → Values
  | [] => before
  | ⟨some name, value⟩ :: rest =>
    let v := value.map fun t =>
      String.ofList (expand (resolve environment before) (t.length + 1) t)
    valuesFrom environment (put (String.ofList name) v before) rest
  | ⟨none, _⟩ :: rest => valuesFrom environment before rest

/-- The values that the text of an environment file gives to names. -/
def read (environment : List (String × String)) (t : Text) : Values :=
  valuesFrom environment [] (readLines (t.length + 1) t)

end Stencil.EnvFile
