import Stencil.Text.Basic
import Stencil.Segment.Scan

/-!
# Highlighting templates

Splits a template into markers, remarks, code and other text, and shows these in colour on a terminal,
as classes of HTML, or not at all. The template is tidied first: line breaks are made plain, empty lines
at both ends are dropped, and one line break ends the text.
-/

namespace Stencil.Highlight

/-- What a piece of a template is. -/
inductive Kind where
  | marker | comment | code | other
  deriving Repr, DecidableEq

/-- A piece of a template. -/
structure Piece where
  kind : Kind
  text : Text
  deriving Repr, DecidableEq

/-- Makes every line break plain. -/
def plainBreaks : Text → Text
  | [] => []
  | '\r' :: '\n' :: r => '\n' :: plainBreaks r
  | '\r' :: r => '\n' :: plainBreaks r
  | c :: r => c :: plainBreaks r

/-- A template tidied for highlighting. -/
def tidy (source : Text) : Text :=
  let t := if source.head? == some (Char.ofNat 0xfeff) then source.drop 1 else source
  let t := (plainBreaks t).dropWhile (· == '\n')
  (t.reverse.dropWhile (· == '\n')).reverse ++ ['\n']

/-- A directive at the start of a text: its opening marker, its body, and the text behind its closing
marker. -/
def directive? (t : Text) : Option (Text × Text × Text) :=
  let marker : Option Text := match t with
    | '<' :: '%' :: '#' :: _ => some ['<', '%', '#']
    | '<' :: '%' :: '=' :: '=' :: _ => some ['<', '%', '=', '=']
    | '<' :: '%' :: '=' :: _ => some ['<', '%', '=']
    | '<' :: '%' :: _ => some ['<', '%']
    | _ => none
  marker.bind fun m =>
    (Text.cutAt? Segment.closeMark (t.drop m.length)).map fun (body, rest) => (m, body, rest)

/-- The pieces of a tidied template from the front on. The fuel is the length of the text. -/
def piecesFrom : Nat → Text → List Piece
  | 0, _ => []
  | _, [] => []
  | fuel + 1, c :: r =>
    match directive? (c :: r) with
    | some (marker, body, rest) =>
      let kind := if marker == ['<', '%', '#'] then .comment else .code
      ⟨.marker, marker⟩ :: ⟨kind, body⟩ :: ⟨.marker, Segment.closeMark⟩ :: piecesFrom fuel rest
    | none =>
      if c = '<' then ⟨.other, [c]⟩ :: piecesFrom fuel r
      else
        let run := (c :: r).takeWhile (· ≠ '<')
        ⟨.other, run⟩ :: piecesFrom fuel ((c :: r).drop run.length)

/-- Joins neighbouring pieces of one kind, except markers, and drops empty ones. -/
def join : List Piece → List Piece
  | [] => []
  | p :: r =>
    if p.text.isEmpty then join r
    else
      match join r with
      | q :: r' =>
        if p.kind = q.kind && p.kind ≠ .marker then ⟨p.kind, p.text ++ q.text⟩ :: r' else p :: q :: r'
      | [] => [p]

/-- The pieces of a template. -/
def pieces (source : Text) : List Piece :=
  let t := tidy source
  join (piecesFrom (t.length + 1) t)

/-! ## Formats -/

/-- The formats that pieces can be shown in. -/
inductive Format where
  | plain | terminal | html
  deriving Repr, DecidableEq

/-- The format of a name. -/
def Format.ofName? : String → Option Format
  | "text" | "null" => some .plain
  | "terminal" => some .terminal
  | "html" => some .html
  | _ => none

/-- The sequence that starts a colour on a terminal. -/
def colour (code : String) : Text :=
  Char.ofNat 27 :: '[' :: code.toList ++ ['m']

/-- The colour of a kind on a terminal, if it has one. -/
def Kind.colour? : Kind → Option Text
  | marker => some (colour "36")
  | comment => some (colour "37")
  | _ => none

/-- A piece on a terminal, where each row is coloured apart. -/
def Piece.terminal (p : Piece) : Text :=
  (Text.rows p.text).flatMap fun row =>
    let ended := row.getLast? == some '\n'
    let body := (row.reverse.dropWhile (· == '\n')).reverse
    let shown := match p.kind.colour? with
      | some c => c ++ body ++ colour "39;49;00"
      | none => body
    if ended then shown ++ ['\n'] else shown

/-- The class of a kind in HTML, if it has one. -/
def Kind.className? : Kind → Option Text
  | marker => some "cp".toList
  | comment => some "c".toList
  | other => some "x".toList
  | code => none

/-- A character in HTML outside attributes. -/
def htmlChar (c : Char) : Text :=
  if c = '&' then "&amp;".toList
  else if c = '<' then "&lt;".toList
  else if c = '>' then "&gt;".toList
  else [c]

/-- A character of a piece, or the end of a line. -/
def classed (p : Piece) : List (Option (Option Text × Text)) :=
  p.text.map fun c => if c = '\n' then none else some (p.kind.className?, htmlChar c)

/-- Characters with their classes, where each run of one class within a line becomes one element. -/
def spans (opened : Option (Option Text)) : List (Option (Option Text × Text)) → Text
  | [] => close opened
  | none :: r => close opened ++ '\n' :: spans none r
  | some (cls, t) :: r =>
    if opened == some cls then t ++ spans opened r
    else close opened ++ start cls ++ t ++ spans (some cls) r
where
  /-- The end of an element. -/
  close : Option (Option Text) → Text
    | some (some _) => "</span>".toList
    | _ => []
  /-- The start of an element. -/
  start : Option Text → Text
    | some cls => "<span class=\"".toList ++ cls ++ "\">".toList
    | none => []

/-- A template in a format. -/
def render (format : Format) (source : Text) : Text :=
  match format with
  | .plain => tidy source
  | .terminal => (pieces source).flatMap Piece.terminal
  | .html =>
    "<div class=\"highlight\"><pre><span></span>".toList ++
      spans none ((pieces source).flatMap classed) ++ "</pre></div>\n".toList

end Stencil.Highlight
