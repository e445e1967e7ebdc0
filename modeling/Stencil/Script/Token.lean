import Stencil.Text.Basic

/-!
# Tokens of the script language

A script is read as a list of tokens. Line breaks and changes of indentation are tokens too, so that
statements and blocks can be recognised without looking at columns. The list ends with `finish`, or
with `fault` where the text stops making sense.
-/

namespace Stencil.Script

/-- Why a text cannot be split into further tokens. -/
inductive LexCause where
  | unterminatedString
  | unterminatedBlockString
  | badCharacter
  | badNumber
  | unmatchedClose
  | mismatchedClose
  | tooManyOpen
  | inconsistentDedent
  | inconsistentTabs
  | tooManyIndents
  | strayContinuation
  | endInContinuation
  | unclosed
  deriving Repr, DecidableEq

/-- Whether a cause is found by looking at the characters of one token alone. Such a fault is reported
even when the script goes wrong before it. -/
def LexCause.isLocal : LexCause → Bool
  | unterminatedString | unterminatedBlockString | badCharacter | badNumber | unmatchedClose
  | mismatchedClose | tooManyOpen => true
  | _ => false

/-- A fault with its line and the line of the innermost bracket that is open there. -/
structure LexFault where
  cause : LexCause
  line : Nat
  openLine : Option Nat
  deriving Repr, DecidableEq

/-- The line to report when a script is read up to the fault. A text that ends too early is reported at
the bracket left open. -/
def LexFault.reportLine (f : LexFault) : Nat :=
  match f.cause with
  | .unclosed | .endInContinuation => f.openLine.getD f.line
  | _ => f.line

/-- The value of a number literal. Decimal integers beyond a limit on digits have none. -/
inductive Numeric where
  | int (n : Nat)
  | float (x : Float)
  | imaginary (x : Float)
  | tooLong
  deriving Repr

/-- A string literal: what the letters in front of it select, and the text between its quotes. -/
structure StringLit where
  raw : Bool
  bytes : Bool
  formatted : Bool
  body : Text
  deriving Repr, DecidableEq

/-- What a token is. -/
inductive Lexeme where
  | name (id : String)
  | keyword (word : String)
  | op (mark : String)
  | number (n : Numeric)
  | string (s : StringLit)
  | stray (c : Char)
  | newline
  | indent
  | dedent
  | finish
  | fault (f : LexFault)
  deriving Repr

/-- A token with the lines on which it starts and ends and the number of brackets open behind it. -/
structure Token where
  lexeme : Lexeme
  line : Nat
  endLine : Nat
  depth : Nat
  deriving Repr

/-- The words that cannot be names. -/
def keywords : List String :=
  ["False", "None", "True", "and", "as", "assert", "async", "await", "break", "class", "continue",
   "def", "del", "elif", "else", "except", "finally", "for", "from", "global", "if", "import", "in",
   "is", "lambda", "nonlocal", "not", "or", "pass", "raise", "return", "try", "while", "with",
   "yield"]

/-- A word as a keyword or a name. -/
def Lexeme.ofWord (w : String) : Lexeme :=
  if keywords.contains w then .keyword w else .name w

end Stencil.Script
