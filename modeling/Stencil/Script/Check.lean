import Stencil.Script.Parser.Statement
import Stencil.Script.Check.Names
import Stencil.Script.Check.Placement

/-!
# Scripts that can run

A text is a script when it can be read and its names and statements are placed well. Otherwise the
check names the line at fault, or finds the one character that no script may hold.
-/

namespace Stencil.Script

/-- Why a text is not a script. -/
inductive CheckError where
  /-- The text holds a null character. -/
  | nullCharacter
  /-- The text is at fault on a line. -/
  | fault (line : Nat)
  deriving Repr, DecidableEq

/-- The statements of a script, if the text is one. -/
def check (source : Text) : Except CheckError (List Stmt) :=
  if source.contains (Char.ofNat 0) then .error .nullCharacter
  else
    match parse source with
    | .error l => .error (.fault l)
    | .ok body =>
      let height := source.length + 10
      match (do checkFuture true body; checkNames height body; checkPlacement height body) with
      | .error l => .error (.fault l)
      | .ok () => .ok body

end Stencil.Script
