/-!
# Log messages

Work leaves messages behind, each with the verbosity from which on it is shown. A logged computation
keeps its messages also when it fails.
-/

namespace Stencil

/-- A message and the least verbosity at which it is shown. -/
structure LogEntry where
  level : Nat
  message : String
  deriving Repr, DecidableEq

/-- A computation that leaves messages and may fail. -/
abbrev Logged (ε : Type) := ExceptT ε (StateM (Array LogEntry))

/-- Leaves a message. -/
def Logged.say {ε : Type} (level : Nat) (message : String) : Logged ε Unit :=
  modify (·.push ⟨level, message⟩)

/-- The messages that a verbosity shows. -/
def shownMessages (verbosity : Int) (log : Array LogEntry) : List String :=
  (log.toList.filter fun e => (e.level : Int) ≤ verbosity).map (·.message)

end Stencil
