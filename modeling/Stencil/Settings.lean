/-!
# Settings

What can be configured: the encoding of template files, the name of templates that come from strings,
whether open blocks are at fault, and whether generated programs are logged.
-/

namespace Stencil

/-- The settings in force. -/
structure Settings where
  defaultEncoding : String
  defaultName : String
  strictBlocks : Bool
  logSource : Bool
  deriving Repr, DecidableEq

/-- The settings without any configuration. -/
def Settings.default : Settings := ⟨"utf-8", "(embtext)", true, false⟩

/-- The name of a template: the given one, unless it is missing or empty. -/
def Settings.templateName (s : Settings) (name : Option String) : String :=
  match name with
  | none | some "" => s.defaultName
  | some n => n

end Stencil
