import Stencil.Text.Basic

/-!
# Escaping for HTML

The five characters that mean something in HTML are replaced by references, each text in one pass from
the left. Reading the references back gives the text.
-/

namespace Stencil.Escape

/-- The reference for a character, or the character itself where it needs none. -/
def htmlChar (c : Char) : Text :=
  if c = '&' then "&amp;".toList
  else if c = '<' then "&lt;".toList
  else if c = '>' then "&gt;".toList
  else if c = Char.ofNat 34 then "&quot;".toList
  else if c = Char.ofNat 39 then "&#39;".toList
  else [c]

/-- A text with the characters that mean something in HTML replaced by references. -/
def html (t : Text) : Text :=
  t.flatMap htmlChar

/-- A string escaped for HTML. -/
def htmlString (s : String) : String :=
  String.ofList (html s.toList)

end Stencil.Escape
