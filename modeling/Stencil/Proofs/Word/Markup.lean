import Stencil.Proofs.Segment.Printing
import Stencil.Proofs.Word.Rendering

/-!
# No binding adds markup

In a template for HTML that only puts something out, every directive is shown as a text without the
characters that delimit tags and the values of attributes, in which `&` only begins a reference. Whatever
the names and the values of the bindings, the delimiters of the output are therefore those of the literal
texts (`sameMarkup_of_outputs`).
-/

namespace Stencil

open Script Stencil.Tree

/-! ## Escaped texts -/

namespace Escape

/-- The characters that delimit tags and the values of attributes. -/
def isMarkup (c : Char) : Bool :=
  c = '<' || c = '>' || c = Char.ofNat 34 || c = Char.ofNat 39

/-- The references that stand for characters. -/
def references : List Text :=
  ["&amp;".toList, "&lt;".toList, "&gt;".toList, "&quot;".toList, "&#39;".toList]

/-- A text in which nothing delimits tags or the values of attributes, and `&` only begins references. -/
structure IsEscaped (t : Text) : Prop where
  plain : ∀ c ∈ t, ¬ isMarkup c
  reference : ∀ rest, '&' :: rest <:+ t → ∃ r ∈ references, r <+: '&' :: rest

/-- A text without special characters is escaped as it is. -/
theorem isEscaped_of_plain {t : Text} (h : ∀ c ∈ t, ¬ isMarkup c ∧ c ≠ '&') : IsEscaped t :=
  ⟨fun c hc => (h c hc).1, fun _ hrest => absurd rfl (h '&' (hrest.mem List.mem_cons_self)).2⟩

/-- The reference for a special character is escaped, and so is any other character. -/
theorem isEscaped_htmlChar (c : Char) : IsEscaped (htmlChar c) := by
  have hreference {r : Text} (hr : r ∈ references) : IsEscaped r := by
    have hplain : ∀ r ∈ references, r.all fun c => !isMarkup c := by decide +kernel
    refine ⟨fun c hc => ?_, fun rest hrest => ⟨r, hr, ?_⟩⟩
    · simpa using List.all_eq_true.1 (hplain r hr) c hc
    · -- the only `&` of a reference is its first character
      obtain ⟨before, hbefore⟩ := hrest
      cases before with
      | nil => exact hbefore ▸ List.prefix_rfl
      | cons c before =>
          have htail : ∀ r ∈ references, '&' ∉ r.tail := by decide +kernel
          refine absurd ?_ (htail r hr)
          rw [← hbefore, List.cons_append, List.tail_cons]
          exact List.mem_append_right _ List.mem_cons_self
  unfold htmlChar
  split
  · exact hreference (by decide +kernel)
  split
  · exact hreference (by decide +kernel)
  split
  · exact hreference (by decide +kernel)
  split
  · exact hreference (by decide +kernel)
  split
  · exact hreference (by decide +kernel)
  · next hamp hlt hgt hquote hapostrophe =>
      refine isEscaped_of_plain fun c' hc' => ?_
      rw [List.mem_singleton.1 hc']
      simp [isMarkup, hamp, hlt, hgt, hquote, hapostrophe]

/-- Two escaped texts, one behind the other. -/
theorem IsEscaped.append {t u : Text} (ht : IsEscaped t) (hu : IsEscaped u) : IsEscaped (t ++ u) := by
  refine ⟨fun c hc => (List.mem_append.1 hc).elim (ht.plain c) (hu.plain c), fun rest hrest => ?_⟩
  obtain ⟨before, hbefore⟩ := hrest
  rcases List.append_eq_append_iff.1 hbefore with ⟨w, rfl, hw⟩ | ⟨w, -, rfl⟩
  · cases w with
    | nil => exact hu.reference rest ⟨[], hw⟩
    | cons c w =>
        obtain ⟨rfl, rfl⟩ := List.cons.inj hw
        obtain ⟨r, hr, hprefix⟩ := ht.reference w ⟨before, rfl⟩
        exact ⟨r, hr, hprefix.trans (List.prefix_append ('&' :: w) u)⟩
  · exact hu.reference rest ⟨w, rfl⟩

/-- Escaped texts, one behind the other. -/
theorem isEscaped_flatten {ts : List Text} (h : ∀ t ∈ ts, IsEscaped t) : IsEscaped ts.flatten := by
  induction ts with
  | nil => exact isEscaped_of_plain nofun
  | cons t ts ih =>
      exact (h t List.mem_cons_self).append (ih fun u hu => h u (List.mem_cons_of_mem _ hu))

/-- Escaping a text gives an escaped one. -/
theorem isEscaped_html (t : Text) : IsEscaped (html t) := by
  rw [html, List.flatMap]
  refine isEscaped_flatten fun u hu => ?_
  obtain ⟨c, -, rfl⟩ := List.mem_map.1 hu
  exact isEscaped_htmlChar c

end Escape

/-! ## Segments -/

/-- What an instruction that puts something out may be shown as: a text as itself, and an expression as
some text that is escaped. -/
def Instruction.Shows : Instruction → String → Prop
  | emitText t _, shown => shown = String.ofList t
  | emitExpr _ _ _, shown => ∃ t, shown = Escape.htmlString t
  | runStatement _ _, _ => False

/-- What an instruction puts out is shown as the instruction is. -/
theorem Put.OfInstruction.shows {i : Instruction} {p : Put} (h : OfInstruction i p) {shown : String}
    (hshown : p.Shows shown) : i.Shows shown := by
  cases h <;> exact hshown

namespace Segment

/-- What a segment may be shown as: a literal as its text, and a directive as an escaped text. -/
def ShownAs : Segment → Text → Prop
  | literal t _, piece => piece = t
  | directive _, piece => Escape.IsEscaped piece

/-- The text of a literal. -/
def literalText : Segment → Text
  | literal t _ => t
  | directive _ => []

/-- What a segment is shown as has the delimiters of its literal text. -/
theorem ShownAs.filter_isMarkup {s : Segment} {piece : Text} (h : s.ShownAs piece) :
    piece.filter Escape.isMarkup = s.literalText.filter Escape.isMarkup := by
  cases s with
  | literal t line => rw [show piece = t from h, literalText]
  | directive d => exact List.filter_eq_nil_iff.2 (Escape.IsEscaped.plain h)

/-- Gaps and line breaks are escaped as they are. -/
theorem isEscaped_of_spaces {t : Text} (h : ∀ c ∈ t, c = ' ' ∨ c = '\t' ∨ c = '\r' ∨ c = '\n') :
    Escape.IsEscaped t :=
  Escape.isEscaped_of_plain fun c hc => by
    rcases h c hc with rfl | rfl | rfl | rfl <;> decide +kernel

/-- The white space around a directive that was scanned is escaped as it is. -/
theorem isEscaped_of_ofSpace {d : Directive} {before after : Text} (hd : DirectiveFits before d after)
    {space : Option Text} (hspace : space = d.lspace ∨ space = d.rspace) {line : Int} {i : Instruction}
    (hi : i ∈ Instruction.ofSpace space line) {shown : String} (hshown : i.Shows shown) :
    Escape.IsEscaped shown.toList := by
  have hgap {c : Char} (hc : Text.isGap c) : c = ' ' ∨ c = '\t' := by simpa [Text.isGap] using hc
  unfold Instruction.ofSpace at hi
  split at hi
  · cases hi
  · cases hi
  · next t _ =>
      obtain rfl := List.mem_singleton.1 hi
      rw [show shown = String.ofList t from hshown, String.toList_ofList]
      refine isEscaped_of_spaces fun c hc => ?_
      rcases hspace with hspace | hspace
      · have hgaps := List.all_eq_true.1 (hd.gaps t hspace.symm) c hc
        exact (hgap hgaps).imp_right .inl
      · obtain ⟨gaps, hgaps, rfl | rfl⟩ := hd.lineEnd t hspace.symm
        all_goals rcases List.mem_append.1 hc with hc | hc
        · exact (hgap (List.all_eq_true.1 hgaps c hc)).imp_right .inl
        · exact .inr (.inr (.inr (List.mem_singleton.1 hc)))
        · exact (hgap (List.all_eq_true.1 hgaps c hc)).imp_right .inl
        · exact .inr (.inr (List.mem_pair.1 hc))

/-- Each instruction of a directive that was scanned shows an escaped text. -/
theorem isEscaped_of_shows {d : Directive} {before after : Text} (h : (directive d).PutsOut)
    (hd : DirectiveFits before d after) {i : Instruction} (hi : i ∈ d.instructions) {shown : String}
    (hshown : i.Shows shown) : Escape.IsEscaped shown.toList := by
  have hcore (hi : i ∈ d.core) : Escape.IsEscaped shown.toList := by
    rcases h with hkind | ⟨hkind, -⟩
    · simp only [Directive.core, hkind] at hi
      split at hi
      · cases hi
      · next n _ =>
          obtain rfl := List.mem_singleton.1 hi
          rw [show shown = String.ofList _ from hshown, String.toList_ofList]
          refine isEscaped_of_spaces fun c hc => ?_
          rw [List.eq_of_mem_replicate hc]
          simp
    · simp only [Directive.core, hkind, List.mem_singleton] at hi
      subst hi
      obtain ⟨t, rfl⟩ := hshown
      rw [Escape.htmlString, String.toList_ofList]
      exact Escape.isEscaped_html _
  rw [Directive.instructions] at hi
  split at hi
  · exact hcore hi
  · rw [List.mem_append, List.mem_append] at hi
    rcases hi with (hi | hi) | hi
    · exact isEscaped_of_ofSpace hd (.inl rfl) hi hshown
    · exact hcore hi
    · exact isEscaped_of_ofSpace hd (.inr rfl) hi hshown

/-- Escaped texts that instructions show, put together. -/
theorem isEscaped_join {is : List Instruction} {shown : List String}
    (h : ∀ i ∈ is, ∀ t, i.Shows t → Escape.IsEscaped t.toList)
    (hshown : List.Forall₂ Instruction.Shows is shown) : Escape.IsEscaped (String.join shown).toList := by
  induction hshown with
  | nil => exact Escape.isEscaped_of_plain nofun
  | @cons i t is ts hi _ ih =>
      rw [String.join_cons, String.toList_append]
      exact (h i List.mem_cons_self t hi).append (ih fun j hj => h j (List.mem_cons_of_mem _ hj))

/-- What the instructions of a segment that was scanned show, put together, is what the segment may be
shown as. -/
theorem shownAs_join {s : Segment} (h : s.PutsOut)
    (hfits : ∀ d, s = directive d → ∃ before after, DirectiveFits before d after) {shown : List String}
    (hshown : List.Forall₂ Instruction.Shows s.instructions shown) :
    s.ShownAs (String.join shown).toList := by
  cases s with
  | literal t line =>
      cases hshown with
      | @cons _ piece _ _ hpiece hrest =>
          cases hrest
          rw [show piece = String.ofList t from hpiece, String.join_cons, String.join_nil,
            String.append_empty, String.toList_ofList]
          rfl
  | directive d =>
      obtain ⟨before, after, hd⟩ := hfits d rfl
      exact isEscaped_join (fun i hi t ht => isEscaped_of_shows h hd hi ht) hshown

/-- What the instructions of segments that were scanned show is, one after the other, what the segments may
be shown as. -/
theorem exists_pieces {segments : List Segment} (h : ∀ s ∈ segments, s.PutsOut)
    (hfits : ∀ d, directive d ∈ segments → ∃ before after, DirectiveFits before d after)
    {shown : List String} (hshown : List.Forall₂ Instruction.Shows (Instruction.ofSegments segments) shown) :
    ∃ pieces, List.Forall₂ ShownAs segments pieces ∧ (String.join shown).toList = pieces.flatten := by
  induction segments generalizing shown with
  | nil =>
      cases hshown
      exact ⟨[], .nil, rfl⟩
  | cons s rest ih =>
      rw [Instruction.ofSegments, List.flatMap_cons, ← Instruction.ofSegments] at hshown
      -- the texts of the first segment, and those of the others
      have hfirst := List.forall₂_take s.instructions.length hshown
      have hrest := List.forall₂_drop s.instructions.length hshown
      rw [List.take_left] at hfirst
      rw [List.drop_left] at hrest
      obtain ⟨pieces, hpieces, hflatten⟩ := ih (fun s hs => h s (List.mem_cons_of_mem _ hs))
        (fun d hd => hfits d (List.mem_cons_of_mem _ hd)) hrest
      have hpiece := shownAs_join (h s List.mem_cons_self)
        (fun d hd => hfits d (hd ▸ List.mem_cons_self)) hfirst
      refine ⟨_ :: pieces, .cons hpiece hpieces, ?_⟩
      rw [List.flatten_cons, ← hflatten, ← String.toList_append, ← String.join_append,
        List.take_append_drop]

/-- The delimiters of what segments are shown as are those of their literal texts. -/
theorem filter_isMarkup_flatten {segments : List Segment} {pieces : List Text}
    (h : List.Forall₂ ShownAs segments pieces) :
    pieces.flatten.filter Escape.isMarkup = (segments.flatMap literalText).filter Escape.isMarkup := by
  induction h with
  | nil => rfl
  | cons hs _ ih =>
      rw [List.flatten_cons, List.flatMap_cons, List.filter_append, List.filter_append,
        hs.filter_isMarkup, ih]

end Segment

/-! ## Templates -/

/-- The instructions of what is put out show it. -/
theorem Put.forall₂_shows {is : List Instruction} {puts : List Put} {shown : List String}
    (hputs : List.Forall₂ OfInstruction is puts) (hshown : List.Forall₂ Shows puts shown) :
    List.Forall₂ Instruction.Shows is shown := by
  induction hputs generalizing shown with
  | nil =>
      cases hshown
      exact .nil
  | cons hi _ ih =>
      cases hshown with
      | cons hp hrest => exact .cons (hi.shows hp) (ih hrest)

/-- The output of a template for HTML for a mapping of bindings, on a machine and with a number of steps, if
there is one. -/
def htmlOutput? (settings : Settings) (name : String) (source : Text) (line : Int) (m : Machine) (n : Nat)
    (bindings : List (String × Data)) : Option String :=
  match (Program.ofText settings name source line).run.run #[] with
  | (.ok p, log) =>
    match (Value.ofData (.dict (mappingOf bindings))).run m with
    | .ok v m' =>
      match ((⟨p, true, none⟩ : Template).renderBy (operations n) v).run.run (m', log) with
      | (.ok out, _) => some out
      | (.error _, _) => none
    | .error _ _ => none
  | (.error _, _) => none

/-- A template that only puts something out shows its literal texts as they are, and each directive as an
escaped text. -/
theorem exists_pieces_of_htmlOutput? {settings : Settings} {name : String} {source : Text} {line : Int}
    (h : ∀ s ∈ Segment.scan source line, s.PutsOut) {m : Machine} (hshowing : m.showing = []) {n : Nat}
    {bindings : List (String × Data)} (hjson : ∀ b ∈ bindings, b.2.isJson) {out : String}
    (hout : htmlOutput? settings name source line m n bindings = some out) :
    ∃ pieces, List.Forall₂ Segment.ShownAs (Segment.scan source line) pieces ∧
      out.toList = pieces.flatten := by
  obtain ⟨p, log', puts, hcompile, hputs, hbody⟩ := compile_putsOut settings name h #[]
  obtain ⟨v, m', hdata, ⟨os, rfl⟩, hdenotes⟩ := run_ofData (.dict (mappingOf bindings))
    (by rw [Data.isJson]; exact areJsonEntries_mappingOf hjson) m
  cases hdenotes with
  | @dict _ a es _ hlt hobject hentries =>
      rw [htmlOutput?, hcompile] at hout
      dsimp only at hout
      rw [hdata] at hout
      dsimp only at hout
      split at hout
      · next after hrender =>
          cases hout
          obtain ⟨shown, hshown, rfl⟩ := Put.shows_of_renderBy hbody hobject
            (hentries.mono (Nat.le_of_lt hlt)) hshowing hrender
          exact Segment.exists_pieces h
            (fun d hd => (Segment.wellFormed_scan source line).directiveFits hd)
            (Put.forall₂_shows hputs hshown)
      · cases hout

/-- No binding adds markup: two outputs of a template for HTML whose directives are only remarks and words,
for any two mappings of JSON values to whatever names, have the same delimiters of tags and values of
attributes in the same order, namely those of its literal texts, and what an output shows in place of a
directive has `&` only where a reference begins. -/
theorem sameMarkup_of_outputs {settings : Settings} {name : String} {source : Text} {line : Int}
    (h : ∀ s ∈ Segment.scan source line, s.PutsOut) {m m' : Machine} (hshowing : m.showing = [])
    (hshowing' : m'.showing = []) {n n' : Nat} {bindings bindings' : List (String × Data)}
    (hjson : ∀ b ∈ bindings, b.2.isJson) (hjson' : ∀ b ∈ bindings', b.2.isJson) {out out' : String}
    (hout : htmlOutput? settings name source line m n bindings = some out)
    (hout' : htmlOutput? settings name source line m' n' bindings' = some out') :
    out.toList.filter Escape.isMarkup = out'.toList.filter Escape.isMarkup ∧
      out.toList.filter Escape.isMarkup =
        ((Segment.scan source line).flatMap Segment.literalText).filter Escape.isMarkup ∧
      ∃ pieces, List.Forall₂ Segment.ShownAs (Segment.scan source line) pieces ∧
        out.toList = pieces.flatten := by
  obtain ⟨pieces, hpieces, hflatten⟩ := exists_pieces_of_htmlOutput? h hshowing hjson hout
  obtain ⟨pieces', hpieces', hflatten'⟩ := exists_pieces_of_htmlOutput? h hshowing' hjson' hout'
  have hmarkup := Segment.filter_isMarkup_flatten hpieces
  have hmarkup' := Segment.filter_isMarkup_flatten hpieces'
  rw [← hflatten] at hmarkup
  rw [← hflatten'] at hmarkup'
  exact ⟨hmarkup.trans hmarkup'.symm, hmarkup, pieces, hpieces, hflatten⟩

/-- A tag with a word in it, shown with a value that holds a tag, and with names of the engine bound. -/
theorem sameMarkup_taggedWord :
    let source := "<b><%= x %></b>".toList
    let hostile : List (String × Data) := [("x", .str "<i>&"), ("_escape", .none), ("_buf", .list [])]
    htmlOutput? Settings.default "page" source 1 Machine.start 9 [("x", .int 2)] = some "<b>2</b>" ∧
    htmlOutput? Settings.default "page" source 1 Machine.start 9 hostile =
      some "<b>&lt;i&gt;&amp;</b>" ∧
    "<b>2</b>".toList.filter Escape.isMarkup = "<b>&lt;i&gt;&amp;</b>".toList.filter Escape.isMarkup := by
  intro source hostile
  have hputs : ∀ s ∈ Segment.scan source 1, s.PutsOut := by decide +kernel
  have hout : htmlOutput? Settings.default "page" source 1 Machine.start 9 [("x", .int 2)] =
      some "<b>2</b>" := by decide +kernel
  have hout' : htmlOutput? Settings.default "page" source 1 Machine.start 9 hostile =
      some "<b>&lt;i&gt;&amp;</b>" := by decide +kernel
  have hmarkup := sameMarkup_of_outputs hputs rfl rfl (by decide) (by decide) hout hout'
  exact ⟨hout, hout', hmarkup.1⟩

end Stencil
