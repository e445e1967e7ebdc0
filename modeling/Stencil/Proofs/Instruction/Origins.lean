import Stencil.Proofs.Program.TemplateLines
import Stencil.Proofs.Segment.Printing

/-!
# Where instructions come from

A template is a row of parts: texts, and directives with the white space that belongs to their lines. Each
instruction stems from a place in such a part. The places are in the order of the instructions, and the line
of an instruction is that of its place. The texts that are put out are those of the template in which each
directive is reduced to the white space that it leaves (`instructions_stem_from_parts`).
-/

namespace Stencil

open Segment (openMark closeMark codeOf lineAt find? scanFrom scan literalOf)

/-! ## Parts of a template -/

/-- A part of a template: a text with its line, or a directive with what stands between its mark and its
closing bracket. -/
inductive Part where
  | text (t : Text) (line : Int)
  | directive (d : Directive) (body : Text)

namespace Part

/-- The segment of a part. -/
def segment : Part → Segment
  | text t line => .literal t line
  | directive d _ => .directive d

/-- What stands between the white space in front of a directive and that behind it. -/
def bracket (d : Directive) (body : Text) : Text :=
  openMark ++ (d.kind.mark ++ (body ++ closeMark))

/-- How a part is written. -/
def written : Part → Text
  | text t _ => t
  | directive d body => d.lspace.getD [] ++ (bracket d body ++ d.rspace.getD [])

/-- What a part leaves of itself in the output: a text stays, a statement on a line of its own goes with its
line, a remark leaves its line breaks and the white space around it, and any other directive leaves only the
white space. -/
def kept : Part → Text
  | text t _ => t
  | directive d body =>
    match d.kind with
    | .statement => if d.ownsLine then [] else d.lspace.getD [] ++ d.rspace.getD []
    | .comment => d.lspace.getD [] ++ (List.replicate (Text.breaks body) '\n' ++ d.rspace.getD [])
    | .escapedExpr | .rawExpr => d.lspace.getD [] ++ d.rspace.getD []

/-- The instructions of a part that starts at a place, each with its own place: that of the first character
of a text, of the white space in front of a directive, of its opening bracket, or of the white space behind
its closing bracket. -/
def issued (p : Nat) : Part → List (Nat × Instruction)
  | text t line => [(p, .emitText t line)]
  | directive d body =>
    let opened := p + (d.lspace.getD []).length
    let closed := opened + (bracket d body).length
    if d.trims then d.core.map (opened, ·)
    else
      (Instruction.ofSpace d.lspace d.line).map (p, ·) ++ d.core.map (opened, ·) ++
        (Instruction.ofSpace d.rspace (d.line + Text.breaks d.code)).map (closed, ·)

/-- The instructions of parts in a row, the first of which starts at a place. -/
def issuedAll (p : Nat) : List Part → List (Nat × Instruction)
  | [] => []
  | x :: parts => x.issued p ++ issuedAll (p + x.written.length) parts

/-- Whether a part that starts on a line is what the scan reads there. -/
def Fits (line : Int) : Part → Prop
  | text t l => t ≠ [] ∧ l = line
  | directive d body => d.line = line ∧ d.code = codeOf body ∧ Text.breaks (d.lspace.getD []) = 0

/-- Whether parts in a row, the first of which starts on a line, are what the scan reads there. -/
def FitAll (line : Int) : List Part → Prop
  | [] => True
  | x :: parts => x.Fits line ∧ FitAll (line + Text.breaks x.written) parts

/-- The bracket of a directive is not empty. -/
theorem length_bracket_pos (d : Directive) (body : Text) : 0 < (bracket d body).length := by
  simp [bracket, openMark]

/-- The line breaks of a bracket are those of its body. -/
theorem breaks_bracket (d : Directive) (body : Text) : Text.breaks (bracket d body) = Text.breaks body := by
  have hmark : Text.breaks d.kind.mark = 0 := by cases d.kind <;> rfl
  have hopen : Text.breaks openMark = 0 := rfl
  have hclose : Text.breaks closeMark = 0 := rfl
  unfold Text.breaks at hmark hopen hclose ⊢
  rw [bracket, List.count_append, List.count_append, List.count_append, hmark, hopen, hclose]
  omega

/-- The instructions with a place are those of the segments. -/
theorem map_snd_issuedAll (p : Nat) (parts : List Part) :
    (issuedAll p parts).map (·.2) = Instruction.ofSegments (parts.map segment) := by
  induction parts generalizing p with
  | nil => rfl
  | cons x parts ih =>
      have hx : (x.issued p).map (·.2) = x.segment.instructions := by
        cases x with
        | text t line => rfl
        | directive d body =>
            rw [issued, segment, Segment.instructions, Directive.instructions]
            split <;> simp [Function.comp_def]
      rw [issuedAll, List.map_append, hx, ih]
      rfl

/-! ## Places in order -/

/-- White space is put out by one instruction where there is some. -/
theorem ofSpace_eq (space : Option Text) (line : Int) :
    Instruction.ofSpace space line = [] ∧ space.getD [] = [] ∨
      Instruction.ofSpace space line = [.emitText (space.getD []) line] ∧ space.getD [] ≠ [] := by
  obtain _ | ⟨_ | ⟨c, t⟩⟩ := space
  · exact .inl ⟨rfl, rfl⟩
  · exact .inl ⟨rfl, rfl⟩
  · exact .inr ⟨rfl, List.cons_ne_nil _ _⟩

/-- White space is put out only where there is some. -/
theorem length_pos_of_mem_ofSpace {space : Option Text} {line : Int} {i : Instruction}
    (h : i ∈ Instruction.ofSpace space line) : 0 < (space.getD []).length := by
  obtain ⟨hnil, -⟩ | ⟨-, hne⟩ := ofSpace_eq space line
  · rw [hnil] at h
    exact absurd h List.not_mem_nil
  · exact List.length_pos_iff.2 hne

/-- There is at most one instruction for white space. -/
theorem length_ofSpace_le (space : Option Text) (line : Int) :
    (Instruction.ofSpace space line).length ≤ 1 := by
  obtain ⟨h, -⟩ | ⟨h, -⟩ := ofSpace_eq space line <;> simp [h]

/-- A directive does at most one thing, white space aside. -/
theorem length_core_le (d : Directive) : d.core.length ≤ 1 := by
  rw [Directive.core]
  split
  · exact Nat.le_refl 1
  · exact Nat.le_refl 1
  · exact Nat.le_refl 1
  · split
    · exact Nat.zero_le 1
    · exact Nat.le_refl 1

/-- A list of at most one element is in order. -/
theorem pairwise_of_length_le_one {α : Type} {R : α → α → Prop} {l : List α} (h : l.length ≤ 1) :
    l.Pairwise R := by
  match l, h with
  | [], _ => exact .nil
  | [x], _ => exact List.pairwise_singleton R x

/-- The places of a part's instructions are within the part, in order. -/
theorem places_issued {line : Int} {x : Part} (h : x.Fits line) (p : Nat) :
    (∀ y ∈ x.issued p, p ≤ y.1 ∧ y.1 < p + x.written.length) ∧
      (x.issued p).Pairwise (fun y z => y.1 < z.1) := by
  cases x with
  | text t l =>
      refine ⟨fun y hy => ?_, List.pairwise_singleton _ _⟩
      obtain rfl := List.mem_singleton.1 hy
      exact ⟨Nat.le_refl p, Nat.lt_add_of_pos_right (List.length_pos_iff.2 h.1)⟩
  | directive d body =>
      have hpos := length_bracket_pos d body
      have hat {q : Nat} {is : List Instruction} {y : Nat × Instruction} (hy : y ∈ is.map (q, ·)) :
          y.1 = q ∧ y.2 ∈ is := by
        obtain ⟨i, hi, rfl⟩ := List.mem_map.1 hy
        exact ⟨rfl, hi⟩
      have hone {q : Nat} {is : List Instruction} (his : is.length ≤ 1) :
          (is.map (q, ·)).Pairwise (fun y z => y.1 < z.1) :=
        pairwise_of_length_le_one (by rwa [List.length_map])
      rw [issued, written]
      simp only [List.length_append]
      split
      · refine ⟨fun y hy => ?_, hone (length_core_le d)⟩
        have hy := (hat hy).1
        omega
      · constructor
        · intro y hy
          rw [List.mem_append, List.mem_append] at hy
          rcases hy with (hy | hy) | hy
          · have hy := (hat hy).1
            omega
          · have hy := (hat hy).1
            omega
          · obtain ⟨hy, hspace⟩ := hat hy
            have hlength := length_pos_of_mem_ofSpace hspace
            omega
        · refine List.pairwise_append.2 ⟨List.pairwise_append.2 ⟨hone (length_ofSpace_le _ _),
            hone (length_core_le d), fun y hy z hz => ?_⟩, hone (length_ofSpace_le _ _), fun y hy z hz => ?_⟩
          · obtain ⟨hy, hspace⟩ := hat hy
            have hlength := length_pos_of_mem_ofSpace hspace
            have hz := (hat hz).1
            omega
          · have hz := (hat hz).1
            rcases List.mem_append.1 hy with hy | hy
            · have hy := (hat hy).1
              omega
            · have hy := (hat hy).1
              omega

/-- The places of the instructions of parts in a row are in order, from the first part on. -/
theorem places_issuedAll {line : Int} {parts : List Part} (h : FitAll line parts) (p : Nat) :
    (∀ y ∈ issuedAll p parts, p ≤ y.1) ∧ (issuedAll p parts).Pairwise (fun y z => y.1 < z.1) := by
  induction parts generalizing line p with
  | nil => exact ⟨fun y hy => absurd hy List.not_mem_nil, .nil⟩
  | cons x parts ih =>
      obtain ⟨hx, hparts⟩ := h
      obtain ⟨hwithin, horder⟩ := places_issued hx p
      obtain ⟨hbehind, hrest⟩ := ih hparts (p + x.written.length)
      rw [issuedAll]
      refine ⟨fun y hy => ?_, List.pairwise_append.2 ⟨horder, hrest, fun y hy z hz =>
        Nat.lt_of_lt_of_le (hwithin y hy).2 (hbehind z hz)⟩⟩
      rcases List.mem_append.1 hy with hy | hy
      · exact (hwithin y hy).1
      · exact Nat.le_trans (Nat.le_add_right _ _) (hbehind y hy)

/-! ## Lines of places -/

variable {line : Int} {before : Text}

/-- The line behind a text. -/
theorem lineAt_append_left (before rest : Text) (line : Int) :
    lineAt (before ++ rest) line before.length = line + Text.breaks before := by
  rw [lineAt, List.take_left]

/-- The instruction for white space is on the line of the white space. -/
theorem line_of_mem_ofSpace {space : Option Text} {i : Instruction} (h : i ∈ Instruction.ofSpace space line) :
    i.line = line := by
  obtain ⟨hnil, -⟩ | ⟨hone, -⟩ := ofSpace_eq space line
  · rw [hnil] at h
    exact absurd h List.not_mem_nil
  · rw [hone] at h
    exact List.mem_singleton.1 h ▸ rfl

/-- What a directive does is on its line. -/
theorem line_of_mem_core {d : Directive} {i : Instruction} (h : i ∈ d.core) : i.line = d.line := by
  rw [Directive.core] at h
  split at h
  · exact List.mem_singleton.1 h ▸ rfl
  · exact List.mem_singleton.1 h ▸ rfl
  · exact List.mem_singleton.1 h ▸ rfl
  · split at h
    · exact absurd h List.not_mem_nil
    · exact List.mem_singleton.1 h ▸ rfl

/-- The instructions of a part behind a text are on the lines of their places. -/
theorem line_of_mem_issued {x : Part} (h : x.Fits (line + Text.breaks before)) (rest : Text)
    {y : Nat × Instruction} (hy : y ∈ x.issued before.length) :
    y.2.line = lineAt (before ++ (x.written ++ rest)) line y.1 := by
  cases x with
  | text t l =>
      obtain rfl := List.mem_singleton.1 hy
      rw [lineAt_append_left]
      exact h.2
  | directive d body =>
      obtain ⟨hline, hcode, hspace⟩ := h
      -- the text up to the bracket, and up to what is behind it
      have hopened : lineAt (before ++ (written (.directive d body) ++ rest)) line
          (before.length + (d.lspace.getD []).length) = d.line := by
        have hsplit : before ++ (written (.directive d body) ++ rest) =
            (before ++ d.lspace.getD []) ++ (bracket d body ++ (d.rspace.getD [] ++ rest)) := by
          simp [written]
        rw [hsplit, ← List.length_append, lineAt_append_left, hline, Text.breaks, List.count_append,
          ← Text.breaks, ← Text.breaks, hspace, Nat.add_zero]
      have hclosed : lineAt (before ++ (written (.directive d body) ++ rest)) line
          (before.length + (d.lspace.getD []).length + (bracket d body).length) =
            d.line + Text.breaks d.code := by
        have hsplit : before ++ (written (.directive d body) ++ rest) =
            (before ++ d.lspace.getD [] ++ bracket d body) ++ (d.rspace.getD [] ++ rest) := by
          simp [written]
        have hbreaks : Text.breaks (before ++ d.lspace.getD [] ++ bracket d body) =
            Text.breaks before + Text.breaks body := by
          have hbracket := breaks_bracket d body
          unfold Text.breaks at hbracket hspace ⊢
          rw [List.count_append, List.count_append, hbracket, hspace, Nat.add_zero]
        rw [hsplit, ← List.length_append, ← List.length_append, lineAt_append_left, hbreaks, hline, hcode,
          Segment.breaks_codeOf]
        omega
      rw [issued] at hy
      have hcore (hy : y ∈ d.core.map (before.length + (d.lspace.getD []).length, ·)) :
          y.2.line = lineAt (before ++ (written (.directive d body) ++ rest)) line y.1 := by
        obtain ⟨i, hi, rfl⟩ := List.mem_map.1 hy
        rw [hopened]
        exact line_of_mem_core hi
      split at hy
      · exact hcore hy
      · rw [List.mem_append, List.mem_append] at hy
        rcases hy with (hy | hy) | hy
        · obtain ⟨i, hi, rfl⟩ := List.mem_map.1 hy
          rw [lineAt_append_left, ← hline]
          exact line_of_mem_ofSpace hi
        · exact hcore hy
        · obtain ⟨i, hi, rfl⟩ := List.mem_map.1 hy
          rw [hclosed]
          exact line_of_mem_ofSpace hi

/-- The instructions of parts in a row behind a text are on the lines of their places. -/
theorem line_of_mem_issuedAll {parts : List Part} (h : FitAll (line + Text.breaks before) parts)
    {y : Nat × Instruction} (hy : y ∈ issuedAll before.length parts) :
    y.2.line = lineAt (before ++ parts.flatMap written) line y.1 := by
  induction parts generalizing before with
  | nil => exact absurd hy List.not_mem_nil
  | cons x parts ih =>
      obtain ⟨hx, hparts⟩ := h
      rw [issuedAll] at hy
      rw [List.flatMap_cons]
      rcases List.mem_append.1 hy with hy | hy
      · exact line_of_mem_issued hx _ hy
      · have hbreaks : line + (Text.breaks before : Int) + Text.breaks x.written =
            line + Text.breaks (before ++ x.written) := by
          rw [Text.breaks, Text.breaks, Text.breaks, List.count_append]
          omega
        rw [hbreaks] at hparts
        rw [← List.length_append] at hy
        rw [← List.append_assoc]
        exact ih hparts hy

end Part

/-! ## Texts that are put out -/

/-- The text that an instruction puts out as it is. -/
def Instruction.literalText : Instruction → Text
  | .emitText t _ => t
  | .emitExpr .. | .runStatement .. => []

namespace Part

/-- The instruction for white space puts it out. -/
theorem literalText_ofSpace (space : Option Text) (line : Int) :
    (Instruction.ofSpace space line).flatMap Instruction.literalText = space.getD [] := by
  obtain ⟨h, hnil⟩ | ⟨h, -⟩ := ofSpace_eq space line
  · rw [h, hnil]
    rfl
  · rw [h]
    exact List.append_nil _

/-- The instructions of a part put out what is kept of it. -/
theorem literalText_instructions {line : Int} {x : Part} (h : x.Fits line) :
    x.segment.instructions.flatMap Instruction.literalText = x.kept := by
  cases x with
  | text t l => simp [segment, Segment.instructions, Instruction.literalText, kept]
  | directive d body =>
      have hbreaks : Text.breaks d.code = Text.breaks body := by
        rw [h.2.1]
        exact Segment.breaks_codeOf body
      have hremark : d.kind = .comment →
          d.core.flatMap Instruction.literalText = List.replicate (Text.breaks body) '\n' := by
        intro hkind
        rw [Directive.core, hkind, ← hbreaks]
        dsimp only
        split
        · next hzero => rw [hzero]; rfl
        · simp [Instruction.literalText]
      rw [segment, Segment.instructions, Directive.instructions, Directive.trims]
      cases hkind : d.kind with
      | statement =>
          have hcore : d.core.flatMap Instruction.literalText = [] := by
            rw [Directive.core, hkind]
            rfl
          cases hown : d.ownsLine <;> simp [kept, hkind, hown, hcore, literalText_ofSpace]
      | escapedExpr | rawExpr =>
          have hcore : d.core.flatMap Instruction.literalText = [] := by
            rw [Directive.core, hkind]
            rfl
          simp [kept, hkind, hcore, literalText_ofSpace]
      | comment => simp [kept, hkind, hremark hkind, literalText_ofSpace]

/-- The instructions of parts in a row put out what is kept of them. -/
theorem literalText_ofSegments {line : Int} {parts : List Part} (h : FitAll line parts) :
    (Instruction.ofSegments (parts.map segment)).flatMap Instruction.literalText = parts.flatMap kept := by
  induction parts generalizing line with
  | nil => rfl
  | cons x parts ih =>
      obtain ⟨hx, hparts⟩ := h
      have hrest := ih hparts
      rw [Instruction.ofSegments] at hrest ⊢
      rw [List.map_cons, List.flatMap_cons, List.flatMap_append, List.flatMap_cons, hrest,
        literalText_instructions hx]

end Part

/-! ## The parts of a template -/

namespace Part

/-- The parts for a literal. -/
theorem exists_literalOf (t : Text) (line : Int) : ∃ parts : List Part, parts.flatMap written = t ∧
    parts.map segment = literalOf t line ∧
      ∀ rest, FitAll (line + Text.breaks t) rest → FitAll line (parts ++ rest) := by
  rw [literalOf]
  split
  · next ht =>
      refine ⟨[], (List.isEmpty_iff.1 ht).symm, rfl, fun rest hrest => ?_⟩
      rw [List.isEmpty_iff.1 ht] at hrest
      simpa [Text.breaks] using hrest
  · next ht => exact ⟨[.text t line], by simp [written], rfl, fun rest hrest =>
      ⟨⟨by simpa using ht, rfl⟩, hrest⟩⟩

/-- A text is made of the parts that the scan reads. -/
theorem exists_scanFrom {fuel : Nat} {fresh : Bool} {line : Int} {t : Text} (hfuel : t.length < fuel) :
    ∃ parts : List Part, parts.flatMap written = t ∧ parts.map segment = scanFrom fuel fresh line t ∧
      FitAll line parts := by
  induction fuel generalizing fresh line t with
  | zero => exact absurd hfuel (Nat.not_lt_zero _)
  | succ fuel ih =>
      cases hfind : find? fresh t with
      | none =>
          rw [Segment.scanFrom_of_none hfind]
          obtain ⟨parts, hwritten, hsegments, hfit⟩ := exists_literalOf t line
          exact ⟨parts, hwritten, hsegments, List.append_nil parts ▸ hfit [] trivial⟩
      | some f =>
          have hlt := Segment.length_rest_lt hfind
          obtain ⟨before, hbefore, hbefore', hfit⟩ := exists_literalOf f.before line
          obtain ⟨rest, hrest, hrest', hfit'⟩ : ∃ parts : List Part, parts.flatMap written = f.rest ∧
              parts.map segment = scanFrom fuel f.rspace.isSome (line + Text.breaks f.before + f.breaks) f.rest ∧
              FitAll (line + Text.breaks f.before + f.breaks) parts := ih (by omega)
          have hfound : written (.directive
              ⟨f.kind, codeOf f.body, f.lspace, f.rspace, line + Text.breaks f.before⟩ f.body) = f.text := by
            simp [written, bracket, Segment.Found.text]
          have hspace : Text.breaks (f.lspace.getD []) = 0 := by
            obtain ⟨b, after, -, -, -, -, hspace, -⟩ := Segment.find?_eq_some hfind
            rw [← hspace]
            exact Segment.breaks_indentation? fresh b
          refine ⟨before ++ .directive
            ⟨f.kind, codeOf f.body, f.lspace, f.rspace, line + Text.breaks f.before⟩ f.body :: rest,
            ?_, ?_, hfit _ ⟨⟨rfl, rfl, hspace⟩, ?_⟩⟩
          · rw [List.flatMap_append, List.flatMap_cons, hbefore, hrest, hfound]
            exact (Segment.find?_append hfind).symm
          · rw [Segment.scanFrom_of_find? hfind, List.map_append, List.map_cons, hbefore', hrest']
            rfl
          · rwa [hfound, Segment.breaks_text hfind]

end Part

/-- Parts that the scan reads are read on some lines. -/
theorem Part.FitAll.exists_fits {line : Int} {parts : List Part} (h : FitAll line parts) {x : Part}
    (hx : x ∈ parts) : ∃ l, x.Fits l := by
  induction parts generalizing line with
  | nil => exact absurd hx List.not_mem_nil
  | cons y parts ih =>
      rcases List.mem_cons.1 hx with rfl | hx
      · exact ⟨line, h.1⟩
      · exact ih h.2 hx

end Stencil
