import Stencil.Instruction.Basic
import Stencil.Proofs.Segment.Positions
import Stencil.Proofs.Segment.Printing

/-!
# Texts and remarks

A template without code is made of texts and of remarks. Its instructions put out the texts, and of each
remark the line breaks that it holds (`exists_texts_ofSegments`). What is put out for a piece of the
template has the line breaks of the piece (`Piece.breaks_rendered`), so texts stay on their lines.
-/

namespace Stencil.Remark

/-- What opens a remark. -/
def openMark : Text := ['<', '%', '#']

/-- A piece of a template without code. -/
inductive Piece where
  | text (t : Text)
  /-- A remark, given by what stands between its marks. -/
  | remark (body : Text)
  deriving Repr, DecidableEq

namespace Piece

/-- How a piece is written. -/
def written : Piece → Text
  | text t => t
  | remark body => openMark ++ (body ++ Segment.closeMark)

/-- What is put out for a piece: a text as it is, and a remark as its line breaks. -/
def rendered : Piece → Text
  | text t => t
  | remark body => List.replicate (Text.breaks body) '\n'

/-- What is put out for a piece has the line breaks of the piece. -/
theorem breaks_rendered (p : Piece) : Text.breaks p.rendered = Text.breaks p.written := by
  cases p with
  | text t => rfl
  | remark body =>
      have hopen : Text.breaks openMark = 0 := rfl
      have hclose : Text.breaks Segment.closeMark = 0 := rfl
      unfold Text.breaks at hopen hclose
      simp [rendered, written, Text.breaks, hopen, hclose]

end Piece

/-- What is put out for pieces has their line breaks. -/
theorem breaks_rendered_all (ps : List Piece) :
    Text.breaks (ps.flatMap Piece.rendered) = Text.breaks (ps.flatMap Piece.written) := by
  induction ps with
  | nil => rfl
  | cons p ps ih =>
      have hp := p.breaks_rendered
      unfold Text.breaks at hp ih ⊢
      rw [List.flatMap_cons, List.flatMap_cons, List.count_append, List.count_append, hp, ih]

/-! ## Splitting -/

/-- The first remark of a text that is closed: the text before it, what stands between its marks, and the
text behind it. -/
def first? (t : Text) : Option (Text × Text × Text) :=
  (Text.cutAt? openMark t).bind fun (before, opened) =>
    (Text.cutAt? Segment.closeMark opened).map fun (body, rest) => (before, body, rest)

/-- The first remark is part of the text. -/
theorem first?_eq_some {t before body rest : Text} (h : first? t = some (before, body, rest)) :
    t = before ++ ((Piece.remark body).written ++ rest) := by
  rw [first?, Option.bind_eq_some_iff] at h
  obtain ⟨⟨b, opened⟩, hopen, h⟩ := h
  obtain ⟨⟨c, r⟩, hclose, hx⟩ := Option.map_eq_some_iff.1 h
  cases hx
  rw [(Text.cutAt?_eq_some hopen).1, (Text.cutAt?_eq_some hclose).1]
  simp [Piece.written]

/-- What is behind the first remark is shorter than the text. -/
theorem length_lt_of_first? {t before body rest : Text} (h : first? t = some (before, body, rest)) :
    rest.length < t.length := by
  rw [first?_eq_some h]
  simp only [Piece.written, openMark, List.length_append, List.length_cons]
  omega

/-- The pieces of a template: the texts between its remarks, and these. -/
def pieces (t : Text) : List Piece :=
  match _h : first? t with
  | none => [.text t]
  | some (before, body, rest) => .text before :: .remark body :: pieces rest
termination_by t.length
decreasing_by exact length_lt_of_first? ‹_›

/-- A text without a remark is a single piece. -/
theorem pieces_of_none {t : Text} (h : first? t = none) : pieces t = [.text t] := by
  rw [pieces]
  split
  · rfl
  · next hsome => cases h.symm.trans hsome

/-- A text is split at its first remark. -/
theorem pieces_of_some {t before body rest : Text} (h : first? t = some (before, body, rest)) :
    pieces t = .text before :: .remark body :: pieces rest := by
  rw [pieces]
  split
  · next hnone => cases h.symm.trans hnone
  · next hsome =>
      cases h.symm.trans hsome
      rfl

/-- The pieces of a template make it up. -/
theorem written_pieces (t : Text) : (pieces t).flatMap Piece.written = t := by
  fun_induction pieces t with
  | case1 t h => simp [Piece.written]
  | case2 t before body rest h ih =>
      rw [List.flatMap_cons, List.flatMap_cons, ih]
      exact (first?_eq_some h).symm

/-- A template with its remarks reduced to line breaks. -/
def reduced (t : Text) : Text :=
  (pieces t).flatMap Piece.rendered

/-- A template without a remark stays as it is. -/
theorem reduced_of_none {t : Text} (h : first? t = none) : reduced t = t := by
  rw [reduced, pieces_of_none h]
  exact List.append_nil t

/-- The first remark of a template is reduced, and then the rest. -/
theorem reduced_of_some {t before body rest : Text} (h : first? t = some (before, body, rest)) :
    reduced t = before ++ (List.replicate (Text.breaks body) '\n' ++ reduced rest) := by
  rw [reduced, pieces_of_some h, List.flatMap_cons, List.flatMap_cons]
  rfl

/-- Text that holds no mark is kept in front of a template. -/
theorem reduced_append {e : Text} (he : '<' ∉ e) (r : Text) : reduced (e ++ r) = e ++ reduced r := by
  -- the first remark of the whole is that of the rest, further on
  have hfirst : first? (e ++ r) = (first? r).map fun x => (e ++ x.1, x.2) := by
    have hcut : Text.cutAt? openMark (e ++ r) = (Text.cutAt? openMark r).map fun x => (e ++ x.1, x.2) := by
      induction e with
      | nil =>
          rw [List.nil_append]
          cases Text.cutAt? openMark r <;> rfl
      | cons c e ih =>
          have hc : ¬ openMark <+: c :: (e ++ r) := fun hp =>
            he (by rw [(List.cons_prefix_cons.1 hp).1]; exact List.mem_cons_self)
          rw [List.cons_append, Text.cutAt?_cons hc, ih fun hmem => he (List.mem_cons_of_mem _ hmem)]
          cases Text.cutAt? openMark r <;> rfl
    rw [first?, hcut, first?]
    cases Text.cutAt? openMark r with
    | none => rfl
    | some x =>
        dsimp only [Option.map_some, Option.bind_some]
        cases Text.cutAt? Segment.closeMark x.2 <;> rfl
  cases h : first? r with
  | none =>
      rw [h] at hfirst
      rw [reduced_of_none h, reduced_of_none hfirst]
  | some x =>
      obtain ⟨before, body, rest⟩ := x
      rw [h] at hfirst
      rw [reduced_of_some h, reduced_of_some hfirst, List.append_assoc]

/-! ## Scanning -/

open Segment (find? scanFrom scan)

/-- Where the scan finds no directive there is no remark. -/
theorem first?_of_find?_none {fresh : Bool} {t : Text} (h : find? fresh t = none) : first? t = none := by
  cases hfirst : first? t with
  | none => rfl
  | some x =>
      obtain ⟨before, body, rest⟩ := x
      have hopens : Segment.OpensAt t before.length := by
        rw [first?_eq_some hfirst]
        refine ⟨⟨'#' :: (body ++ (Segment.closeMark ++ rest)), ?_⟩, (before ++ (openMark ++ body)).length,
          ?_, ⟨rest, ?_⟩⟩
        · rw [List.drop_left]
          simp [Piece.written, openMark, Segment.openMark]
        · simp only [List.length_append, openMark, Segment.openMark, List.length_cons, List.length_nil]
          omega
        · have hsplit : before ++ ((Piece.remark body).written ++ rest) =
              before ++ (openMark ++ body) ++ (Segment.closeMark ++ rest) := by
            simp [Piece.written]
          rw [hsplit, List.drop_left]
      have hnone : find? fresh (t.drop 0) = none := h
      exact absurd hopens (Segment.not_opensAt hnone (Nat.zero_le _))

/-- A remark that the scan finds is the first one. -/
theorem first?_of_find? {fresh : Bool} {t : Text} {f : Segment.Found} (h : find? fresh t = some f)
    (hkind : f.kind = .comment) :
    first? t = some (f.before ++ f.lspace.getD [], f.body, f.rspace.getD [] ++ f.rest) := by
  obtain ⟨b, after, hsplit, hopen, hclose, hb, -, -, hafter⟩ := Segment.find?_eq_some h
  have hsplit : t = b ++ (openMark ++ (f.body ++ (Segment.closeMark ++ after))) := by
    rw [hsplit, hkind]
    rfl
  have hcut : Text.cutAt? openMark t = some (b, f.body ++ (Segment.closeMark ++ after)) := by
    rw [hsplit]
    refine Text.cutAt?_append _ fun k hk hp => ?_
    rw [← hsplit] at hp
    exact hopen k hk (List.IsPrefix.trans ⟨['#'], rfl⟩ hp)
  rw [first?, hcut, Option.bind_some]
  dsimp only
  rw [Text.cutAt?_append after hclose, ← hb, ← hafter]
  rfl

/-- Where the scan gives no directive the template stays as it is. -/
theorem reduced_of_scan {source : Text} {line : Int}
    (h : ∀ d, Segment.directive d ∉ scan source line) : reduced source = source := by
  cases hfind : find? true source with
  | none => exact reduced_of_none (first?_of_find?_none hfind)
  | some f =>
      rw [scan, Segment.scanFrom_of_find? hfind] at h
      exact absurd (List.mem_append_right _ List.mem_cons_self) (h _)

/-- The texts that instructions for white space put out. -/
theorem exists_texts_ofSpace (space : Option Text) (line : Int) : ∃ ts : List (Text × Int),
    Instruction.ofSpace space line = ts.map (fun x => .emitText x.1 x.2) ∧
      ts.flatMap (·.1) = space.getD [] := by
  fun_cases Instruction.ofSpace space line with
  | case1 | case2 => exact ⟨[], rfl, rfl⟩
  | case3 t _ => exact ⟨[(t, line)], rfl, by simp⟩

/-- The texts that a remark puts out: the white space around it, and its line breaks. -/
theorem exists_texts_remark {d : Directive} (h : d.kind = .comment) : ∃ ts : List (Text × Int),
    d.instructions = ts.map (fun x => .emitText x.1 x.2) ∧ ts.flatMap (·.1) =
      d.lspace.getD [] ++ (List.replicate (Text.breaks d.code) '\n' ++ d.rspace.getD []) := by
  obtain ⟨before, hbefore, hbefore'⟩ := exists_texts_ofSpace d.lspace d.line
  obtain ⟨behind, hbehind, hbehind'⟩ := exists_texts_ofSpace d.rspace (d.line + Text.breaks d.code)
  obtain ⟨core, hcore, hcore'⟩ : ∃ ts : List (Text × Int),
      d.core = ts.map (fun x => .emitText x.1 x.2) ∧
        ts.flatMap (·.1) = List.replicate (Text.breaks d.code) '\n' := by
    rw [Directive.core, h]
    dsimp only
    split
    · next hzero => exact ⟨[], rfl, by rw [hzero]; rfl⟩
    · exact ⟨[(_, d.line)], rfl, by simp⟩
  have htrims : d.trims = false := by
    rw [Directive.trims, h]
    rfl
  refine ⟨before ++ core ++ behind, ?_, ?_⟩
  · rw [Directive.instructions, htrims, if_neg Bool.false_ne_true, hbefore, hcore, hbehind,
      List.map_append, List.map_append]
  · rw [List.flatMap_append, List.flatMap_append, hbefore', hcore', hbehind', List.append_assoc]

/-- The texts that a literal puts out. -/
theorem exists_texts_literalOf (t : Text) (line : Int) : ∃ ts : List (Text × Int),
    Instruction.ofSegments (Segment.literalOf t line) = ts.map (fun x => .emitText x.1 x.2) ∧
      ts.flatMap (·.1) = t := by
  rw [Segment.literalOf]
  split
  · next ht => exact ⟨[], rfl, (List.isEmpty_iff.1 ht).symm⟩
  · exact ⟨[(t, line)], rfl, by simp⟩

/-- The instructions of segments without code put out the template with its remarks reduced. -/
theorem exists_texts_scanFrom {fuel : Nat} {fresh : Bool} {line : Int} {t : Text} (hfuel : t.length < fuel)
    (h : ∀ d, Segment.directive d ∈ scanFrom fuel fresh line t → d.kind = .comment) :
    ∃ ts : List (Text × Int),
      Instruction.ofSegments (scanFrom fuel fresh line t) = ts.map (fun x => .emitText x.1 x.2) ∧
        ts.flatMap (·.1) = reduced t := by
  induction fuel generalizing fresh line t with
  | zero => exact absurd hfuel (Nat.not_lt_zero _)
  | succ fuel ih =>
      cases hfind : find? fresh t with
      | none =>
          rw [Segment.scanFrom_of_none hfind, reduced_of_none (first?_of_find?_none hfind)]
          exact exists_texts_literalOf t line
      | some f =>
          rw [Segment.scanFrom_of_find? hfind] at h ⊢
          have hkind : f.kind = .comment :=
            h ⟨f.kind, Segment.codeOf f.body, f.lspace, f.rspace, line + Text.breaks f.before⟩
              (List.mem_append_right _ List.mem_cons_self)
          have hlt := Segment.length_rest_lt hfind
          obtain ⟨rest, hrest, hrest'⟩ := ih (by omega)
            fun d hd => h d (List.mem_append_right _ (List.mem_cons_of_mem _ hd))
          obtain ⟨before, hbefore, hbefore'⟩ := exists_texts_literalOf f.before line
          obtain ⟨found, hfound, hfound'⟩ := exists_texts_remark
            (d := ⟨f.kind, Segment.codeOf f.body, f.lspace, f.rspace, line + Text.breaks f.before⟩) hkind
          -- the end of the remark's line holds no mark, so it may be split off the rest
          have hend : reduced (f.rspace.getD [] ++ f.rest) = f.rspace.getD [] ++ reduced f.rest := by
            refine reduced_append ?_ f.rest
            obtain ⟨b, after, -, -, -, -, -, hspace, -⟩ := Segment.find?_eq_some hfind
            cases hr : f.rspace with
            | none => exact List.not_mem_nil
            | some e =>
                exact (Segment.isLineEnd_of_lineEnd? (hspace.trans hr)).1.bracket_not_mem
          refine ⟨before ++ (found ++ rest), ?_, ?_⟩
          · rw [List.map_append, List.map_append, ← hbefore, ← hfound, ← hrest]
            simp only [Instruction.ofSegments, List.flatMap_append, List.flatMap_cons]
            rfl
          · rw [List.flatMap_append, List.flatMap_append, hbefore', hfound', hrest',
              reduced_of_some (first?_of_find? hfind hkind), hend]
            dsimp only
            rw [Segment.breaks_codeOf]
            simp only [List.append_assoc]

/-- The instructions of a template without code put it out with its remarks reduced. -/
theorem exists_texts_ofSegments {source : Text} {line : Int}
    (h : ∀ d, Segment.directive d ∈ scan source line → d.kind = .comment) : ∃ ts : List (Text × Int),
      Instruction.ofSegments (scan source line) = ts.map (fun x => .emitText x.1 x.2) ∧
        ts.flatMap (·.1) = reduced source :=
  exists_texts_scanFrom (Nat.lt_succ_self _) h

end Stencil.Remark
