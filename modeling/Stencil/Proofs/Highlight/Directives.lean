import Stencil.Proofs.Highlight.Rules
import Stencil.Proofs.Segment.Printing

/-!
# The highlighter and the scan see the same directives

The scan looks for the leftmost directive and reads white space off around it; the highlighter goes from
place to place and takes a bracket that opens nothing for text. Both are compared with the directives
that are opened at the places of a text, taken one after the other (`Finds`): the tokens of the
highlighter stand for them (`Reads`), and so do the segments of the scan (`Places`).
-/

namespace Stencil.Highlight

open Segment (openMark closeMark bracketAt? takeKind scanFrom scan codeOf)

/-- A directive in a text: the place of its opening bracket, its kind, and all that stands between its
marker and its closing bracket. -/
structure Bracketed where
  place : Nat
  kind : DirectiveKind
  body : Text

/-- The text of a directive from bracket to bracket. -/
def Bracketed.text (b : Bracketed) : Text :=
  openMark ++ (b.kind.mark ++ (b.body ++ closeMark))

/-- The kind of the token for what stands in a directive. -/
def bodyKind : DirectiveKind → Kind
  | .comment => .comment
  | _ => .code

/-- The tokens of a directive: its marker, what stands in it unless that is nothing, and its closing
bracket. -/
def Bracketed.tokens (b : Bracketed) : List Piece :=
  [⟨.marker, openMark ++ b.kind.mark⟩, ⟨bodyKind b.kind, b.body⟩, ⟨.marker, closeMark⟩].filter Piece.shows

/-- Tokens from a place on that stand for directives, all others being other text. -/
inductive Reads : Nat → List Piece → List Bracketed → Prop where
  | nil (p : Nat) : Reads p [] []
  | other {p : Nat} {t : Text} {ps : List Piece} {bs : List Bracketed} (ht : t ≠ [])
      (hrest : Reads (p + t.length) ps bs) : Reads p (⟨.other, t⟩ :: ps) bs
  | directive {p : Nat} {b : Bracketed} {ps : List Piece} {bs : List Bracketed} (hp : b.place = p)
      (hrest : Reads (p + b.text.length) ps bs) : Reads p (b.tokens ++ ps) (b :: bs)

/-- Segments of a text from a place on that stand for directives, all others being literals. The code of a
directive is what stands in it less a space at each end, and the white space that belongs to its line
stands around it. -/
inductive Places (t : Text) : Nat → List Segment → List Bracketed → Prop where
  | nil {p : Nat} (hp : t.drop p = []) : Places t p [] []
  | literal {p : Nat} {u : Text} {line : Int} {ss : List Segment} {bs : List Bracketed}
      (hu : u <+: t.drop p) (hrest : Places t (p + u.length) ss bs) :
      Places t p (.literal u line :: ss) bs
  | directive {p : Nat} {d : Directive} {b : Bracketed} {ss : List Segment} {bs : List Bracketed}
      (htext : d.lspace.getD [] ++ (b.text ++ d.rspace.getD []) <+: t.drop p)
      (hplace : b.place = p + (d.lspace.getD []).length)
      (hkind : d.kind = b.kind) (hcode : d.code = codeOf b.body)
      (hrest : Places t (b.place + b.text.length + (d.rspace.getD []).length) ss bs) :
      Places t p (.directive d :: ss) (b :: bs)

/-- The directives that are opened in a text, from a place on: one after the other, each at the first place
at which it can be opened. -/
inductive Finds : Nat → Text → List Bracketed → Prop where
  | nil (p : Nat) : Finds p [] []
  | skip {p : Nat} {c : Char} {r : Text} {bs : List Bracketed} (h : bracketAt? (c :: r) = none)
      (hrest : Finds (p + 1) r bs) : Finds p (c :: r) bs
  | found {p : Nat} {b : Bracketed} {t after : Text} {bs : List Bracketed} (hp : b.place = p)
      (h : bracketAt? t = some (b.kind, b.body, after))
      (hrest : Finds (p + b.text.length) after bs) : Finds p t (b :: bs)

/-- Only one list of directives is opened in a text. -/
theorem Finds.unique {p : Nat} {t : Text} {bs cs : List Bracketed} (h : Finds p t bs)
    (h' : Finds p t cs) : bs = cs := by
  induction h generalizing cs with
  | nil p =>
      cases h' with
      | nil => rfl
      | found _ h => cases h
  | skip hnone _ ih =>
      cases h' with
      | skip _ hrest => exact ih hrest
      | found _ h => cases hnone.symm.trans h
  | @found _ b _ _ _ hp h _ ih =>
      cases h' with
      | nil => cases h
      | skip hnone _ => cases hnone.symm.trans h
      | @found _ b' _ _ _ hp' h' hrest =>
          obtain ⟨place, kind, body⟩ := b
          obtain ⟨place', kind', body'⟩ := b'
          cases h.symm.trans h'
          obtain rfl : place = place' := hp.trans hp'.symm
          rw [ih hrest]

/-- A text in front in which no directive is opened is passed over. -/
theorem Finds.append {p : Nat} {a r : Text} {bs : List Bracketed}
    (h : ∀ k < a.length, bracketAt? ((a ++ r).drop k) = none) (hr : Finds (p + a.length) r bs) :
    Finds p (a ++ r) bs := by
  induction a generalizing p with
  | nil => exact hr
  | cons c a ih =>
      refine .skip (h 0 (Nat.succ_pos _)) (ih (fun k hk => h (k + 1) (Nat.succ_lt_succ hk)) ?_)
      rwa [List.length_cons, Nat.add_comm a.length, ← Nat.add_assoc] at hr

/-- No directive is opened where no bracket stands. -/
theorem bracketAt?_of_not_openMark {t : Text} (h : ¬ openMark <+: t) : bracketAt? t = none :=
  if_neg h

/-- No directive is opened within a text in which the character that opens one does not stand. -/
theorem bracketAt?_drop_append {a : Text} (ha : '<' ∉ a) (r : Text) {k : Nat} (hk : k < a.length) :
    bracketAt? ((a ++ r).drop k) = none := by
  refine bracketAt?_of_not_openMark fun hopen => ha ?_
  rw [List.drop_append_of_le_length (Nat.le_of_lt hk), List.drop_eq_getElem_cons hk] at hopen
  rw [(List.cons_prefix_cons.1 hopen).1]
  exact List.getElem_mem hk

/-- A directive that is opened stands in the text. -/
theorem Bracketed.eq_text_append {b : Bracketed} {t after : Text}
    (h : bracketAt? t = some (b.kind, b.body, after)) : t = b.text ++ after := by
  rw [Segment.bracketAt?_eq_some h, Bracketed.text]
  simp only [List.append_assoc]

/-- There is something between the brackets of a directive and around it. -/
theorem Bracketed.length_text_pos (b : Bracketed) : 0 < b.text.length := by
  rw [Bracketed.text, List.length_append]
  exact Nat.add_pos_left (by decide) _

/-- A directive is opened only where an opening bracket stands and a closing one behind it. -/
theorem opensAt_of_bracketAt? {t : Text} {i : Nat} {x : DirectiveKind × Text × Text}
    (h : bracketAt? (t.drop i) = some x) : Segment.OpensAt t i := by
  obtain ⟨kind, body, after⟩ := x
  have htext := Segment.bracketAt?_eq_some h
  refine ⟨htext ▸ List.prefix_append _ _, i + (openMark ++ (kind.mark ++ body)).length, ?_, ?_⟩
  · rw [List.length_append]
    omega
  · have hsplit : t.drop i = (openMark ++ (kind.mark ++ body)) ++ (closeMark ++ after) := by
      rw [htext]
      simp only [List.append_assoc]
    rw [← List.drop_drop, hsplit, List.drop_left]
    exact List.prefix_append _ _

/-- Where no directive can be opened there is none. -/
theorem Finds.of_not_opensAt {p : Nat} {t : Text} (h : ∀ i, ¬ Segment.OpensAt t i) : Finds p t [] := by
  have happend : Finds p (t ++ []) [] := by
    refine .append (fun k _ => ?_) (.nil _)
    rw [List.append_nil]
    cases hb : bracketAt? (t.drop k) with
    | none => rfl
    | some x => exact absurd (opensAt_of_bracketAt? hb) (h k)
  rwa [List.append_nil] at happend

/-! ## The highlighter -/

/-- What the highlighter takes for a directive is a directive that is opened there. -/
theorem directive?_eq (t : Text) :
    directive? t = (bracketAt? t).map fun x => (openMark ++ x.1.mark, x.2.1, x.2.2) := by
  unfold directive?
  split
  · next r =>
      rw [bracketAt?, if_pos ⟨'#' :: r, rfl⟩, Option.map_map]
      rfl
  · next r =>
      rw [bracketAt?, if_pos ⟨'=' :: '=' :: r, rfl⟩, Option.map_map]
      rfl
  · next r hr =>
      have hkind : takeKind ('=' :: r) = (.escapedExpr, r) := by
        rw [takeKind]
        exact fun r' hr' => hr r' (by rw [hr'])
      rw [bracketAt?, if_pos ⟨'=' :: r, rfl⟩, Option.map_map]
      show _ = Option.map _ (Text.cutAt? closeMark (takeKind ('=' :: r)).2)
      rw [show List.drop openMark.length ('<' :: '%' :: '=' :: r) = '=' :: r from rfl, hkind]
      rfl
  · next r hremark hraw hescaped =>
      have hkind : takeKind r = (.statement, r) := by
        fun_cases takeKind r with
        | case1 r' => exact absurd rfl (hraw r')
        | case2 r' _ => exact absurd rfl (hescaped r')
        | case3 r' => exact absurd rfl (hremark r')
        | case4 => rfl
      rw [bracketAt?, if_pos ⟨r, rfl⟩, Option.map_map]
      show _ = Option.map _ (Text.cutAt? closeMark (takeKind r).2)
      rw [show List.drop openMark.length ('<' :: '%' :: r) = r from rfl, hkind]
      rfl
  · next h =>
      have hopen : ¬ openMark <+: t := by
        rintro ⟨u, hu⟩
        exact h u hu.symm
      rw [bracketAt?_of_not_openMark hopen]
      rfl

/-- The tokens of a directive as the highlighter reads it off. -/
theorem tokens_eq (p : Nat) (kind : DirectiveKind) (body : Text) :
    Bracketed.tokens ⟨p, kind, body⟩ =
      [⟨.marker, openMark ++ kind.mark⟩,
        ⟨if openMark ++ kind.mark == ['<', '%', '#'] then .comment else .code, body⟩,
        ⟨.marker, closeMark⟩].filter Piece.shows := by
  cases kind <;> rfl

/-- The pieces of a text make it up, and they stand for the directives that are opened in it. -/
theorem exists_finds_piecesFrom {fuel p : Nat} {t : Text} (hfuel : t.length < fuel) :
    (piecesFrom fuel t).flatMap Piece.text = t ∧
      ∃ bs, Finds p t bs ∧ Reads p ((piecesFrom fuel t).filter Piece.shows) bs := by
  induction fuel generalizing p t with
  | zero => exact absurd hfuel (Nat.not_lt_zero _)
  | succ fuel ih =>
      rcases t with _ | ⟨c, r⟩
      · exact ⟨rfl, [], .nil p, .nil p⟩
      · rw [piecesFrom, directive?_eq]
        cases hb : bracketAt? (c :: r) with
        | some x =>
            obtain ⟨kind, body, after⟩ := x
            have htext := Bracketed.eq_text_append (b := ⟨p, kind, body⟩) hb
            have hlength := congrArg List.length htext
            rw [List.length_append] at hlength
            have hpos := Bracketed.length_text_pos ⟨p, kind, body⟩
            obtain ⟨hafter, bs, hfinds, hreads⟩ :=
              ih (p := p + (Bracketed.text ⟨p, kind, body⟩).length) (t := after) (by omega)
            refine ⟨?_, ⟨p, kind, body⟩ :: bs, .found rfl hb hfinds, ?_⟩
            · simp only [Option.map_some, List.flatMap_cons, hafter]
              rw [htext, Bracketed.text]
              simp only [List.append_assoc]
            · show Reads p (List.filter Piece.shows ([_, _, _] ++ piecesFrom fuel after)) _
              rw [List.filter_append]
              exact tokens_eq p kind body ▸ Reads.directive (b := ⟨p, kind, body⟩) rfl hreads
        | none =>
            dsimp only [Option.map_none]
            split
            · obtain ⟨hr, bs, hfinds, hreads⟩ := ih (p := p + 1) (t := r) (Nat.lt_of_succ_lt_succ hfuel)
              refine ⟨?_, bs, .skip hb hfinds, .other (List.cons_ne_nil _ _) hreads⟩
              rw [List.flatMap_cons, hr]
              rfl
            · next hc =>
                have hsplit := List.takeWhile_append_dropWhile (p := (· ≠ '<')) (l := c :: r)
                have hrun : (c :: r).takeWhile (· ≠ '<') ≠ [] := by
                  rw [List.takeWhile_cons_of_pos (p := (· ≠ '<')) (decide_eq_true hc)]
                  exact List.cons_ne_nil _ _
                have hfree : '<' ∉ (c :: r).takeWhile (· ≠ '<') := fun hmem =>
                  absurd (List.all_eq_true.1 List.all_takeWhile _ hmem) (by decide)
                rw [Segment.drop_length_takeWhile]
                generalize (c :: r).takeWhile (· ≠ '<') = run at hsplit hrun hfree ⊢
                generalize (c :: r).dropWhile (· ≠ '<') = rest at hsplit ⊢
                have hlength := congrArg List.length hsplit
                rw [List.length_append] at hlength
                have hpos := List.length_pos_iff.2 hrun
                obtain ⟨hrest, bs, hfinds, hreads⟩ := ih (p := p + run.length) (t := rest) (by omega)
                refine ⟨?_, bs, ?_, ?_⟩
                · rw [List.flatMap_cons, hrest]
                  exact hsplit
                · rw [← hsplit]
                  exact .append (fun _ hk => bracketAt?_drop_append hfree rest hk) hfinds
                · have hshows : Piece.shows ⟨.other, run⟩ = true := by
                    simpa [Piece.shows] using hrun
                  rw [List.filter_cons_of_pos hshows]
                  exact .other hrun hreads

/-! ### Joining tokens -/

/-- A marker is not joined with what follows. -/
theorem join_marker {t : Text} (ht : t ≠ []) (ps : List Piece) :
    join (⟨.marker, t⟩ :: ps) = ⟨.marker, t⟩ :: join ps := by
  have hempty : ¬ t.isEmpty := by simpa using ht
  rw [join, if_neg hempty]
  cases join ps with
  | nil => rfl
  | cons q ps' =>
      dsimp only
      rw [if_neg (by simp)]

/-- What stands in front of a marker is not joined with it. -/
theorem join_before_marker {kind : Kind} (hkind : kind ≠ .marker) {t u : Text} (ht : t ≠ [])
    (hu : u ≠ []) (ps : List Piece) :
    join (⟨kind, t⟩ :: ⟨.marker, u⟩ :: ps) = ⟨kind, t⟩ :: ⟨.marker, u⟩ :: join ps := by
  have hempty : ¬ t.isEmpty := by simpa using ht
  rw [join, if_neg hempty, join_marker hu]
  dsimp only
  rw [if_neg (by simp [hkind])]

/-- The tokens of a directive are joined with nothing. -/
theorem join_tokens (b : Bracketed) (ps : List Piece) : join (b.tokens ++ ps) = b.tokens ++ join ps := by
  obtain ⟨p, kind, body⟩ := b
  have hmark : openMark ++ kind.mark ≠ [] := by cases kind <;> exact List.cons_ne_nil _ _
  have hopens : Piece.shows ⟨.marker, openMark ++ kind.mark⟩ = true := by cases kind <;> rfl
  have hclose : closeMark ≠ [] := List.cons_ne_nil _ _
  have hkind : bodyKind kind ≠ .marker := by cases kind <;> decide
  rw [Bracketed.tokens, List.filter_cons_of_pos hopens]
  by_cases hbody : body = []
  · subst hbody
    show join (⟨.marker, openMark ++ kind.mark⟩ :: ⟨.marker, closeMark⟩ :: ps) = _
    rw [join_marker hmark, join_marker hclose]
    rfl
  · have hshows : Piece.shows ⟨bodyKind kind, body⟩ = true := by simpa [Piece.shows] using hbody
    rw [List.filter_cons_of_pos hshows]
    show join (⟨.marker, openMark ++ kind.mark⟩ :: ⟨bodyKind kind, body⟩ :: ⟨.marker, closeMark⟩ :: ps) = _
    rw [join_marker hmark, join_before_marker hkind hbody hclose]
    rfl

/-- Pieces that put out nothing may be left out before pieces are joined. -/
theorem join_filter (ps : List Piece) : join (ps.filter Piece.shows) = join ps := by
  induction ps with
  | nil => rfl
  | cons p ps ih =>
      by_cases hp : p.text.isEmpty
      · have hshows : ¬ p.shows = true := by simp [Piece.shows, hp]
        rw [List.filter_cons_of_neg hshows, join, if_pos hp, ih]
      · have hshows : p.shows = true := by simp [Piece.shows, hp]
        rw [List.filter_cons_of_pos hshows, join, join, if_neg hp, if_neg hp, ih]

/-- Joined pieces make up the same text. -/
theorem flatMap_join (ps : List Piece) : (join ps).flatMap Piece.text = ps.flatMap Piece.text := by
  induction ps with
  | nil => rfl
  | cons p ps ih =>
      rw [List.flatMap_cons, ← ih, join]
      split
      · next hp =>
          rw [List.isEmpty_iff.1 hp]
          rfl
      · split
        · next q ps' hjoin =>
            rw [hjoin]
            split
            · simp only [List.flatMap_cons, List.append_assoc]
            · rfl
        · next hjoin =>
            rw [hjoin]
            rfl

/-- Other text stands for no directive. -/
theorem Reads.of_other {p : Nat} {qs ps : List Piece} {u : Text} {bs : List Bracketed} (h : Reads p qs bs)
    (hqs : qs = ⟨.other, u⟩ :: ps) : Reads (p + u.length) ps bs := by
  cases h with
  | nil => cases hqs
  | other ht hrest =>
      cases hqs
      exact hrest
  | @directive _ b _ _ hp hrest =>
      -- the tokens of a directive start with a marker
      obtain ⟨q, kind, body⟩ := b
      have hopens : Piece.shows ⟨.marker, openMark ++ kind.mark⟩ = true := by cases kind <;> rfl
      rw [Bracketed.tokens, List.filter_cons_of_pos hopens] at hqs
      cases hqs

/-- Joined tokens stand for the same directives. -/
theorem Reads.join {p : Nat} {ps : List Piece} {bs : List Bracketed} (h : Reads p ps bs) :
    Reads p (join ps) bs := by
  induction h with
  | nil p => exact .nil p
  | directive hp _ ih =>
      rw [join_tokens]
      exact .directive hp ih
  | @other p t ps bs ht _ ih =>
      have hempty : ¬ t.isEmpty := by simpa using ht
      rw [Highlight.join, if_neg hempty]
      split
      · next q ps' hjoin =>
          rw [hjoin] at ih
          split
          · next hkind =>
              obtain ⟨kind, u⟩ := q
              obtain rfl : Kind.other = kind := by simpa using hkind
              refine .other (List.append_ne_nil_of_left_ne_nil ht _) ?_
              rw [List.length_append, ← Nat.add_assoc]
              exact ih.of_other rfl
          · exact .other ht ih
      · next hjoin =>
          rw [hjoin] at ih
          exact .other ht ih

/-! ## The scan -/

/-- A literal that stands in a text takes the scan further. -/
theorem Places.literalOf {t u : Text} {p : Nat} {line : Int} {ss : List Segment} {bs : List Bracketed}
    (hu : u <+: t.drop p) (h : Places t (p + u.length) ss bs) :
    Places t p (Segment.literalOf u line ++ ss) bs := by
  rw [Segment.literalOf]
  split
  · next hempty =>
      rw [List.isEmpty_iff.1 hempty] at h
      exact h
  · exact .literal hu h

/-- A directive behind a literal, with the white space that belongs to its line, takes the scan further. -/
theorem Places.step {t before rest : Text} {p : Nat} {line : Int} {d : Directive} {b : Bracketed}
    {ss : List Segment} {bs : List Bracketed}
    (htext : t.drop p = before ++ (d.lspace.getD [] ++ (b.text ++ (d.rspace.getD [] ++ rest))))
    (hplace : b.place = p + (before ++ d.lspace.getD []).length) (hkind : d.kind = b.kind)
    (hcode : d.code = codeOf b.body)
    (h : Places t (b.place + b.text.length + (d.rspace.getD []).length) ss bs) :
    Places t p (Segment.literalOf before line ++ .directive d :: ss) (b :: bs) := by
  rw [List.length_append, ← Nat.add_assoc] at hplace
  refine .literalOf ⟨_, htext.symm⟩ (.directive ⟨rest, ?_⟩ hplace hkind hcode h)
  rw [← List.drop_drop, htext, List.drop_left]
  simp only [List.append_assoc]

/-- The directive that the scan finds is opened behind what stands in front of it, where no other one is, and
none is opened in the white space behind it. -/
theorem opened_of_find? {fresh : Bool} {t : Text} {f : Segment.Found}
    (h : Segment.find? fresh t = some f) (p : Nat) :
    ∃ b : Bracketed, b.place = p + (f.before ++ f.lspace.getD []).length ∧ b.kind = f.kind ∧
      b.body = f.body ∧
      t = f.before ++ (f.lspace.getD [] ++ (b.text ++ (f.rspace.getD [] ++ f.rest))) ∧
      bracketAt? (b.text ++ (f.rspace.getD [] ++ f.rest)) =
        some (b.kind, b.body, f.rspace.getD [] ++ f.rest) ∧
      (∀ k < (f.before ++ f.lspace.getD []).length, ¬ openMark <+: t.drop k) ∧
      '<' ∉ f.rspace.getD [] := by
  obtain ⟨b, after, hsplit, hfirst, -, hb, -, hend, hafter⟩ := Segment.find?_eq_some h
  refine ⟨⟨_, f.kind, f.body⟩, rfl, rfl, rfl, ?_, ?_, hb ▸ hfirst, ?_⟩
  · rw [hsplit, hb, hafter, Bracketed.text]
    simp only [List.append_assoc]
  · -- the brackets are those that the scan looked at
    rw [Segment.find?_eq, Option.bind_eq_some_iff] at h
    obtain ⟨⟨b', opened⟩, -, h⟩ := h
    obtain ⟨⟨kind, body, after'⟩, hbracket, rfl⟩ := Option.map_eq_some_iff.1 h
    have hafter' : (Segment.foundAt fresh b' (kind, body, after')).rspace.getD [] ++
        (Segment.foundAt fresh b' (kind, body, after')).rest = after' :=
      (Segment.lineEnd?_append_drop after').symm
    have htext := Bracketed.eq_text_append (b := ⟨p, kind, body⟩) hbracket
    rw [hafter']
    exact (congrArg bracketAt? htext.symm).trans hbracket
  · cases hspace : f.rspace with
    | none => exact List.not_mem_nil
    | some e =>
        exact (Segment.isLineEnd_of_lineEnd? (hend.trans hspace)).1.bracket_not_mem

/-- The segments of a text stand for the directives that are opened in it. -/
theorem exists_finds_scanFrom {fuel p : Nat} {t : Text} (hfuel : (t.drop p).length < fuel)
    (fresh : Bool) (line : Int) :
    ∃ bs, Finds p (t.drop p) bs ∧ Places t p (scanFrom fuel fresh line (t.drop p)) bs := by
  induction fuel generalizing p fresh line with
  | zero => exact absurd hfuel (Nat.not_lt_zero _)
  | succ fuel ih =>
      cases hfind : Segment.find? fresh (t.drop p) with
      | none =>
          have hnone : Segment.find? fresh ((t.drop p).drop 0) = none := hfind
          refine ⟨[], .of_not_opensAt fun i => Segment.not_opensAt hnone (Nat.zero_le i), ?_⟩
          rw [Segment.scanFrom_of_none hfind, ← List.append_nil (Segment.literalOf _ _)]
          refine .literalOf (List.prefix_refl _) (.nil ?_)
          rw [← List.drop_drop, List.drop_length]
      | some f =>
          obtain ⟨b, hplace, hkind, hbody, htext, hbracket, hfirst, hspace⟩ := opened_of_find? hfind p
          have hrest : t.drop (b.place + b.text.length + (f.rspace.getD []).length) = f.rest := by
            have hlengths : b.place + b.text.length + (f.rspace.getD []).length =
                p + (f.before ++ (f.lspace.getD [] ++ (b.text ++ f.rspace.getD []))).length := by
              rw [hplace]
              simp only [List.length_append]
              omega
            have hsplit : t.drop p =
                (f.before ++ (f.lspace.getD [] ++ (b.text ++ f.rspace.getD []))) ++ f.rest := by
              rw [htext]
              simp only [List.append_assoc]
            rw [hlengths, ← List.drop_drop, hsplit, List.drop_left]
          have hlt := Segment.length_rest_lt hfind
          rw [← hrest] at hlt
          obtain ⟨bs, hfinds, hplaces⟩ := ih (p := b.place + b.text.length + (f.rspace.getD []).length)
            (by omega) f.rspace.isSome (line + Text.breaks f.before + f.breaks)
          rw [hrest] at hfinds hplaces
          refine ⟨b :: bs, ?_, ?_⟩
          · have hsplit : t.drop p =
                (f.before ++ f.lspace.getD []) ++ (b.text ++ (f.rspace.getD [] ++ f.rest)) := by
              rw [htext, List.append_assoc]
            rw [hsplit] at hfirst ⊢
            exact .append (fun k hk => bracketAt?_of_not_openMark (hfirst k hk))
              (.found hplace hbracket
                (hplace ▸ .append (fun k hk => bracketAt?_drop_append hspace f.rest hk) hfinds))
          · rw [Segment.scanFrom_of_find? hfind]
            exact .step htext hplace hkind.symm (congrArg codeOf hbody.symm) hplaces

/-- The highlighter and the scan see the same directives in a template that was tidied. A rule matches at
every place, the tokens make the text up, and there are directives that the tokens stand for, joined or
not, and that the segments stand for as well. -/
theorem lex_reads_scan (source : Text) (line : Int) :
    ∃ ps bs, lex (tidy source) = ps.map .piece ∧ join ps = pieces source ∧
      ps.flatMap Piece.text = tidy source ∧ (pieces source).flatMap Piece.text = tidy source ∧
      Reads 0 ps bs ∧ Reads 0 (pieces source) bs ∧
      Places (tidy source) 0 (scan (tidy source) line) bs := by
  have hfuel : (tidy source).length < (tidy source).length + 1 := Nat.lt_succ_self _
  obtain ⟨htext, bs, hfinds, hreads⟩ := exists_finds_piecesFrom (p := 0) hfuel
  obtain ⟨cs, hfinds', hplaces⟩ :=
    exists_finds_scanFrom (p := 0) (t := tidy source) hfuel true line
  obtain rfl := hfinds.unique hfinds'
  have hjoin : join ((piecesFrom ((tidy source).length + 1) (tidy source)).filter Piece.shows) =
      pieces source := join_filter _
  have hpieces : (pieces source).flatMap Piece.text = tidy source := (flatMap_join _).trans htext
  have htokens : ((piecesFrom ((tidy source).length + 1) (tidy source)).filter Piece.shows).flatMap
      Piece.text = tidy source := by
    rw [← flatMap_join, hjoin, hpieces]
  exact ⟨_, bs, lexFrom_eq _ _, hjoin, htokens, hpieces, hreads, hjoin ▸ hreads.join, hplaces⟩

end Stencil.Highlight
