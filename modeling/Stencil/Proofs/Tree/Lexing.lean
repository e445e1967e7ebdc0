import Stencil.Proofs.Script.Statements
import Stencil.Proofs.Tree.Rows

/-!
# The tokens of the program of a block tree

Each line of the program is one row of tokens. Between the rows stand the tokens for blocks that begin
and end, which depend only on how deep the lines before and behind are nested (`rowTokens`).
-/

namespace Stencil.Tree

open Script

/-! ## Tokens of a line -/

/-- The words of a header as tokens. -/
def Header.lexemes : Header → List Lexeme
  | loop target source => [.keyword "for", .name target.id, .keyword "in", .name source.id]
  | test further x => [.keyword (if further then "elif" else "if"), .name x.id]
  | otherwise => [.keyword "else"]

/-- The tokens in front of the argument with which something is added to the output. -/
def appendTokens (line : Nat) : List Token :=
  [Lexeme.on (.name Render.bufferName) line 0, Lexeme.on (.op ".") line 0,
    Lexeme.on (.name "append") line 0, Lexeme.on (.op "(") line 1]

/-- A text as a string literal. -/
def literalOf (t : Text) : StringLit :=
  ⟨false, false, false, t.flatMap (Text.escapeChar (Text.quoteMark t))⟩

/-- The tokens of a line, its end aside. -/
def Code.tokens (line : Nat) : Code → List Token
  | emit t _ => appendTokens line ++
      [Lexeme.on (.string (literalOf t)) line 1, Lexeme.on (.op ")") line 0]
  | put escaped x => appendTokens line ++
      [Lexeme.on (.name (String.ofList (wrapper escaped))) line 1, Lexeme.on (.op "(") line 2,
        Lexeme.on (.name x.id) line 2, Lexeme.on (.op ")") line 1, Lexeme.on (.op ")") line 0]
  | header h => h.lexemes.map (·.on line 0) ++ [Lexeme.on (.op ":") line 0]
  | idle => [Lexeme.on (.keyword "pass") line 0]

/-- The tokens of lines behind a line of a depth, up to the end of the program. -/
def rowTokens : Nat → Nat → List Row → List Token
  | depth, line, [] => blockTokens line depth false ++ [Lexeme.on .finish line 0]
  | depth, line, r :: rest =>
    blockTokens line (depth - r.depth) (depth < r.depth) ++
      (r.code.tokens line ++ Lexeme.on .newline line 0 :: rowTokens r.depth (line + 1) rest)

/-! ## Words -/

/-- A name of a template is an ASCII identifier. -/
theorem Name.isAsciiName_text (x : Name) : isAsciiName x.text := by
  have h := x.isOwn
  simp only [isOwnName, Bool.and_eq_true] at h
  exact h.1.1.1

/-- A word is an identifier. -/
theorem Word.isName_text (x : Word) : isName x.text := (Bool.and_eq_true_iff.1 x.isWord).1

/-- A word is no keyword. -/
theorem Word.ofWord (x : Word) : Lexeme.ofWord (String.ofList x.text) = .name x.id := by
  have h := (Bool.and_eq_true_iff.1 x.isWord).2
  rw [Bool.not_eq_true'] at h
  rw [Word.text, String.ofList_toList, Lexeme.ofWord, h, if_neg Bool.false_ne_true]

/-- A name of a template is no keyword. -/
theorem Name.ofWord (x : Name) : Lexeme.ofWord (String.ofList x.text) = .name x.id :=
  x.word.ofWord

/-- The words of a header are ASCII words. -/
theorem Header.isAsciiName_words (h : Header) : ∀ w ∈ h.words, isAsciiName w := by
  cases h with
  | loop target source =>
      simp [words, target.isAsciiName_text, source.isAsciiName_text]
      decide
  | test further x =>
      cases further <;> simp [words, x.isAsciiName_text] <;> decide
  | otherwise =>
      simp [words]
      decide

/-- The words of a header are its tokens. -/
theorem Header.map_ofWord (h : Header) :
    h.words.map (fun w => Lexeme.ofWord (String.ofList w)) = h.lexemes := by
  cases h with
  | loop target source =>
      simp only [words, lexemes, List.map_cons, List.map_nil, target.ofWord, source.ofWord]
      rfl
  | test further x =>
      cases further <;> simp only [words, lexemes, List.map_cons, List.map_nil, x.ofWord] <;> rfl
  | otherwise => rfl

section

variable {line : Nat} {columns : List (Nat × Nat)} {opens : List (Char × Nat)}

/-- The words of a sentence are its tokens. -/
theorem lexes_sentence {ws : List Text} (hne : ws ≠ []) (hws : ∀ w ∈ ws, isAsciiName w) {rest : Text}
    (hrest : endsWord rest) (gaps : Nat) :
    Lexes (.within (List.replicate gaps ' ' ++ (sentence ws ++ rest)) line columns [])
      (ws.map fun w => (Lexeme.ofWord (String.ofList w)).on line 0) (.within rest line columns []) := by
  induction ws generalizing gaps with
  | nil => exact absurd rfl hne
  | cons w ws ih =>
      have hw := hws w List.mem_cons_self
      cases ws with
      | nil => exact lexes_word gaps (isName_of_isAsciiName hw) hrest
      | cons w' ws =>
          have hfirst : Lexes
              (.within (List.replicate gaps ' ' ++ (w ++ ' ' :: (sentence (w' :: ws) ++ rest))) line
                columns [])
              [(Lexeme.ofWord (String.ofList w)).on line 0]
              (.within (' ' :: (sentence (w' :: ws) ++ rest)) line columns []) :=
            lexes_word gaps (isName_of_isAsciiName hw) rfl
          have hothers := ih (List.cons_ne_nil _ _) (fun v hv => hws v (List.mem_cons_of_mem _ hv)) 1
          have := hfirst.trans hothers
          rwa [sentence, List.append_assoc, List.cons_append]
          exact fun h => List.cons_ne_nil _ _ h

/-- A word that is no keyword is a name. -/
theorem lexes_name {w rest : Text} (hw : isAsciiName w)
    (hname : keywords.contains (String.ofList w) = false) (hrest : endsWord rest)
    (opens : List (Char × Nat)) :
    Lexes (.within (w ++ rest) line columns opens)
      [(Lexeme.name (String.ofList w)).on line opens.length] (.within rest line columns opens) := by
  have h : Lexes (.within (w ++ rest) line columns opens)
      [(Lexeme.ofWord (String.ofList w)).on line opens.length] (.within rest line columns opens) :=
    lexes_word 0 (isName_of_isAsciiName hw) hrest
  rwa [Lexeme.ofWord, hname, if_neg Bool.false_ne_true] at h

/-- The tokens in front of the argument with which something is added to the output. -/
theorem lexes_append (rest : Text) :
    Lexes (.within ("_buf.append(".toList ++ rest) line columns []) (appendTokens line)
      (.within rest line columns [('(', line)]) := by
  have hbuffer : Lexes (.within ("_buf".toList ++ ('.' :: ("append".toList ++ '(' :: rest))) line
        columns [])
      [Lexeme.on (.name Render.bufferName) line 0]
      (.within ('.' :: ("append".toList ++ '(' :: rest)) line columns []) :=
    lexes_name (by decide) (by decide +kernel) rfl []
  have hdot : Lexes (.within ('.' :: ("append".toList ++ '(' :: rest)) line columns [])
      [Lexeme.on (.op ".") line 0] (.within ("append".toList ++ '(' :: rest) line columns []) :=
    lexes_dot (by decide) ('(' :: rest)
  have hmethod : Lexes (.within ("append".toList ++ '(' :: rest) line columns [])
      [Lexeme.on (.name "append") line 0] (.within ('(' :: rest) line columns []) :=
    lexes_name (by decide) (by decide +kernel) rfl []
  have htext : "_buf.append(".toList ++ rest =
      "_buf".toList ++ ('.' :: ("append".toList ++ '(' :: rest)) := by simp
  rw [htext]
  exact hbuffer.trans (hdot.trans (hmethod.trans (lexes_open (by decide))))

/-- The bracket that ends an argument, before another one or the end of the line. -/
theorem lexes_bracket (opens : List (Char × Nat)) (r : Text) :
    Lexes (.within (')' :: r) line columns (('(', line) :: opens))
      [Lexeme.on (.op ")") line opens.length] (.within r line columns opens) :=
  lexes_close

/-- The tokens of a line that emits a text. -/
theorem lexes_emit {t : Text} (ht : t ≠ []) (rest : Text) :
    Lexes (.within ((Code.emit t ht).text ++ '\n' :: rest) line columns [])
      ((Code.emit t ht).tokens line) (.within ('\n' :: rest) line columns []) := by
  have hquoted : Lexes (.within (Text.quoted t ++ ')' :: '\n' :: rest) line columns [('(', line)])
      [Lexeme.on (.string (literalOf t)) line 1]
      (.within (')' :: '\n' :: rest) line columns [('(', line)]) := lexes_quoted ht _
  have htext : (Code.emit t ht).text ++ '\n' :: rest =
      "_buf.append(".toList ++ (Text.quoted t ++ ')' :: '\n' :: rest) := by
    simp only [Code.text_emit, List.append_assoc, List.cons_append, List.nil_append]
  rw [htext]
  exact (lexes_append _).trans (hquoted.trans (lexes_bracket [] _))

/-- The name of the function that makes text of a value. -/
theorem lexes_wrapper (escaped : Bool) (rest : Text) :
    Lexes (.within (wrapper escaped ++ '(' :: rest) line columns opens)
      [Lexeme.on (.name (String.ofList (wrapper escaped))) line opens.length]
      (.within ('(' :: rest) line columns opens) := by
  cases escaped <;> exact lexes_name (by decide) (by decide +kernel) rfl _

/-- The tokens of a line that puts out the value of a word. -/
theorem lexes_put (escaped : Bool) (x : Word) (rest : Text) :
    Lexes (.within ((Code.put escaped x).text ++ '\n' :: rest) line columns [])
      ((Code.put escaped x).tokens line) (.within ('\n' :: rest) line columns []) := by
  have hname : Lexes (.within (x.text ++ ')' :: ')' :: '\n' :: rest) line columns
        [('(', line), ('(', line)])
      [Lexeme.on (.name x.id) line 2]
      (.within (')' :: ')' :: '\n' :: rest) line columns [('(', line), ('(', line)]) := by
    rw [← x.ofWord]
    exact lexes_word 0 x.isName_text rfl
  have htext : (Code.put escaped x).text ++ '\n' :: rest = "_buf.append(".toList ++
      (wrapper escaped ++ '(' :: (x.text ++ ')' :: ')' :: '\n' :: rest)) := by
    simp [Code.text_put]
  rw [htext]
  exact (lexes_append _).trans ((lexes_wrapper escaped _).trans ((lexes_open (by simp [maxOpen])).trans
    (hname.trans ((lexes_bracket [('(', line)] _).trans (lexes_bracket [] _)))))

/-- The tokens of a line with a header. -/
theorem lexes_header (h : Header) (rest : Text) :
    Lexes (.within ((Code.header h).text ++ '\n' :: rest) line columns [])
      ((Code.header h).tokens line) (.within ('\n' :: rest) line columns []) := by
  have hne : h.words ≠ [] := by cases h <;> exact List.cons_ne_nil _ _
  have hwords : Lexes (.within (sentence h.words ++ ':' :: '\n' :: rest) line columns [])
      (h.lexemes.map (·.on line 0)) (.within (':' :: '\n' :: rest) line columns []) := by
    rw [← h.map_ofWord, List.map_map]
    exact lexes_sentence hne h.isAsciiName_words rfl 0
  rw [Code.text_header, List.append_assoc]
  exact hwords.trans (lexes_colon rest)

/-- The tokens of a line. -/
theorem Code.lexes (code : Code) (rest : Text) :
    Lexes (.within (code.text ++ '\n' :: rest) line columns []) (code.tokens line)
      (.within ('\n' :: rest) line columns []) := by
  cases code with
  | emit t ht => exact lexes_emit ht rest
  | put escaped x => exact lexes_put escaped x rest
  | header h => exact lexes_header h rest
  | idle =>
      have h : Lexes (.within (Builder.idleLine ++ '\n' :: rest) line columns [])
          [Lexeme.on (.ofWord (String.ofList Builder.idleLine)) line 0]
          (.within ('\n' :: rest) line columns []) :=
        lexes_word 0 (w := Builder.idleLine) (by decide +kernel) rfl
      exact h

end

/-! ## Lines -/

/-- The first character of a line is part of a word. -/
theorem Code.exists_cons (code : Code) : ∃ c r, code.text = c :: r ∧ isWordChar c := by
  cases code with
  | emit t ht => exact ⟨'_', "buf.append(".toList ++ (Text.quoted t ++ [')']), by simp [text_emit],
      by decide⟩
  | put escaped x =>
      exact ⟨'_', "buf.append(".toList ++ (wrapper escaped ++ ('(' :: x.text ++ "))".toList)),
        by simp [text_put], by decide⟩
  | header h =>
      cases h with
      | loop target source => exact ⟨'f', _, rfl, by decide⟩
      | test further x => cases further <;> exact ⟨_, _, rfl, by decide⟩
      | otherwise => exact ⟨'e', _, rfl, by decide⟩
  | idle => exact ⟨'p', "ass".toList, by decide, by decide⟩

/-- The enclosing indentations at a depth. -/
def columnsAt : Nat → List (Nat × Nat)
  | 0 => [(0, 0)]
  | d + 1 => (Builder.indentStep * (d + 1), Builder.indentStep * (d + 1)) :: columnsAt d

/-- At each depth there is one enclosing indentation more. -/
@[simp] theorem length_columnsAt (d : Nat) : (columnsAt d).length = d + 1 := by
  induction d with
  | zero => rfl
  | succ d ih => rw [columnsAt, List.length_cons, ih]

/-- The innermost of the enclosing indentations is that of the depth. -/
theorem columnsAt_cons (d : Nat) : ∃ outer,
    columnsAt d = (Builder.indentStep * d, Builder.indentStep * d) :: outer := by
  cases d with
  | zero => exact ⟨[], rfl⟩
  | succ d => exact ⟨columnsAt d, rfl⟩

/-- What is left of the enclosing indentations when a line is less deep. -/
theorem dropWhile_columnsAt {d e : Nat} (h : e ≤ d) :
    (columnsAt d).dropWhile (fun x => Builder.indentStep * e < x.1) = columnsAt e := by
  induction d with
  | zero =>
      obtain rfl := Nat.le_zero.1 h
      rfl
  | succ d ih =>
      rcases Nat.lt_or_ge d e with hlt | hge
      · obtain rfl : e = d + 1 := by omega
        rw [columnsAt, List.dropWhile_cons_of_neg (by simp)]
      · rw [columnsAt, List.dropWhile_cons_of_pos, ih hge]
        refine decide_eq_true (?_ : Builder.indentStep * e < Builder.indentStep * (d + 1))
        simp only [Builder.indentStep]
        omega

/-- A line may be one block deeper than the line before, or as much less deep as there are blocks. -/
theorem reindent_columnsAt {d e : Nat} (h : e ≤ d + 1) (hmax : e < maxIndents) :
    reindent (columnsAt d) (Builder.indentStep * e) (Builder.indentStep * e) =
      .ok (d - e, decide (d < e), columnsAt e) := by
  obtain ⟨outer, houter⟩ := columnsAt_cons d
  rcases Nat.lt_trichotomy e d with hlt | rfl | hgt
  · have hkept := dropWhile_columnsAt (Nat.le_of_lt hlt)
    have hlength : (columnsAt d).length - (columnsAt e).length = d - e := by
      simp only [length_columnsAt]
      omega
    obtain ⟨inner, hinner⟩ := columnsAt_cons e
    rw [houter] at hkept hlength
    have hne : Builder.indentStep * e ≠ Builder.indentStep * d := by
      simp only [Builder.indentStep]
      omega
    have hle : ¬ Builder.indentStep * d < Builder.indentStep * e := by
      simp only [Builder.indentStep]
      omega
    rw [houter, reindent, if_neg hne, if_neg hle]
    simp only [hkept, hlength]
    rw [hinner]
    simp [Nat.not_lt.2 (Nat.le_of_lt hlt)]
  · rw [houter, reindent, if_pos rfl, if_pos rfl, ← houter]
    simp
  · obtain rfl : e = d + 1 := by omega
    have hlength : ¬ maxIndents ≤ (columnsAt d).length := by
      rw [length_columnsAt]
      omega
    have hlt : Builder.indentStep * d < Builder.indentStep * (d + 1) := by
      simp only [Builder.indentStep]
      omega
    rw [houter] at hlength
    rw [houter, reindent, if_neg (Nat.ne_of_gt hlt), if_pos hlt, if_neg hlength,
      if_neg (Nat.not_le.2 hlt), columnsAt, houter]
    simp

/-- Whether each of some lines behind a line of a depth is at most one block deeper than the one before
it, and not too deep. -/
def Nests : Nat → List Row → Prop
  | _, [] => True
  | depth, r :: rest => r.depth ≤ depth + 1 ∧ r.depth < maxIndents ∧ Nests r.depth rest

/-- The tokens of lines, up to those that end blocks in front of the end. -/
theorem lexes_rows {rows : List Row} {depth : Nat} (h : Nests depth rows) (line : Nat) :
    ∃ ts depth',
      Lexes ⟨programText rows, line, true, columnsAt depth, []⟩ ts
        ⟨[], line + rows.length, true, columnsAt depth', []⟩ ∧
      rowTokens depth line rows = ts ++ (blockTokens (line + rows.length) depth' false ++
        [Lexeme.on .finish (line + rows.length) 0]) := by
  induction rows generalizing depth line with
  | nil => exact ⟨[], depth, Lexes.refl _, rfl⟩
  | cons r rest ih =>
      obtain ⟨hdepth, hmax, hrest⟩ := h
      obtain ⟨ts, depth', hlexes, htokens⟩ := ih hrest (line + 1)
      obtain ⟨c, t, htext, hc⟩ := r.code.exists_cons
      have hindent : Lexes ⟨List.replicate (Builder.indentStep * r.depth) ' ' ++
          (r.code.text ++ '\n' :: programText rest), line, true, columnsAt depth, []⟩
          (blockTokens line (depth - r.depth) (depth < r.depth))
          (.within (r.code.text ++ '\n' :: programText rest) line (columnsAt r.depth) []) := by
        rw [htext]
        exact lexes_indentation _ hc (reindent_columnsAt hdepth hmax)
      have hline := hindent.trans
        ((r.code.lexes (programText rest)).trans ((lexes_newline (programText rest)).trans hlexes))
      have hcount : line + 1 + rest.length = line + (r :: rest).length := by
        simp only [List.length_cons]
        omega
      have hprogram : programText (r :: rest) = List.replicate (Builder.indentStep * r.depth) ' ' ++
          (r.code.text ++ '\n' :: programText rest) := by
        simp [programText, Row.text]
      rw [hcount] at hline htokens
      rw [hprogram]
      exact ⟨_, depth', hline, by simp [rowTokens, htokens]⟩

/-! ## Nesting -/

/-- Lines may follow a deeper line as well. -/
theorem Nests.mono {depth depth' : Nat} {rows : List Row} (h : Nests depth rows)
    (hle : depth ≤ depth') : Nests depth' rows := by
  cases rows with
  | nil => exact h
  | cons r rest => exact ⟨Nat.le_trans h.1 (Nat.succ_le_succ hle), h.2⟩

/-- Lines that start one block deeper may follow a header. -/
theorem Nests.header {depth : Nat} {r : Row} {rest : List Row} (h : Nests (depth + 1) (r :: rest))
    (hdepth : r.depth = depth + 1) : Nests depth (r :: rest) :=
  ⟨Nat.le_of_eq hdepth, h.2⟩

/-- A line may follow a line that is as deep or deeper. -/
theorem Nests.row {depth depth' : Nat} {code : Code} {line : Int} {rest : List Row}
    (h : Nests depth rest) (hle : depth ≤ depth') (hmax : depth < maxIndents) :
    Nests depth' (⟨depth, code, line⟩ :: rest) :=
  ⟨Nat.le_succ_of_le hle, hmax, h⟩

/-- The line of a text nests as the text does. -/
theorem nests_emitRows {depth depth' : Nat} {t : Text} {line : Int} {tail : List Row}
    (hle : depth ≤ depth') (hmax : depth < maxIndents) (htail : Nests depth tail) :
    Nests depth' (emitRows depth t line ++ tail) := by
  rw [emitRows]
  split
  · exact htail.mono hle
  · exact htail.row hle hmax

/-- The lines of a body nest behind its header. -/
theorem nests_bodyRows {depth : Nat} {line : Int} {ns : List Node} {tail : List Row}
    (hmax : depth + 1 < maxIndents) (htail : Nests depth tail)
    (hrows : Nests (depth + 1) (rowsAll (depth + 1) ns ++ tail)) :
    Nests depth (bodyRows (depth + 1) line (rowsAll (depth + 1) ns) ++ tail) := by
  obtain ⟨r, rest, hbody, hdepth⟩ := bodyRows_cons (depth + 1) line ns
  have hnests : Nests (depth + 1)
      (bodyRows (depth + 1) line (rowsAll (depth + 1) ns) ++ tail) := by
    rw [bodyRows]
    split
    · exact Nests.row (htail.mono (Nat.le_succ depth)) (Nat.le_refl _) hmax
    · exact hrows
  rw [hbody] at hnests ⊢
  exact Nests.header hnests hdepth

mutual

/-- The lines of a node nest. -/
theorem Node.nests_rows (n : Node) {depth depth' : Nat} {tail : List Row} (hle : depth ≤ depth')
    (hmax : depth + n.depth < maxIndents) (htail : Nests depth tail) :
    Nests depth' (n.rows depth ++ tail) := by
  cases n with
  | text t line => exact nests_emitRows hle hmax htail
  | remark code line => exact nests_emitRows hle hmax htail
  | output escaped x line => exact htail.row hle hmax
  | loop head target source body closing =>
      rw [Node.depth] at hmax
      have hbody := nests_rowsAll body (Nat.le_refl (depth + 1)) (by omega)
        (htail.mono (Nat.le_succ depth))
      exact (nests_bodyRows (by omega) htail hbody).row hle (by omega)
  | choice head test body rest =>
      rw [Node.depth] at hmax
      have hrest := rest.nests_rows (Nat.le_refl depth) (by omega) htail
      have hbody := nests_rowsAll body (Nat.le_refl (depth + 1)) (by omega)
        (hrest.mono (Nat.le_succ depth))
      rw [Node.rows, List.cons_append, List.append_assoc]
      exact (nests_bodyRows (by omega) hrest hbody).row hle (by omega)

/-- The lines of further branches nest. -/
theorem Branches.nests_rows (bs : Branches) {depth depth' : Nat} {tail : List Row}
    (hle : depth ≤ depth') (hmax : depth + bs.depth + 1 < maxIndents) (htail : Nests depth tail) :
    Nests depth' (bs.rows depth ++ tail) := by
  cases bs with
  | finish closing => exact htail.mono hle
  | otherwise head body closing =>
      rw [Branches.depth] at hmax
      have hbody := nests_rowsAll body (Nat.le_refl (depth + 1)) (by omega)
        (htail.mono (Nat.le_succ depth))
      exact (nests_bodyRows (by omega) htail hbody).row hle (by omega)
  | elseIf head test body rest =>
      rw [Branches.depth] at hmax
      have hrest := rest.nests_rows (Nat.le_refl depth) (by omega) htail
      have hbody := nests_rowsAll body (Nat.le_refl (depth + 1)) (by omega)
        (hrest.mono (Nat.le_succ depth))
      rw [Branches.rows, List.cons_append, List.append_assoc]
      exact (nests_bodyRows (by omega) hrest hbody).row hle (by omega)

/-- The lines of a sequence of nodes nest. -/
theorem nests_rowsAll (ns : List Node) {depth depth' : Nat} {tail : List Row} (hle : depth ≤ depth')
    (hmax : depth + depthAll ns < maxIndents) (htail : Nests depth tail) :
    Nests depth' (rowsAll depth ns ++ tail) := by
  cases ns with
  | nil => exact htail.mono hle
  | cons n rest =>
      rw [depthAll] at hmax
      rw [rowsAll, List.append_assoc]
      exact n.nests_rows hle (by omega) (nests_rowsAll rest (Nat.le_refl depth) (by omega) htail)

end

/-! ## Whole programs -/

/-- Word characters are printable. -/
theorem isPrintable_of_isWordChar {c : Char} (hc : isWordChar c) : Text.isPrintable c :=
  forall_wordChar (P := fun c => Text.isPrintable c = true) (by decide +kernel) hc

/-- A sentence is made of word characters and spaces. -/
theorem mem_sentence {ws : List Text} (hws : ∀ w ∈ ws, isAsciiName w) {c : Char}
    (hc : c ∈ sentence ws) : isWordChar c ∨ c = ' ' := by
  induction ws with
  | nil => exact absurd hc List.not_mem_nil
  | cons w ws ih =>
      have hw : ∀ c ∈ w, isWordChar c := fun c => isWordChar_of_mem (hws w List.mem_cons_self)
      cases ws with
      | nil => exact .inl (hw c hc)
      | cons w' ws =>
          rw [sentence, List.mem_append, List.mem_cons] at hc
          · rcases hc with hc | rfl | hc
            · exact .inl (hw c hc)
            · exact .inr rfl
            · exact ih (fun v hv => hws v (List.mem_cons_of_mem _ hv)) hc
          · exact fun h => List.cons_ne_nil _ _ h

/-- A printable character is no control character. -/
theorem le_toNat_of_isPrintable {c : Char} (h : Text.isPrintable c) : 0x20 ≤ c.toNat := by
  refine Nat.le_of_not_lt fun hlt => ?_
  have hnot : ∀ n < 0x20, Text.isPrintable (Char.ofNat n) = false := by decide
  have hc := hnot c.toNat hlt
  rw [Char.ofNat_toNat, h] at hc
  cases hc

/-- A character of a name is no control character. -/
theorem le_toNat_of_nameChar {c : Char} (h : Text.isNameStart c ∨ Text.isNameRest c) :
    0x20 ≤ c.toNat := by
  rcases Nat.lt_or_ge c.toNat 0x80 with hlt | hge
  · exact le_toNat_of_isPrintable (isPrintable_of_isWordChar (isWordChar_of_nameChar h hlt))
  · exact Nat.le_trans (by decide) hge

/-- The characters of a sentence are printable. -/
theorem isPrintable_of_mem_sentence {ws : List Text} (hws : ∀ w ∈ ws, isAsciiName w) {c : Char}
    (hc : c ∈ sentence ws) : Text.isPrintable c := by
  rcases mem_sentence hws hc with hc | rfl
  · exact isPrintable_of_isWordChar hc
  · decide

/-- The characters of a line are no control characters. -/
theorem Code.le_toNat_of_mem {code : Code} {c : Char} (hc : c ∈ code.text) : 0x20 ≤ c.toNat := by
  have hfixed {t : Text} (ht : t.all fun c => 0x20 ≤ c.toNat) (hc : c ∈ t) : 0x20 ≤ c.toNat :=
    of_decide_eq_true (List.all_eq_true.1 ht c hc)
  have hmarks : "_buf.append(".toList.all fun c => 0x20 ≤ c.toNat := by decide
  cases code with
  | emit t ht =>
      rw [text_emit, List.mem_append, List.mem_append] at hc
      rcases hc with hc | hc | hc
      · exact hfixed hmarks hc
      · exact le_toNat_of_isPrintable (isPrintable_of_mem_quoted hc)
      · rw [List.mem_singleton.1 hc]
        decide
  | put escaped x =>
      have hwrapper : (wrapper escaped).all fun c => 0x20 ≤ c.toNat := by cases escaped <;> decide
      rw [text_put, List.mem_append, List.mem_append, List.cons_append, List.mem_cons,
        List.mem_append] at hc
      rcases hc with hc | hc | rfl | hc | hc
      · exact hfixed hmarks hc
      · exact hfixed hwrapper hc
      · decide
      · exact le_toNat_of_nameChar (nameChar_of_mem x.isName_text hc)
      · exact hfixed (by decide : "))".toList.all fun c => 0x20 ≤ c.toNat) hc
  | header h =>
      rw [text_header, List.mem_append, List.mem_singleton] at hc
      rcases hc with hc | rfl
      · exact le_toNat_of_isPrintable (isPrintable_of_mem_sentence h.isAsciiName_words hc)
      · decide
  | idle => exact le_toNat_of_isPrintable (isPrintable_of_isWordChar (isWordChar_of_mem (by decide) hc))

/-- The characters of a program are no control characters, its line breaks aside. -/
theorem le_toNat_or_break {rows : List Row} {c : Char} (hc : c ∈ programText rows) :
    0x20 ≤ c.toNat ∨ c = '\n' := by
  obtain ⟨r, -, hc⟩ := List.mem_flatMap.1 hc
  rw [Row.text, List.mem_append, List.mem_append, List.mem_singleton] at hc
  rcases hc with (hc | hc) | rfl
  · rw [List.eq_of_mem_replicate hc]
    exact .inl (by decide)
  · exact .inl (Code.le_toNat_of_mem hc)
  · exact .inr rfl

/-- The tokens of a program. -/
theorem lex_programText {rows : List Row} (h : Nests 0 rows) :
    lex (programText rows) = rowTokens 0 1 rows := by
  obtain ⟨ts, depth, hlexes, htokens⟩ := lexes_rows h 1
  have hreturn : '\r' ∉ programText rows := by
    intro hmem
    rcases le_toNat_or_break hmem with h | h <;> exact absurd h (by decide)
  have hclosed : programText rows = [] ∨ (programText rows).getLast? = some '\n' := by
    rcases List.eq_nil_or_concat rows with rfl | ⟨rest, r, rfl⟩
    · exact .inl rfl
    · refine .inr ?_
      simp [programText]
  rw [lex_eq hreturn hclosed hlexes, htokens, length_columnsAt]
  rfl

end Stencil.Tree
