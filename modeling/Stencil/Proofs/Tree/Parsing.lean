import Stencil.Proofs.Tree.Lexing

/-!
# How the program of a block tree is read

The lines of a node are read as its statements, whatever lines follow as long as they do not start
another branch (`Node.statements`). The proof follows the tree: behind a header the lines of a body are
one block deeper, so they are read by readers of one level less.
-/

namespace Stencil.Tree

open Script

/-! ## Rows and blocks -/

section

variable {depth line : Nat} {r : Row} {rest tail : List Row}

/-- A line that is as deep as the line before. -/
theorem rowTokens_same (h : r.depth = depth) :
    rowTokens depth line (r :: rest) =
      r.code.tokens line ++ Lexeme.on .newline line 0 :: rowTokens depth (line + 1) rest := by
  subst h
  simp [rowTokens, blockTokens]

/-- A header that is as deep as the line before. -/
theorem rowTokens_header (h : Header) (l : Int) :
    rowTokens depth line (⟨depth, .header h, l⟩ :: rest) =
      h.lexemes.map (·.on line 0) ++ Lexeme.on (.op ":") line 0 :: Lexeme.on .newline line 0 ::
        rowTokens depth (line + 1) rest := by
  rw [rowTokens_same (r := ⟨depth, .header h, l⟩) rfl, Code.tokens, List.append_assoc]
  rfl

/-- A line that is one block deeper than the line before. -/
theorem rowTokens_indent (h : r.depth = depth + 1) :
    rowTokens depth line (r :: rest) =
      Lexeme.on .indent line 0 :: rowTokens (depth + 1) line (r :: rest) := by
  simp [rowTokens, blockTokens, h]

/-- Whether lines leave the nodes of a depth: they are less deep, or go on with another node. -/
def Leaves (depth : Nat) (rows : List Row) : Prop :=
  ∀ r ∈ rows.head?, r.depth < depth ∨ r.StartsNode depth

/-- Behind the lines of a block the block ends. -/
theorem rowTokens_dedent (h : ∀ r ∈ tail.head?, r.depth ≤ depth) :
    rowTokens (depth + 1) line tail = Lexeme.on .dedent line 0 :: rowTokens depth line tail := by
  cases tail with
  | nil => rfl
  | cons r rest =>
      have hle : r.depth ≤ depth := h r rfl
      have hsub : depth + 1 - r.depth = depth - r.depth + 1 := by omega
      have hlt : decide (depth + 1 < r.depth) = false := decide_eq_false (by omega)
      have hlt' : decide (depth < r.depth) = false := decide_eq_false (by omega)
      rw [rowTokens, rowTokens, hsub, hlt, hlt', blockTokens, List.replicate_succ]
      rfl

/-- Lines that leave the nodes of a depth are no deeper. -/
theorem Leaves.depth_le (h : Leaves depth tail) : ∀ r ∈ tail.head?, r.depth ≤ depth := by
  intro r hr
  rcases h r hr with hlt | hstarts
  · exact Nat.le_of_lt hlt
  · exact Nat.le_of_eq hstarts.1

/-- Further branches in front of lines that leave the nodes of a depth are no deeper. -/
theorem Leaves.branches (h : Leaves depth tail) (bs : Branches) :
    ∀ r ∈ (bs.rows depth ++ tail).head?, r.depth ≤ depth := by
  rcases bs.rows_cases depth with ⟨closing, rfl⟩ | ⟨header, rest, hrows⟩
  · exact h.depth_le
  · rw [hrows]
    rintro r ⟨⟩
    exact Nat.le_refl depth

/-- Lines that are no deeper than a header leave the nodes of its body. -/
theorem Leaves.body (h : ∀ r ∈ tail.head?, r.depth ≤ depth) : Leaves (depth + 1) tail :=
  fun r hr => .inl (Nat.lt_succ_of_le (h r hr))

/-- Further nodes in front of lines that leave the nodes of a depth leave them, too. -/
theorem Leaves.rowsAll (h : Leaves depth tail) (ns : List Node) :
    Leaves depth (rowsAll depth ns ++ tail) := by
  intro r hr
  rw [List.head?_append] at hr
  cases hhead : (Tree.rowsAll depth ns).head? with
  | none => exact h r (by simpa [hhead] using hr)
  | some r' =>
      obtain rfl : r' = r := by simpa [hhead] using hr
      exact .inr (startsNode_rowsAll hhead)

/-- The first token of a line that starts a node does not start another branch. -/
theorem Code.tokens_cons {code : Code} (h : code.continues = false) (line : Nat) : ∃ u s,
    code.tokens line = u :: s ∧ u.lexeme.isWord "elif" = false ∧ u.lexeme.isWord "else" = false := by
  cases code with
  | header h' =>
      cases h' with
      | test further x =>
          obtain rfl : further = false := h
          exact ⟨_, _, rfl, rfl, rfl⟩
      | otherwise => exact Bool.noConfusion h
      | loop target source => exact ⟨_, _, rfl, rfl, rfl⟩
  | _ => exact ⟨_, _, rfl, rfl, rfl⟩

/-- Lines that leave the nodes of a depth do not start with another branch. -/
theorem Leaves.tokens (h : Leaves depth tail) (line : Nat) : ∃ u s,
    rowTokens depth line tail = u :: s ∧ u.lexeme.isWord "elif" = false ∧
      u.lexeme.isWord "else" = false := by
  by_cases hstarts : ∃ r ∈ tail.head?, r.StartsNode depth
  · obtain ⟨r, hr, hdepth, hcode⟩ := hstarts
    obtain ⟨rest, rfl⟩ : ∃ rest, tail = r :: rest := List.head?_eq_some_iff.1 hr
    obtain ⟨u, s, htokens, helif, helse⟩ := Code.tokens_cons hcode line
    rw [rowTokens_same hdepth, htokens]
    exact ⟨u, _, rfl, helif, helse⟩
  · have hless : ∀ r ∈ tail.head?, r.depth < depth := fun r hr =>
      (h r hr).resolve_right fun hs => hstarts ⟨r, hr, hs⟩
    cases depth with
    | zero =>
        cases tail with
        | nil => exact ⟨_, _, rfl, rfl, rfl⟩
        | cons r rest => exact absurd (hless r rfl) (Nat.not_lt_zero _)
    | succ depth =>
        rw [rowTokens_dedent fun r hr => Nat.le_of_lt_succ (hless r hr)]
        exact ⟨_, _, rfl, rfl, rfl⟩

end

/-! ## Single lines -/

section

variable {k line : Nat} {s : List Token}

/-- A line that adds the value of an expression to the output is read as a statement. The brackets that
hold the expression may be closed on a line further down. -/
theorem statements_append (line : Nat) {e : Expr} {t t' : Token} {ts : List Token} {c c' q m m' d : Nat}
    (h : (Grammar.level (k + 4)).expression (t :: t' :: ts) =
      .ok (e, ⟨.op ")", c, c', q⟩ :: ⟨.newline, m, m', d⟩ :: s))
    (ht : t.lexeme.startsPrimary) (hbracket : t'.lexeme = .op "(" ∨ t'.lexeme = .op ")")
    (hless : s.length + 1 < (t :: t' :: ts).length) :
    Statements (.level (k + 7)) (appendTokens line ++ t :: t' :: ts) [appendStmt line e] s := by
  have hmethod : primary (.level (k + 4)) (appendTokens line ++ t :: t' :: ts) =
      .ok (.call line (.member line (.name line Render.bufferName) "append" line) [.positional e],
        ⟨.newline, m, m', d⟩ :: s) := primary_method (arguments_one h ht hbracket) hless rfl
  have hexpression : (Grammar.level (k + 6)).expression (appendTokens line ++ t :: t' :: ts) =
      .ok (.call line (.member line (.name line Render.bufferName) "append" line) [.positional e],
        ⟨.newline, m, m', d⟩ :: s) := expression_of_primary hmethod rfl rfl
  have hsimple : simpleLine (.level (k + 6)) (appendTokens line ++ t :: t' :: ts) =
      .ok ([appendStmt line e], s) := simpleLine_of_expression hexpression
  refine Statements.one rfl (?_ : statement (.level (k + 6)) _ = _) ?_
  · rw [statement]
    exact hsimple
  · change s.length < (appendTokens line ++ t :: t' :: ts).length
    rw [List.length_append]
    omega

/-- A line that emits a text is read as a statement. -/
theorem statements_emit (t : Text) (ht : t ≠ []) :
    Statements (.level (k + 7)) ((Code.emit t ht).tokens line ++ Lexeme.on .newline line 0 :: s)
      [appendStmt line (textExpr line t)] s := by
  have hliteral : (Grammar.level (k + 4)).expression
      (Lexeme.on (.string (literalOf t)) line 1 :: Lexeme.on (.op ")") line 0 ::
        Lexeme.on .newline line 0 :: s) =
      .ok (textExpr line t, Lexeme.on (.op ")") line 0 :: Lexeme.on .newline line 0 :: s) :=
    expression_of_primary (primary_string (literalText_escaped (isQuote_quoteMark t) t) rfl) rfl rfl
  have := statements_append line hliteral rfl (.inr rfl) (by simp)
  rwa [Code.tokens, List.append_assoc]

/-- A line that puts out the value of a word is read as a statement. -/
theorem statements_put (escaped : Bool) (x : Word) :
    Statements (.level (k + 7)) ((Code.put escaped x).tokens line ++ Lexeme.on .newline line 0 :: s)
      [appendStmt line (showExpr line escaped x)] s := by
  have hname : (Grammar.level (k + 2)).expression
      (Lexeme.on (.name x.id) line 2 :: Lexeme.on (.op ")") line 1 :: Lexeme.on (.op ")") line 0 ::
        Lexeme.on .newline line 0 :: s) =
      .ok (.name line x.id, Lexeme.on (.op ")") line 1 :: Lexeme.on (.op ")") line 0 ::
        Lexeme.on .newline line 0 :: s) := expression_name rfl
  have hcall : (Grammar.level (k + 4)).expression
      (Lexeme.on (.name (String.ofList (wrapper escaped))) line 1 :: Lexeme.on (.op "(") line 2 ::
        Lexeme.on (.name x.id) line 2 :: Lexeme.on (.op ")") line 1 :: Lexeme.on (.op ")") line 0 ::
        Lexeme.on .newline line 0 :: s) =
      .ok (showExpr line escaped x, Lexeme.on (.op ")") line 0 :: Lexeme.on .newline line 0 :: s) :=
    expression_of_primary (primary_call (arguments_one hname rfl (.inr rfl)) (by simp) rfl) rfl rfl
  have := statements_append line hcall rfl (.inl rfl) (by simp)
  rwa [Code.tokens, List.append_assoc]

/-- A line that does nothing is read as a statement. -/
theorem statements_idle :
    Statements (.level (k + 1)) (Code.idle.tokens line ++ Lexeme.on .newline line 0 :: s)
      [.pass line] s :=
  Statements.one rfl (simpleLine_pass (g := .level k)) (Nat.lt_succ_of_lt (Nat.lt_succ_self _))

end

/-! ## Nodes -/

section

variable {k depth line : Nat} {tail : List Row}

/-- A text is read as its statement. -/
theorem statements_emitRows (t : Text) (l : Int) :
    Statements (.level (k + 7)) (rowTokens depth line (emitRows depth t l ++ tail))
      (emitStmts line t) (rowTokens depth (line + if t = [] then 0 else 1) tail) := by
  rw [emitRows, emitStmts]
  split
  · exact .none _
  · next ht =>
      rw [List.singleton_append, rowTokens_same (r := ⟨depth, .emit t ht, l⟩) rfl]
      exact statements_emit t ht

/-- A colon and the lines of a body are read as the statements of the body. -/
theorem colonBlock_bodyRows {ns : List Node} (l : Int) (htail : ∀ r ∈ tail.head?, r.depth ≤ depth)
    (h : Statements (.level (k + 1))
      (rowTokens (depth + 1) (line + 1) (rowsAll (depth + 1) ns ++ tail)) (stmtsAll (line + 1) ns)
      (rowTokens (depth + 1) (line + 1 + sizeAll ns) tail)) :
    colonBlock (.level (k + 1)) (Lexeme.on (.op ":") line 0 :: Lexeme.on .newline line 0 ::
        rowTokens depth (line + 1) (bodyRows (depth + 1) l (rowsAll (depth + 1) ns) ++ tail)) =
      .ok (bodyStmts (line + 1) (stmtsAll (line + 1) ns),
        rowTokens depth (line + 1 + bodySize (sizeAll ns)) tail) ∧
    (rowTokens depth (line + 1 + bodySize (sizeAll ns)) tail).length ≤
      (rowTokens depth (line + 1)
        (bodyRows (depth + 1) l (rowsAll (depth + 1) ns) ++ tail)).length := by
  have hbody : Statements (.level (k + 1))
      (rowTokens (depth + 1) (line + 1) (bodyRows (depth + 1) l (rowsAll (depth + 1) ns) ++ tail))
      (bodyStmts (line + 1) (stmtsAll (line + 1) ns))
      (rowTokens (depth + 1) (line + 1 + bodySize (sizeAll ns)) tail) := by
    rw [bodyRows, bodyStmts]
    by_cases hrows : rowsAll (depth + 1) ns = []
    · have hsize : sizeAll ns = 0 := by rw [← length_rowsAll (depth + 1), hrows, List.length_nil]
      rw [if_pos hrows, if_pos (stmtsAll_eq_nil.2 hrows), hsize, List.singleton_append,
        rowTokens_same (r := ⟨depth + 1, .idle, l⟩) rfl]
      exact statements_idle
    · have hsize : bodySize (sizeAll ns) = sizeAll ns := by
        rw [← length_rowsAll (depth + 1)]
        exact Nat.max_eq_right (List.length_pos_iff.2 hrows)
      rw [if_neg hrows, if_neg (mt stmtsAll_eq_nil.1 hrows), hsize]
      exact h
  obtain ⟨r, rest, hcons, hdepth⟩ := bodyRows_cons (depth + 1) l ns
  rw [rowTokens_dedent htail] at hbody
  rw [hcons, List.cons_append] at hbody ⊢
  rw [rowTokens_indent hdepth]
  refine ⟨colonBlock_eq hbody (bodyStmts_ne_nil _ _), ?_⟩
  have := hbody.length_le
  simp only [List.length_cons] at this ⊢
  omega

mutual

/-- The lines of a node are read as its statements. -/
theorem Node.statements (n : Node) (line : Nat) {k depth : Nat} {tail : List Row}
    (hk : n.size + 6 ≤ k) (htail : Leaves depth tail) :
    Statements (.level (k + 1)) (rowTokens depth line (n.rows depth ++ tail)) (n.stmts line)
      (rowTokens depth (line + n.size) tail) := by
  obtain ⟨j, rfl⟩ : ∃ j, k = j + 6 := ⟨k - 6, by omega⟩
  cases n with
  | text t l => exact statements_emitRows t l
  | remark code l => exact statements_emitRows (remarkText code) l
  | output escaped x l =>
      rw [Node.rows, List.singleton_append, rowTokens_same (r := ⟨depth, .put escaped x, l⟩) rfl]
      exact statements_put escaped x
  | loop head target source body closing =>
      rw [Node.size] at hk ⊢
      have hsize := le_bodySize (sizeAll body)
      have hbody : Statements (.level (j + 6)) _ _ _ :=
        statements_rowsAll body (line + 1) (by omega) (Leaves.body htail.depth_le)
      obtain ⟨hblock, hlength⟩ := colonBlock_bodyRows closing.line htail.depth_le hbody
      -- a loop could go on with `else`, but what follows the body starts another node or is less deep
      obtain ⟨u, s, hnext, -, helse⟩ := htail.tokens (line + 1 + bodySize (sizeAll body))
      rw [hnext] at hblock hlength
      rw [Node.rows, List.cons_append, rowTokens_header, ← Nat.add_assoc, hnext]
      simp only [Header.lexemes, List.map_cons, List.map_nil, List.cons_append, List.nil_append]
      refine Statements.one rfl (statement_for hblock helse) ?_
      simp only [List.length_cons] at hlength ⊢
      omega
  | choice head test body rest =>
      rw [Node.size] at hk ⊢
      have hsize := le_bodySize (sizeAll body)
      obtain ⟨hrest, hlength'⟩ := rest.alternatives (line + 1 + bodySize (sizeAll body))
        (k := j + 6) (by omega) htail
      have hbody : Statements (.level (j + 6)) _ _ _ :=
        statements_rowsAll body (line + 1) (by omega) (Leaves.body (htail.branches rest))
      obtain ⟨hblock, hlength⟩ := colonBlock_bodyRows rest.line (htail.branches rest) hbody
      rw [Node.rows, List.cons_append, List.append_assoc, rowTokens_header, ← Nat.add_assoc,
        ← Nat.add_assoc]
      simp only [Header.lexemes, List.map_cons, List.map_nil, List.cons_append, List.nil_append]
      refine Statements.one rfl (statement_if hblock hrest) ?_
      simp only [List.length_cons]
      omega

/-- The lines of further branches are read as what follows a condition. -/
theorem Branches.alternatives (bs : Branches) (line : Nat) {k depth : Nat} {tail : List Row}
    (hk : bs.size + 6 ≤ k) (htail : Leaves depth tail) :
    Alternatives (.level k) (rowTokens depth line (bs.rows depth ++ tail)) (bs.stmts line)
      (rowTokens depth (line + bs.size) tail) ∧
    (rowTokens depth (line + bs.size) tail).length ≤
      (rowTokens depth line (bs.rows depth ++ tail)).length := by
  obtain ⟨j, rfl⟩ : ∃ j, k = j + 6 := ⟨k - 6, by omega⟩
  cases bs with
  | finish closing =>
      obtain ⟨u, s, hnext, helif, helse⟩ := htail.tokens line
      simp only [Branches.rows, Branches.size, List.nil_append, Nat.add_zero, hnext]
      exact ⟨Alternatives.none helif helse, Nat.le_refl _⟩
  | otherwise head body closing =>
      rw [Branches.size] at hk ⊢
      have hsize := le_bodySize (sizeAll body)
      have hbody : Statements (.level (j + 6)) _ _ _ :=
        statements_rowsAll body (line + 1) (by omega) (Leaves.body htail.depth_le)
      obtain ⟨hblock, hlength⟩ := colonBlock_bodyRows closing.line htail.depth_le hbody
      rw [Branches.rows, List.cons_append, rowTokens_header, ← Nat.add_assoc]
      refine ⟨Alternatives.otherwise hblock, ?_⟩
      simp only [Header.lexemes, List.map_cons, List.map_nil, List.cons_append, List.nil_append,
        List.length_cons]
      omega
  | elseIf head test body rest =>
      rw [Branches.size] at hk ⊢
      have hsize := le_bodySize (sizeAll body)
      obtain ⟨hrest, hlength'⟩ := rest.alternatives (line + 1 + bodySize (sizeAll body))
        (k := j + 6) (by omega) htail
      have hbody : Statements (.level (j + 6)) _ _ _ :=
        statements_rowsAll body (line + 1) (by omega) (Leaves.body (htail.branches rest))
      obtain ⟨hblock, hlength⟩ := colonBlock_bodyRows rest.line (htail.branches rest) hbody
      rw [Branches.rows, List.cons_append, List.append_assoc, rowTokens_header, ← Nat.add_assoc,
        ← Nat.add_assoc]
      refine ⟨Alternatives.elseIf hblock (Nat.le_succ_of_le hlength) hrest, ?_⟩
      simp only [Header.lexemes, List.map_cons, List.map_nil, List.cons_append, List.nil_append,
        List.length_cons]
      omega

/-- The lines of a sequence of nodes are read as their statements. -/
theorem statements_rowsAll (ns : List Node) (line : Nat) {k depth : Nat} {tail : List Row}
    (hk : sizeAll ns + 6 ≤ k) (htail : Leaves depth tail) :
    Statements (.level (k + 1)) (rowTokens depth line (rowsAll depth ns ++ tail)) (stmtsAll line ns)
      (rowTokens depth (line + sizeAll ns) tail) := by
  cases ns with
  | nil => exact .none _
  | cons n rest =>
      rw [sizeAll] at hk
      have hrest := statements_rowsAll rest (line + n.size) (k := k) (by omega) htail
      have hfirst := n.statements line (k := k) (by omega) (htail.rowsAll rest)
      rw [rowsAll, List.append_assoc, sizeAll, ← Nat.add_assoc]
      exact hfirst.append hrest

end

end

/-! ## Whole programs -/

/-- Each line has at least one token. -/
theorem length_le_rowTokens (rows : List Row) (depth line : Nat) :
    rows.length ≤ (rowTokens depth line rows).length := by
  induction rows generalizing depth line with
  | nil => exact Nat.zero_le _
  | cons r rest ih =>
      have := ih r.depth (line + 1)
      simp only [rowTokens, List.length_append, List.length_cons]
      omega

/-- A program whose lines are read as statements, one after the other. -/
theorem parse_of_statements {rows : List Row} {ss : List Stmt} {line : Nat} (hnests : Nests 0 rows)
    (h : Statements (.level (readingLevel (programText rows) (rowTokens 0 1 rows))) (rowTokens 0 1 rows)
      ss (rowTokens 0 line [])) : parse (programText rows) = .ok ss := by
  have hwhole := h.wholeScript_eq rfl
  rw [parse, lex_programText hnests, hwhole]

/-- The program of a tree is read as its statements. -/
theorem parse_programText {ns : List Node} (hdepth : depthAll ns < maxIndents) :
    parse (programText (rowsAll 0 ns)) = .ok (stmtsAll 1 ns) := by
  have hnests : Nests 0 (rowsAll 0 ns) := by
    have h : Nests 0 (rowsAll 0 ns ++ []) := nests_rowsAll ns (Nat.le_refl 0) (by omega) trivial
    rwa [List.append_nil] at h
  have hsize := length_le_rowTokens (rowsAll 0 ns) 0 1
  rw [length_rowsAll] at hsize
  have hstatements := statements_rowsAll ns 1 (k := 4 * ((rowTokens 0 1 (rowsAll 0 ns)).length +
    (programText (rowsAll 0 ns)).length) + 19) (by omega) (fun r hr => nomatch hr : Leaves 0 [])
  rw [List.append_nil] at hstatements
  exact parse_of_statements hnests hstatements

end Stencil.Tree
