import Stencil.Program.Generate
import Stencil.Proofs.Tree.Parsing

/-!
# The line of a literal text

An instruction that emits a text adds one line to a program. Whatever the text is made of, that line is
read as one statement, in which the text is the value of one string literal (`add_emitText`): no
character of the text ends the literal or the line. The line is read so wherever it stands, at each
depth.
-/

namespace Stencil.Tree

open Script

/-- A line of a program, indented by some columns, does one thing: it adds a text to the output. -/
structure AppendsText (row : Text) (indent : Nat) (t : Text) : Prop where
  /-- The line stays one line, and holds nothing that ends a script. -/
  unbroken : ∀ c ∈ row, c ≠ '\n' ∧ c ≠ '\r' ∧ c ≠ '\x00'
  /-- The tokens of the line, outside brackets, where its indentation fits the enclosing ones. -/
  tokens : ∀ {line ends : Nat} {begins : Bool} {columns columns' : List (Nat × Nat)},
    reindent columns indent indent = .ok (ends, begins, columns') → ∀ rest,
      Lexes ⟨row ++ '\n' :: rest, line, true, columns, []⟩
        (blockTokens line ends begins ++ (appendTokens line ++
          [Lexeme.on (.string (literalOf t)) line 1, Lexeme.on (.op ")") line 0,
            Lexeme.on .newline line 0]))
        ⟨rest, line + 1, true, columns', []⟩
  /-- The literal among them says the text. -/
  value : literalText (literalOf t).bytes (literalOf t).raw (literalOf t).body = some t
  /-- The tokens are one statement, whatever follows it. -/
  statement : ∀ (line k : Nat) (behind : List Token),
    Statements (.level (k + 7))
      (appendTokens line ++ Lexeme.on (.string (literalOf t)) line 1 :: Lexeme.on (.op ")") line 0 ::
        Lexeme.on .newline line 0 :: behind)
      [appendStmt line (textExpr line t)] behind
  /-- The line without its indentation is a script with this statement. -/
  alone : parse (row.drop indent ++ ['\n']) = .ok [appendStmt 1 (textExpr 1 t)]

/-- Without its indentation, the line of a text is the whole program of a tree with only this text. -/
theorem parse_emit {t : Text} (ht : t ≠ []) :
    parse ((Code.emit t ht).text ++ ['\n']) = .ok [appendStmt 1 (textExpr 1 t)] := by
  have hprogram : programText (rowsAll 0 [.text t 1]) = (Code.emit t ht).text ++ ['\n'] := by
    simp [rowsAll, Node.rows, emitRows, ht, programText, Row.text]
  have hstmts : stmtsAll 1 [.text t 1] = [appendStmt 1 (textExpr 1 t)] := by
    simp [stmtsAll, Node.stmts, emitStmts, ht]
  rw [← hprogram, ← hstmts]
  exact parse_programText (by simp [depthAll, Node.depth, maxIndents])

/-- The line of a text adds the text to the output. -/
theorem appendsText_emit (indent : Nat) {t : Text} (ht : t ≠ []) :
    AppendsText (List.replicate indent ' ' ++ (Code.emit t ht).text) indent t where
  unbroken c hc := by
    have hcode : 0x20 ≤ c.toNat := by
      rcases List.mem_append.1 hc with hc | hc
      · rw [List.eq_of_mem_replicate hc]
        decide
      · exact Code.le_toNat_of_mem hc
    refine ⟨?_, ?_, ?_⟩ <;>
      · rintro rfl
        exact absurd hcode (by decide)
  tokens {line ends begins columns columns'} hcolumns rest := by
    obtain ⟨c, r, htext, hc⟩ := (Code.emit t ht).exists_cons
    have hindent : Lexes ⟨List.replicate indent ' ' ++ ((Code.emit t ht).text ++ '\n' :: rest), line,
        true, columns, []⟩ (blockTokens line ends begins)
        (.within ((Code.emit t ht).text ++ '\n' :: rest) line columns' []) := by
      rw [htext]
      exact lexes_indentation indent hc hcolumns
    have hline := hindent.trans ((lexes_emit ht rest).trans (lexes_newline rest))
    rw [Code.tokens, List.append_assoc] at hline
    rw [List.append_assoc]
    exact hline
  value := literalText_escaped (isQuote_quoteMark t) t
  statement line k behind := by
    have h : Statements (.level (k + 7))
        ((Code.emit t ht).tokens line ++ Lexeme.on .newline line 0 :: behind)
        [appendStmt line (textExpr line t)] behind := statements_emit t ht
    rwa [Code.tokens, List.append_assoc] at h
  alone := by
    rw [List.drop_left' (List.length_replicate ..)]
    exact parse_emit ht

/-- **A literal text stays within its quotes.** An instruction that emits a text adds one line behind
those of the program, and this line is one statement that adds exactly the text to the output. -/
theorem add_emitText (b : Builder) (template : String) (line : Int) {t : Text} (ht : t ≠ []) :
    ∃ row b', b.add template (.emitText t line) = .ok b' ∧ b'.lines = b.lines.push row ∧
      AppendsText row b.indent t := by
  refine ⟨_, _, rfl, ?_, appendsText_emit b.indent ht⟩
  rw [Builder.addText, List.isEmpty_eq_false_iff.2 ht, if_neg Bool.false_ne_true, Code.text_emit]
  rfl

/-- Within a block, a text of both quotes, a backslash, line breaks and characters without a glyph stays
within its quotes. -/
theorem add_emitText_marks :
    "\'\"\\\n\r\x00\u2028".toList ≠ [] ∧ ∃ row b',
      (Builder.empty.openBlock "if".toList 1).add "t" (.emitText "\'\"\\\n\r\x00\u2028".toList 2) =
        .ok b' ∧
      b'.lines = #[row] ∧ AppendsText row 4 "\'\"\\\n\r\x00\u2028".toList :=
  ⟨by decide, add_emitText (Builder.empty.openBlock "if".toList 1) "t" 2 (by decide)⟩

end Stencil.Tree
