import Stencil.Proofs.Tree.Basic

/-!
# The program of a block tree

The program of a tree, once as the lines that are generated for it and once as the statements that the
lines are read as. A body without lines gets one that does nothing, at the directive that closes it.
-/

namespace Stencil.Tree

open Script (Stmt Expr)

/-! ## Lines -/

/-- What a line of the program does. -/
inductive Code where
  | emit (t : Text) (ht : t ≠ [])
  | put (escaped : Bool) (x : Word)
  | header (h : Header)
  | idle

/-- The function that makes a text of a value. -/
def wrapper (escaped : Bool) : Text :=
  (if escaped then "_escape" else "_str").toList

/-- A line of the program without its indentation. -/
def Code.text : Code → Text
  | emit t _ => "_buf.append(".toList ++ (Text.quoted t ++ [')'])
  | put escaped x => "_buf.append(".toList ++ (wrapper escaped ++ ('(' :: x.text ++ "))".toList))
  | header h => sentence h.words ++ [':']
  | idle => Builder.idleLine

/-- A line that emits a text. -/
theorem Code.text_emit {t : Text} (ht : t ≠ []) :
    (emit t ht).text = "_buf.append(".toList ++ (Text.quoted t ++ [')']) := rfl

/-- A line that puts out the value of a word. -/
theorem Code.text_put (escaped : Bool) (x : Word) :
    (put escaped x).text =
      "_buf.append(".toList ++ (wrapper escaped ++ ('(' :: x.text ++ "))".toList)) := rfl

/-- A line with a header. -/
theorem Code.text_header (h : Header) : (header h).text = sentence h.words ++ [':'] := rfl

/-- The line that does nothing. -/
theorem Code.text_idle : idle.text = "pass".toList := rfl

/-- Whether a line starts a further branch of a choice. -/
def Code.continues : Code → Bool
  | header (.test further _) => further
  | header .otherwise => true
  | _ => false

/-- A line of the program: how deep it is nested, what it does, and its template line. -/
structure Row where
  depth : Nat
  code : Code
  line : Int

/-- A line of the program with its indentation. -/
def Row.text (r : Row) : Text :=
  List.replicate (Builder.indentStep * r.depth) ' ' ++ r.code.text

/-- The text of a program, in which every line ends with a line break. -/
def programText (rows : List Row) : Text :=
  rows.flatMap fun r => r.text ++ ['\n']

/-- The line that emits a text, if there is one to emit. -/
def emitRows (depth : Nat) (t : Text) (line : Int) : List Row :=
  if ht : t = [] then [] else [⟨depth, .emit t ht, line⟩]

/-- The line breaks within a remark. -/
def remarkText (code : Text) : Text :=
  List.replicate (Text.breaks code) '\n'

/-- The line of the directive with which further branches start, or the choice ends. -/
def Branches.line : Branches → Int
  | .finish closing => closing.line
  | .otherwise head _ _ | .elseIf head _ _ _ => head.line

/-- The lines of a body, which ends at a template line. -/
def bodyRows (depth : Nat) (line : Int) (rows : List Row) : List Row :=
  if rows = [] then [⟨depth, .idle, line⟩] else rows

mutual

/-- The lines of a node. -/
def Node.rows (depth : Nat) : Node → List Row
  | .text t line => emitRows depth t line
  | .remark code line => emitRows depth (remarkText code) line
  | .output escaped x line => [⟨depth, .put escaped x, line⟩]
  | .loop head target source body closing =>
    ⟨depth, .header (.loop target source), head.line⟩ ::
      bodyRows (depth + 1) closing.line (rowsAll (depth + 1) body)
  | .choice head test body rest =>
    ⟨depth, .header (.test false test), head.line⟩ ::
      (bodyRows (depth + 1) rest.line (rowsAll (depth + 1) body) ++ rest.rows depth)

/-- The lines of the further branches of a choice. -/
def Branches.rows (depth : Nat) : Branches → List Row
  | .finish _ => []
  | .otherwise head body closing =>
    ⟨depth, .header .otherwise, head.line⟩ ::
      bodyRows (depth + 1) closing.line (rowsAll (depth + 1) body)
  | .elseIf head test body rest =>
    ⟨depth, .header (.test true test), head.line⟩ ::
      (bodyRows (depth + 1) rest.line (rowsAll (depth + 1) body) ++ rest.rows depth)

/-- The lines of a sequence of nodes. -/
def rowsAll (depth : Nat) : List Node → List Row
  | [] => []
  | n :: rest => n.rows depth ++ rowsAll depth rest

end

/-! ## Statements -/

/-- The statement that adds the value of an expression to the output. -/
def appendStmt (line : Nat) (e : Expr) : Stmt :=
  .expr line (.call line (.member line (.name line Render.bufferName) "append" line) [.positional e])

/-- The expression that a text is written as. -/
def textExpr (line : Nat) (t : Text) : Expr :=
  .constant line (.str (String.ofList t))

/-- The expression for the text of the value of a word. -/
def showExpr (line : Nat) (escaped : Bool) (x : Word) : Expr :=
  .call line (.name line (String.ofList (wrapper escaped))) [.positional (.name line x.id)]

/-- The statement that emits a text, if there is one to emit. -/
def emitStmts (line : Nat) (t : Text) : List Stmt :=
  if t = [] then [] else [appendStmt line (textExpr line t)]

/-- The statements of a body that starts on a line. -/
def bodyStmts (line : Nat) (ss : List Stmt) : List Stmt :=
  if ss = [] then [.pass line] else ss

/-- The number of lines of a body with lines of its own. -/
def bodySize (n : Nat) : Nat := max 1 n

mutual

/-- The number of lines of a node. -/
def Node.size : Node → Nat
  | .text t _ => if t = [] then 0 else 1
  | .remark code _ => if remarkText code = [] then 0 else 1
  | .output _ _ _ => 1
  | .loop _ _ _ body _ => 1 + bodySize (sizeAll body)
  | .choice _ _ body rest => 1 + bodySize (sizeAll body) + rest.size

/-- The number of lines of the further branches of a choice. -/
def Branches.size : Branches → Nat
  | .finish _ => 0
  | .otherwise _ body _ => 1 + bodySize (sizeAll body)
  | .elseIf _ _ body rest => 1 + bodySize (sizeAll body) + rest.size

/-- The number of lines of a sequence of nodes. -/
def sizeAll : List Node → Nat
  | [] => 0
  | n :: rest => n.size + sizeAll rest

end

mutual

/-- The statements of a node whose lines start at a line of the program. -/
def Node.stmts (line : Nat) : Node → List Stmt
  | .text t _ => emitStmts line t
  | .remark code _ => emitStmts line (remarkText code)
  | .output escaped x _ => [appendStmt line (showExpr line escaped x)]
  | .loop _ target source body _ =>
    [.forLoop line false (.name line target.id) (.name line source.id)
      (bodyStmts (line + 1) (stmtsAll (line + 1) body)) []]
  | .choice _ test body rest =>
    [.ifElse line (.name line test.id) (bodyStmts (line + 1) (stmtsAll (line + 1) body))
      (rest.stmts (line + 1 + bodySize (sizeAll body)))]

/-- The statements of the further branches of a choice. -/
def Branches.stmts (line : Nat) : Branches → List Stmt
  | .finish _ => []
  | .otherwise _ body _ => bodyStmts (line + 1) (stmtsAll (line + 1) body)
  | .elseIf _ test body rest =>
    [.ifElse line (.name line test.id) (bodyStmts (line + 1) (stmtsAll (line + 1) body))
      (rest.stmts (line + 1 + bodySize (sizeAll body)))]

/-- The statements of a sequence of nodes. -/
def stmtsAll (line : Nat) : List Node → List Stmt
  | [] => []
  | n :: rest => n.stmts line ++ stmtsAll (line + n.size) rest

end

/-! ## Sizes -/

/-- A body has as many lines as its size says. -/
theorem length_bodyRows (depth : Nat) (line : Int) (rows : List Row) :
    (bodyRows depth line rows).length = bodySize rows.length := by
  rw [bodyRows, bodySize]
  split
  · next h => simp [h]
  · next h => exact (Nat.max_eq_right (List.length_pos_iff.2 h)).symm

/-- A text has as many lines as its size says. -/
theorem length_emitRows (depth : Nat) (t : Text) (line : Int) :
    (emitRows depth t line).length = if t = [] then 0 else 1 := by
  rw [emitRows]
  split <;> rfl

mutual

/-- A node has as many lines as its size says. -/
theorem Node.length_rows (depth : Nat) : (n : Node) → (n.rows depth).length = n.size
  | .text t line => length_emitRows depth t line
  | .remark code line => length_emitRows depth (remarkText code) line
  | .output _ _ _ => rfl
  | .loop _ _ _ body _ => by
      simp [Node.rows, Node.size, length_bodyRows, length_rowsAll (depth + 1) body, Nat.add_comm 1]
  | .choice _ _ body rest => by
      simp [Node.rows, Node.size, length_bodyRows, length_rowsAll (depth + 1) body,
        rest.length_rows depth, Nat.add_comm 1, Nat.add_right_comm]

/-- Further branches have as many lines as their size says. -/
theorem Branches.length_rows (depth : Nat) : (bs : Branches) → (bs.rows depth).length = bs.size
  | .finish _ => rfl
  | .otherwise _ body _ => by
      simp [Branches.rows, Branches.size, length_bodyRows, length_rowsAll (depth + 1) body,
        Nat.add_comm 1]
  | .elseIf _ _ body rest => by
      simp [Branches.rows, Branches.size, length_bodyRows, length_rowsAll (depth + 1) body,
        rest.length_rows depth, Nat.add_comm 1, Nat.add_right_comm]

/-- A sequence of nodes has as many lines as its size says. -/
theorem length_rowsAll (depth : Nat) : (ns : List Node) → (rowsAll depth ns).length = sizeAll ns
  | [] => rfl
  | n :: rest => by
      simp [rowsAll, sizeAll, n.length_rows depth, length_rowsAll depth rest]

end

/-- A body has at least its own lines. -/
theorem le_bodySize (n : Nat) : n ≤ bodySize n := Nat.le_max_right 1 n

/-- The statements of a body are not empty. -/
theorem bodyStmts_ne_nil (line : Nat) (ss : List Stmt) : bodyStmts line ss ≠ [] := by
  rw [bodyStmts]
  split
  · exact List.cons_ne_nil _ _
  · assumption

/-- A body has as many lines as its size says. -/
theorem length_bodyRows_rowsAll (depth : Nat) (line : Int) (ns : List Node) :
    (bodyRows depth line (rowsAll depth ns)).length = bodySize (sizeAll ns) := by
  rw [length_bodyRows, length_rowsAll]

/-! ## First lines -/

/-- Whether a line is one with which a node of a depth starts. -/
def Row.StartsNode (r : Row) (depth : Nat) : Prop :=
  r.depth = depth ∧ r.code.continues = false

/-- The line of a text starts a node. -/
theorem startsNode_emitRows {depth : Nat} {t : Text} {line : Int} {r : Row}
    (h : (emitRows depth t line).head? = some r) : r.StartsNode depth := by
  rw [emitRows] at h
  split at h
  · cases h
  · cases h
    exact ⟨rfl, rfl⟩

/-- The first line of a node starts a node. -/
theorem Node.startsNode_rows {depth : Nat} {n : Node} {r : Row}
    (h : (n.rows depth).head? = some r) : r.StartsNode depth := by
  cases n with
  | text t line => exact startsNode_emitRows h
  | remark code line => exact startsNode_emitRows h
  | output escaped x line =>
      cases h
      exact ⟨rfl, rfl⟩
  | loop head target source body closing =>
      cases h
      exact ⟨rfl, rfl⟩
  | choice head test body rest =>
      cases h
      exact ⟨rfl, rfl⟩

/-- The first line of a sequence of nodes starts a node. -/
theorem startsNode_rowsAll {depth : Nat} {ns : List Node} {r : Row}
    (h : (rowsAll depth ns).head? = some r) : r.StartsNode depth := by
  induction ns with
  | nil => cases h
  | cons n rest ih =>
      rw [rowsAll, List.head?_append] at h
      cases hn : (n.rows depth).head? with
      | none => exact ih (by simpa [hn] using h)
      | some r' =>
          obtain rfl : r' = r := by simpa [hn] using h
          exact Node.startsNode_rows hn

/-- Further branches start with a header as deep as the branches, if they have lines. -/
theorem Branches.rows_cases (depth : Nat) (bs : Branches) :
    (∃ closing, bs = .finish closing) ∨
      ∃ h rest, bs.rows depth = ⟨depth, .header h, bs.line⟩ :: rest := by
  cases bs with
  | finish closing => exact .inl ⟨closing, rfl⟩
  | otherwise head body closing => exact .inr ⟨_, _, rfl⟩
  | elseIf head test body rest => exact .inr ⟨_, _, rfl⟩

/-- A body starts with a line as deep as the body. -/
theorem bodyRows_cons (depth : Nat) (line : Int) (ns : List Node) : ∃ r rest,
    bodyRows depth line (rowsAll depth ns) = r :: rest ∧ r.depth = depth := by
  rw [bodyRows]
  split
  · exact ⟨_, [], rfl, rfl⟩
  · next h =>
      obtain ⟨r, rest, hrows⟩ := List.exists_cons_of_ne_nil h
      exact ⟨r, rest, hrows, (startsNode_rowsAll (by rw [hrows, List.head?_cons])).1⟩

/-! ## Nodes without lines -/

/-- A text has a statement where it has a line. -/
theorem emitStmts_eq_nil {line : Nat} {t : Text} {depth : Nat} {l : Int} :
    emitStmts line t = [] ↔ emitRows depth t l = [] := by
  rw [emitStmts, emitRows]
  split <;> simp

/-- A node has statements where it has lines. -/
theorem Node.stmts_eq_nil {line depth : Nat} {n : Node} :
    n.stmts line = [] ↔ n.rows depth = [] := by
  cases n with
  | text t l => exact emitStmts_eq_nil
  | remark code l => exact emitStmts_eq_nil
  | _ => simp [Node.stmts, Node.rows]

/-- A sequence of nodes has statements where it has lines. -/
theorem stmtsAll_eq_nil {line depth : Nat} {ns : List Node} :
    stmtsAll line ns = [] ↔ rowsAll depth ns = [] := by
  induction ns generalizing line with
  | nil => exact ⟨fun _ => rfl, fun _ => rfl⟩
  | cons n rest ih =>
      rw [stmtsAll, rowsAll, List.append_eq_nil_iff, List.append_eq_nil_iff, n.stmts_eq_nil, ih]

end Stencil.Tree
