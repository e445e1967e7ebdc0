import Stencil.Proofs.Tree.Parsing

/-!
# The program of a block tree is a script

The statements of a tree are of few kinds (`Blocks`). Such statements use their names well and stand in
their places, as long as no more loops are open at once than may be. So the program of a tree passes the
check of scripts, and its statements are those of the tree (`check_programText`).
-/

namespace Stencil.Tree

open Script

/-! ## Statements of trees -/

/-- Statements of the kinds that trees are made of, with loops that nest at most to a depth. -/
inductive Blocks : Nat → List Stmt → Prop where
  | nil {d : Nat} : Blocks d []
  | pass {d line : Nat} {rest : List Stmt} : Blocks d rest → Blocks d (.pass line :: rest)
  | emit {d line : Nat} {t : Text} {rest : List Stmt} :
      Blocks d rest → Blocks d (appendStmt line (textExpr line t) :: rest)
  | put {d line : Nat} {escaped : Bool} {x : Word} {rest : List Stmt} :
      Blocks d rest → Blocks d (appendStmt line (showExpr line escaped x) :: rest)
  | loop {d line : Nat} {x y : Name} {body rest : List Stmt} :
      Blocks d body → Blocks (d + 1) rest →
      Blocks (d + 1) (.forLoop line false (.name line x.id) (.name line y.id) body [] :: rest)
  | choice {d line : Nat} {x : Name} {body orelse rest : List Stmt} :
      Blocks d body → Blocks d orelse → Blocks d rest →
      Blocks d (.ifElse line (.name line x.id) body orelse :: rest)

namespace Blocks

variable {d : Nat} {ss ss' : List Stmt}

/-- Statements that follow statements of these kinds are of these kinds together. -/
theorem append (h : Blocks d ss) (h' : Blocks d ss') : Blocks d (ss ++ ss') := by
  induction h with
  | nil => exact h'
  | pass _ ih => exact .pass (ih h')
  | emit _ ih => exact .emit (ih h')
  | put _ ih => exact .put (ih h')
  | loop hbody _ _ ih => exact .loop hbody (ih h')
  | choice hbody horelse _ _ _ ih => exact .choice hbody horelse (ih h')

/-- The statements of a body. -/
theorem bodyStmts (line : Nat) (h : Blocks d ss) : Blocks d (bodyStmts line ss) := by
  rw [Tree.bodyStmts]
  split
  · exact .pass .nil
  · exact h

/-- The statement of a text. -/
theorem emitStmts (line : Nat) (t : Text) : Blocks d (emitStmts line t) := by
  rw [Tree.emitStmts]
  split
  · exact .nil
  · exact .emit .nil

end Blocks

mutual

/-- The statements of a node are of these kinds. -/
theorem Node.blocks (n : Node) {d : Nat} (line : Nat) (h : n.depth ≤ d) : Blocks d (n.stmts line) := by
  cases n with
  | text t l => exact .emitStmts line t
  | remark code l => exact .emitStmts line (remarkText code)
  | output escaped x l => exact .put .nil
  | loop head target source body closing =>
      rw [Node.depth] at h
      obtain ⟨d, rfl⟩ : ∃ e, d = e + 1 := ⟨d - 1, by omega⟩
      exact .loop ((blocks_stmtsAll body (line + 1) (by omega)).bodyStmts _) .nil
  | choice head test body rest =>
      rw [Node.depth] at h
      exact .choice ((blocks_stmtsAll body (line + 1) (by omega)).bodyStmts _)
        (rest.blocks _ (by omega)) .nil

/-- The statements of further branches are of these kinds. -/
theorem Branches.blocks (bs : Branches) {d : Nat} (line : Nat) (h : bs.depth ≤ d) :
    Blocks d (bs.stmts line) := by
  cases bs with
  | finish closing => exact .nil
  | otherwise head body closing => exact (blocks_stmtsAll body (line + 1) h).bodyStmts _
  | elseIf head test body rest =>
      rw [Branches.depth] at h
      exact .choice ((blocks_stmtsAll body (line + 1) (by omega)).bodyStmts _)
        (rest.blocks _ (by omega)) .nil

/-- The statements of a sequence of nodes are of these kinds. -/
theorem blocks_stmtsAll (ns : List Node) {d : Nat} (line : Nat) (h : depthAll ns ≤ d) :
    Blocks d (stmtsAll line ns) := by
  cases ns with
  | nil => exact .nil
  | cons n rest =>
      rw [depthAll] at h
      exact (n.blocks line (by omega)).append (blocks_stmtsAll rest _ (by omega))

end

/-! ## Checks that succeed -/

/-- A check that succeeds from the states of a kind, and leaves a state of the kind. -/
def Keeps {σ ε : Type} (I : σ → Prop) (p : StateT σ (Except ε) Unit) : Prop :=
  ∀ s, I s → ∃ s', p s = .ok ((), s') ∧ I s'

namespace Keeps

variable {σ ε α : Type} {I : σ → Prop} {p q : StateT σ (Except ε) Unit}

/-- Nothing is checked. -/
theorem pure : Keeps I (pure () : StateT σ (Except ε) Unit) :=
  fun s h => ⟨s, rfl, h⟩

/-- Two checks in a row. -/
theorem seq (hp : Keeps I p) (hq : Keeps I q) : Keeps I (p >>= fun _ => q) := by
  intro s h
  obtain ⟨s', hs', h'⟩ := hp s h
  obtain ⟨s'', hs'', h''⟩ := hq s' h'
  refine ⟨s'', ?_, h''⟩
  change (p s).bind _ = _
  rw [hs']
  exact hs''

/-- A check of the first of some things and then of the others. -/
theorem cons {f : α → StateT σ (Except ε) Unit} {a : α} {as : List α} (ha : Keeps I (f a))
    (has : Keeps I (as.forM f)) : Keeps I ((a :: as).forM f) :=
  ha.seq has

end Keeps

/-- Checks of things that all succeed. -/
theorem forM_eq_ok {α ε : Type} {f : α → Except ε Unit} {as : List α} (h : ∀ a ∈ as, f a = .ok ()) :
    as.forM f = .ok () := by
  induction as with
  | nil => rfl
  | cons a as ih =>
      change (f a).bind (fun _ => as.forM f) = _
      rw [h a List.mem_cons_self]
      exact ih fun b hb => h b (List.mem_cons_of_mem _ hb)

/-! ## Names -/

/-- Whether the scopes of a walk are those of a script in which nothing is declared. -/
def Undeclared (scopes : List Scope) : Prop :=
  ∃ names : List NameUse, scopes = [.mk .script false names [] 0 false []] ∧
    ∀ u ∈ names, u.global = false ∧ u.nonlocal = false

/-- A change of the use of a name that declares nothing. -/
theorem keeps_update (id : String) {f : NameUse → NameUse}
    (hf : ∀ u, (f u).global = u.global ∧ (f u).nonlocal = u.nonlocal) :
    Keeps Undeclared (Walk.change (·.update id f)) := by
  rintro _ ⟨names, rfl, hnames⟩
  have hupdate : Scope.update (.mk .script false names [] 0 false []) id f =
      if names.any (·.id == id) then
        .mk .script false (names.map fun u => if u.id == id then f u else u) [] 0 false []
      else .mk .script false (f { id } :: names) [] 0 false [] := rfl
  refine ⟨[Scope.update (.mk .script false names [] 0 false []) id f], rfl, ?_⟩
  rw [hupdate]
  split
  · refine ⟨_, rfl, fun u hu => ?_⟩
    obtain ⟨v, hv, rfl⟩ := List.mem_map.1 hu
    split
    · exact ⟨(hf v).1.trans (hnames v hv).1, (hf v).2.trans (hnames v hv).2⟩
    · exact hnames v hv
  · refine ⟨_, rfl, fun u hu => ?_⟩
    rcases List.mem_cons.1 hu with rfl | hu
    · exact hf _
    · exact hnames u hu

/-- A name is read. -/
theorem keeps_read (id : String) : Keeps Undeclared (Walk.read id) :=
  keeps_update id fun _ => ⟨rfl, rfl⟩

/-- A name is bound. -/
theorem keeps_bind (id : String) (line : Nat) : Keeps Undeclared (Walk.bind id line) := by
  rintro scopes ⟨names, rfl, hnames⟩
  exact keeps_update id (f := fun u => { u with bound := true, iterated := u.iterated || false })
    (fun _ => ⟨rfl, rfl⟩) _ ⟨names, rfl, hnames⟩

/-- An expression that reads a name. -/
theorem keeps_walkExpr_name (height line : Nat) (id : String) :
    Keeps Undeclared (walkExpr height false (.name line id)) := by
  cases height with
  | zero => exact .pure
  | succ height => exact keeps_read id

/-- An expression that adds something to the output. -/
theorem keeps_walkExpr_append {line : Nat} {e : Expr}
    (he : ∀ height, Keeps Undeclared (walkExpr height false e)) (height : Nat) :
    Keeps Undeclared (walkStmt height (appendStmt line e)) := by
  rcases height with _ | _ | height
  · exact .pure
  · exact .pure
  · have hmember : Keeps Undeclared
        (walkExpr height false (.member line (.name line Render.bufferName) "append" line)) := by
      cases height with
      | zero => exact .pure
      | succ height => exact .cons (keeps_walkExpr_name height line _) .pure
    exact .cons hmember (.cons (he height) .pure)

/-- An expression that makes a text of the value of a word. -/
theorem keeps_walkExpr_show (line : Nat) (escaped : Bool) (x : Word) (height : Nat) :
    Keeps Undeclared (walkExpr height false (showExpr line escaped x)) := by
  cases height with
  | zero => exact .pure
  | succ height =>
      exact .cons (keeps_walkExpr_name height line _) (.cons (keeps_walkExpr_name height line _) .pure)

/-- The statements of a tree declare nothing. -/
theorem keeps_walkStmt {d : Nat} {ss : List Stmt} (h : Blocks d ss) (height : Nat) :
    Keeps Undeclared (ss.forM (walkStmt height)) := by
  induction h generalizing height with
  | nil => exact .pure
  | pass _ ih => exact .cons (by cases height <;> exact .pure) (ih height)
  | emit _ ih =>
      refine .cons (keeps_walkExpr_append (fun n => ?_) height) (ih height)
      cases n <;> exact .pure
  | put _ ih => exact .cons (keeps_walkExpr_append (keeps_walkExpr_show _ _ _) height) (ih height)
  | @loop d line x y body rest _ _ ihbody ih =>
      refine .cons ?_ (ih height)
      cases height with
      | zero => exact .pure
      | succ height =>
          have htarget : Keeps Undeclared (walkExpr height true (.name line x.id)) := by
            cases height with
            | zero => exact .pure
            | succ height => exact keeps_bind x.id line
          exact htarget.seq ((keeps_walkExpr_name height line y.id).seq ((ihbody height).seq .pure))
  | @choice d line x body orelse rest _ _ _ ihbody ihorelse ih =>
      refine .cons ?_ (ih height)
      cases height with
      | zero => exact .pure
      | succ height =>
          exact (keeps_walkExpr_name height line x.id).seq ((ihbody height).seq (ihorelse height))

/-- The statements of a tree use their names well. -/
theorem checkNames_eq {d : Nat} {ss : List Stmt} (h : Blocks d ss) (height : Nat) :
    checkNames height ss = .ok () := by
  obtain ⟨_, hwalk, names, rfl, hnames⟩ :=
    keeps_walkStmt h height [Scope.empty .script false] ⟨[], rfl, fun u hu => nomatch hu⟩
  have hresolve : Scope.resolve height none (.mk .script false names [] 0 false []) = .ok () := by
    cases height with
    | zero => rfl
    | succ height =>
        rw [Scope.resolve, forM_eq_ok]
        · rfl
        · intro u hu
          obtain ⟨hglobal, hnonlocal⟩ := hnames u (List.mem_reverse.1 hu)
          rw [hglobal, hnonlocal]
          rfl
  change (ss.forM (walkStmt height) [Scope.empty .script false]).bind _ = _
  rw [hwalk]
  change (Scope.resolve height none (.mk .script false names [] 0 false []) >>= fun _ => _) = _
  rw [hresolve]
  rfl

/-! ## Places -/

/-- Any state of a check of places, which is the line of the last statement. -/
abbrev AnyLine : Nat → Prop := fun _ => True

/-- A name that is read may stand anywhere. -/
theorem keeps_checkExpr_name (height line : Nat) (p : Script.Place) (id : String) :
    Keeps AnyLine (checkExpr height p false (.name line id)) := by
  cases height <;> exact .pure

/-- A call with one argument may stand where its parts may. -/
theorem keeps_checkExpr_call {height line : Nat} {p : Script.Place} {f e : Expr}
    (hf : Keeps AnyLine (checkExpr height p false f)) (he : Keeps AnyLine (checkExpr height p false e)) :
    Keeps AnyLine (checkExpr (height + 1) p false (.call line f [.positional e])) :=
  hf.seq (.cons he .pure)

/-- A statement that adds something to the output may stand where that may. -/
theorem keeps_checkStmt_append {line : Nat} {p : Script.Place} {e : Expr}
    (he : ∀ height, Keeps AnyLine (checkExpr height p false e)) (height : Nat) :
    Keeps AnyLine (checkStmt height p (appendStmt line e)) := by
  have hline : Keeps AnyLine (set line : Check Unit) := fun _ _ => ⟨line, rfl, trivial⟩
  rcases height with _ | _ | height
  · exact .pure
  · exact hline.seq .pure
  · have hmember : Keeps AnyLine
        (checkExpr height p false (.member line (.name line Render.bufferName) "append" line)) := by
      cases height with
      | zero => exact .pure
      | succ height => exact (keeps_checkExpr_name height line p _).seq .pure
    exact hline.seq (keeps_checkExpr_call hmember (he height))

/-- An expression that makes a text of the value of a word may stand anywhere. -/
theorem keeps_checkExpr_show (line : Nat) (p : Script.Place) (escaped : Bool) (x : Word) (height : Nat) :
    Keeps AnyLine (checkExpr height p false (showExpr line escaped x)) := by
  cases height with
  | zero => exact .pure
  | succ height =>
      exact keeps_checkExpr_call (keeps_checkExpr_name height line p _)
        (keeps_checkExpr_name height line p _)

/-- A name of a template can be bound. -/
theorem Name.ne_fixedName (x : Name) : (x.id == fixedName) = false := by
  rw [beq_eq_false_iff_ne]
  intro hfixed
  have h := x.isOwn
  rw [hfixed] at h
  exact absurd h (by decide +kernel)

/-- A loop may be opened where not too many are open. -/
theorem keeps_enter {p : Script.Place} (hp : p.blocks.length < maxBlocks) {q : Script.Place → Check Unit}
    (h : ∀ b : Script.Place, b.blocks.length = p.blocks.length + 1 → Keeps AnyLine (q b)) :
    Keeps AnyLine (p.enter .loop >>= q) := by
  intro s hs
  obtain ⟨s', hrun, h'⟩ := h { p with blocks := .loop :: p.blocks } rfl s hs
  refine ⟨s', ?_, h'⟩
  have henter : p.enter .loop s = .ok ({ p with blocks := .loop :: p.blocks }, s) := by
    rw [Script.Place.enter, if_neg (Nat.not_le.2 hp)]
    rfl
  change (p.enter .loop s).bind _ = _
  rw [henter]
  exact hrun

/-- The statements of a tree may stand where as many loops may be opened as they nest. -/
theorem keeps_checkStmt {d : Nat} {ss : List Stmt} (h : Blocks d ss) {p : Script.Place}
    (hp : p.blocks.length + d ≤ maxBlocks) (height : Nat) :
    Keeps AnyLine (ss.forM (checkStmt height p)) := by
  have hline (line : Nat) : Keeps AnyLine (set line : Check Unit) :=
    fun _ _ => ⟨line, rfl, trivial⟩
  induction h generalizing height p with
  | nil => exact .pure
  | pass _ ih =>
      refine .cons ?_ (ih hp height)
      cases height with
      | zero => exact .pure
      | succ height => exact (hline _).seq .pure
  | emit _ ih =>
      refine .cons (keeps_checkStmt_append (fun n => ?_) height) (ih hp height)
      cases n <;> exact .pure
  | put _ ih =>
      exact .cons (keeps_checkStmt_append (keeps_checkExpr_show _ _ _ _) height) (ih hp height)
  | @loop d line x y body rest _ _ ihbody ih =>
      refine .cons ?_ (ih hp height)
      cases height with
      | zero => exact .pure
      | succ height =>
          have htarget : Keeps AnyLine (checkExpr height p true (.name line x.id)) := by
            cases height with
            | zero => exact .pure
            | succ height =>
                rw [checkExpr, x.ne_fixedName]
                exact .pure
          refine (hline line).seq (keeps_enter (by omega) fun b hb => ?_)
          exact (keeps_checkExpr_name height line p y.id).seq (htarget.seq
            ((ihbody (by omega) height).seq .pure))
  | @choice d line x body orelse rest _ _ _ ihbody ihorelse ih =>
      refine .cons ?_ (ih hp height)
      cases height with
      | zero => exact .pure
      | succ height =>
          exact (hline line).seq ((keeps_checkExpr_name height line p x.id).seq
            ((ihbody hp height).seq (ihorelse hp height)))

/-- The statements of a tree may stand in a script. -/
theorem checkPlacement_eq {d : Nat} {ss : List Stmt} (h : Blocks d ss) (hd : d ≤ maxBlocks)
    (height : Nat) : checkPlacement height ss = .ok () := by
  obtain ⟨line, hrun, -⟩ :=
    keeps_checkStmt h (p := Script.Place.script)
      (by rw [Script.Place.script, List.length_nil]; omega) height 0 trivial
  change (ss.forM (checkStmt height Script.Place.script) 0).bind _ = _
  rw [hrun]
  rfl

/-- The statements of a tree ask for nothing from the future. -/
theorem checkFuture_eq {d : Nat} {ss : List Stmt} (h : Blocks d ss) (first : Bool) :
    checkFuture first ss = .ok () := by
  induction h generalizing first with
  | nil => rfl
  | pass _ ih | emit _ ih | put _ ih | loop _ _ _ ih | choice _ _ _ _ _ ih => exact ih _

/-- A program that is read as statements of these kinds is a script. -/
theorem check_of_blocks {rows : List Row} {ss : List Stmt} {d : Nat}
    (hparse : parse (programText rows) = .ok ss) (h : Blocks d ss) (hd : d ≤ maxBlocks) :
    check (programText rows) = .ok ss := by
  have hnull : (programText rows).contains (Char.ofNat 0) = false := by
    rw [← Bool.not_eq_true, List.contains_iff_mem]
    intro hmem
    rcases le_toNat_or_break hmem with h | h <;> exact absurd h (by decide)
  rw [check, hnull, if_neg Bool.false_ne_true, hparse]
  dsimp only
  rw [checkFuture_eq h, checkNames_eq h, checkPlacement_eq h hd]
  rfl

/-- The program of a tree that is not nested too deep is a script. -/
theorem check_programText {ns : List Node} (hdepth : depthAll ns ≤ maxBlocks) :
    check (programText (rowsAll 0 ns)) = .ok (stmtsAll 1 ns) :=
  check_of_blocks (parse_programText (Nat.lt_of_le_of_lt hdepth (by decide)))
    (blocks_stmtsAll ns 1 hdepth) (Nat.le_refl _)

end Stencil.Tree
