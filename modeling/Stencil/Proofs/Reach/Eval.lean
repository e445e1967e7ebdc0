import Mathlib
import Stencil.Proofs.Reach.Scopes

/-!
# Expressions within limits

Evaluating an expression within limits keeps to the limits: its operands are within them, and what is done
to their values is. A call that is taken as a whole is left to the operations.
-/

namespace Stencil.Script

open Std.Do
open scoped Pairs

set_option mvcgen.warning false

variable {L : Limits} {W : Likeness L} {ops : Ops} (ho : ops.Within W) {env : Env} (henv : env.Within L)
  {line : Nat} (hl : L.line line) {v : Value} {es : List Expr} {e : Expr} {named : Members}
  {args : List Argument}

namespace Eval

@[simp, grind .] theorem within_constant {c : Constant} : (constant c).Within L := by
  cases c <;> trivial

/-! ## Displays and chains -/

section

include ho

@[spec] theorem unpacked_spec (h : v.Within L) :
    ⦃W.inside⦄ unpacked ops v ⦃W.gives (Value.Within L)⦄ := by
  mvcgen [unpacked] with grind

@[spec] theorem mappingEntries?_spec (h : v.Within L) :
    ⦃W.inside⦄ mappingEntries? ops v ⦃W.gives fun es => ∀ fs, es = some fs → fs.Within L⦄ := by
  mvcgen [mappingEntries?] with grind

include henv hl

@[spec] theorem all_spec {unpack : Value → Run Value}
    (hu : ∀ v : Value, v.Within L → ⦃W.inside⦄ unpack v ⦃W.gives (Value.Within L)⦄)
    (h : ∀ e ∈ es, e.Within L) :
    ⦃W.inside⦄ all ops env line unpack es ⦃W.gives (Value.AllWithin L)⦄ := by
  induction es with
  | nil => mvcgen [all]
  | cons e rest ih =>
    obtain ⟨he, hrest⟩ := List.forall_mem_cons.1 h
    have ih := ih hrest
    cases he <;> (unfold all; mvcgen [hu, ih] with grind)

@[spec] theorem display_spec {kind : DisplayKind} (h : ∀ e ∈ es, e.Within L) :
    ⦃W.inside⦄ display ops env line kind es ⦃W.gives (Value.Within L)⦄ := by
  have hunpacked (v : Value) (hv : v.Within L) := unpacked_spec ho hv
  have hstart (v : Value) (hv : v.Within L) := Iterate.start_spec ho hv
  mvcgen [display, hunpacked, hstart] with grind

@[spec] theorem dictItems_spec {a : Address} {items : List (Option Expr × Expr)} (ha : L.address a)
    (hk : ∀ i ∈ items, ∀ k ∈ i.1, k.Within L) (hv : ∀ i ∈ items, i.2.Within L) :
    ⦃W.inside⦄ dictItems ops env line a items ⦃W.stays⦄ := by
  induction items with
  | nil => mvcgen [dictItems]
  | cons item rest ih =>
    obtain ⟨hk, hkrest⟩ := List.forall_mem_cons.1 hk
    obtain ⟨hv, hvrest⟩ := List.forall_mem_cons.1 hv
    have ih := ih hkrest hvrest
    obtain ⟨_ | k, e⟩ := item <;> (unfold dictItems; mvcgen [ih] with grind)

@[spec] theorem logic_spec {conjunction : Bool} (h : ∀ e ∈ es, e.Within L) :
    ⦃W.inside⦄ logic ops env line conjunction es ⦃W.gives (Value.Within L)⦄ := by
  induction es with
  | nil => mvcgen [logic]
  | cons e rest ih =>
    obtain ⟨he, hrest⟩ := List.forall_mem_cons.1 h
    have ih := ih hrest
    cases rest <;> (unfold logic; mvcgen [ih] with grind)

@[spec] theorem comparisons_spec {left : Value} {rest : List (CompareOp × Expr)} (hleft : left.Within L)
    (h : ∀ r ∈ rest, r.2.Within L) :
    ⦃W.inside⦄ comparisons ops env line left rest ⦃W.gives (Value.Within L)⦄ := by
  induction rest generalizing left with
  | nil => mvcgen [comparisons]
  | cons r rest ih =>
    obtain ⟨hr, hrest⟩ := List.forall_mem_cons.1 h
    obtain ⟨op, e⟩ := r
    cases rest with
    | nil => (unfold comparisons; mvcgen with grind)
    | cons s rest =>
      have ih (left : Value) (hleft : left.Within L) := ih hleft hrest
      unfold comparisons
      mvcgen [ih] with grind

end

/-! ## Calls -/

@[spec] theorem calleeName_spec (h : v.Within L) : ⦃W.inside⦄ calleeName v ⦃W.stays⦄ := by
  mvcgen [calleeName] with grind

@[spec] theorem addNamed_spec {more : Entries} (h : v.Within L) (hnamed : named.Within L)
    (hmore : Entries.Within L more) :
    ⦃W.inside⦄ addNamed v named more ⦃W.gives (Members.Within L)⦄ := by
  induction more generalizing named with
  | nil => mvcgen [addNamed]
  | cons e more ih =>
    obtain ⟨he, hmore⟩ := Entries.within_cons.1 hmore
    have ih (named : Members) (hnamed : named.Within L) := ih hnamed hmore
    obtain ⟨k, w⟩ := e
    mvcgen [addNamed, ih] with grind

theorem within_only_star {p : Argument → Bool} (h : ∀ a ∈ args, a.Within L)
    (he : args.filter p = [.star e]) : e.Within L := by
  have hstar : Argument.star e ∈ args := List.mem_of_mem_filter (he ▸ List.mem_singleton_self _)
  cases h _ hstar
  assumption

section

include ho henv hl

@[spec] theorem positionalArguments_spec {vs : List Value} (h : ∀ a ∈ args, a.Within L)
    (hvs : Value.AllWithin L vs) :
    ⦃W.inside⦄ positionalArguments ops env line args vs ⦃W.gives (Value.AllWithin L)⦄ := by
  induction args generalizing vs with
  | nil => mvcgen [positionalArguments]
  | cons a rest ih =>
    obtain ⟨ha, hrest⟩ := List.forall_mem_cons.1 h
    have ih (vs : List Value) (hvs : Value.AllWithin L vs) := ih hrest hvs
    cases ha <;> (unfold positionalArguments; mvcgen [ih] with grind)

@[spec] theorem namedArguments_spec (hv : v.Within L) (h : ∀ a ∈ args, a.Within L)
    (hnamed : named.Within L) :
    ⦃W.inside⦄ namedArguments ops env line v args named ⦃W.gives (Members.Within L)⦄ := by
  induction args generalizing named with
  | nil => mvcgen [namedArguments]
  | cons a rest ih =>
    obtain ⟨ha, hrest⟩ := List.forall_mem_cons.1 h
    have ih (named : Members) (hnamed : named.Within L) := ih hrest hnamed
    cases ha <;> (unfold namedArguments; mvcgen [ih] with grind)

omit henv in
@[spec] theorem onlyItems_spec {w : Value} (hv : v.Within L) (hw : w.Within L) :
    ⦃W.inside⦄ onlyItems ops line v w ⦃W.gives (Value.AllWithin L)⦄ := by
  mvcgen [onlyItems] with grind

@[spec] theorem arguments_spec (hv : v.Within L) (h : ∀ a ∈ args, a.Within L) :
    ⦃W.inside⦄ arguments ops env line v args
      ⦃W.gives fun r => Value.AllWithin L r.1 ∧ r.2.Within L⦄ := by
  have honly (p : Argument → Bool) (e : Expr) : args.filter p = [.star e] → e.Within L := within_only_star h
  mvcgen [arguments] with grind

end

@[spec] theorem behind_spec (henv : env.Within L) :
    ⦃W.inside⦄ behind env ⦃W.gives (Value.Within L)⦄ := by
  mvcgen [behind] with grind [List.mem_of_find?_eq_some, List.mem_of_mem_head?]

/-- The names that have a value may be handed out as a dictionary where the namespace of a run may. -/
@[spec] theorem visible_spec (henv : env.Within L) (hwhole : L.whole) :
    ⦃W.inside⦄ visible env ⦃W.gives (Value.Within L)⦄ := by
  unfold visible
  split
  · mvcgen with grind
  · split
    · exact W.gives_read (g := fun m => Value.ref m.globals) fun hw =>
        have ⟨heq, ha⟩ := W.globals hw hwhole
        ⟨congrArg Value.ref heq, ha⟩
    · refine W.gives_bind (Run.filterMapM_spec (P := fun e => e.1.Within L ∧ e.2.Within L)
        fun x hx => ?_) fun known hknown => ?_
      · mvcgen with grind [Option.map_eq_some_iff]
      · mvcgen with grind [Entries.within_iff]

section

include ho henv hl

@[spec] theorem call_spec {callee : Expr} (hcallee : callee.Within L) (h : ∀ a ∈ args, a.Within L) :
    ⦃W.inside⦄ call ops env line callee args ⦃W.gives (Value.Within L)⦄ := by
  have hmember (l : Nat) (o : Expr) (id : String) (idLine : Nat) :
      callee = .member l o id idLine → L.line idLine := by
    rintro rfl
    cases hcallee
    assumption
  mvcgen [call] with grind

end

/-! ## Functions and comprehensions -/

/-- The lines and the trees of the loops that clauses stand for are those of the clauses. -/
theorem within_loops {inner : Stmt} {first : Bool} {clauses : List Clause}
    (hhidden : L.name hiddenSource) (hl : L.line line) (hinner : inner.Within L)
    (h : ∀ c ∈ clauses, c.Within L) : ∀ s ∈ loops line inner first clauses, s.Within L := by
  induction clauses generalizing first with
  | nil => simpa [loops] using hinner
  | cons c rest ih =>
    obtain ⟨hc, hrest⟩ := List.forall_mem_cons.1 h
    cases hc with
    | @mk _ _ target source conditions hlc ht hs hconditions =>
      have hbody : ∀ s ∈ conditions.foldr (fun c body => [Stmt.ifElse c.line c body []])
          (loops line inner false rest), s.Within L := by
        clear hlc h
        induction conditions with
        | nil => exact ih hrest
        | cons c conditions ihc =>
          obtain ⟨hc, hconditions⟩ := List.forall_mem_cons.1 hconditions
          simpa using Stmt.Within.ifElse hc.line hc (ihc hconditions) (by simp)
      have hsource : (if first then Expr.name line hiddenSource else source).Within L := by
        split
        · exact .name hl hhidden
        · exact hs
      simpa [loops] using Stmt.Within.forLoop hl ht hsource hbody (by simp)

include ho henv

@[spec] theorem bound_spec {e : Option Expr} (h : ∀ x ∈ e, x.Within L) :
    ⦃W.inside⦄ bound ops env e ⦃W.gives (Value.Within L)⦄ := by
  mvcgen [bound] with grind

/-- A parameter with the value it takes without an argument, if there is one. -/
def slot (ops : Ops) (env : Env) (p : Param) : Run (String × Option Value) := do
  match p.default with
  | some e => return (p.id, some (← ops.eval env e))
  | none => return (p.id, none)

@[spec] theorem slots_spec {ps : List Param} (h : ∀ p ∈ ps, p.Within L) :
    ⦃W.inside⦄ slots ops env ps ⦃W.gives (ParamSlot.AllWithin L)⦄ := by
  have hdefault (p : Param) (hp : p ∈ ps) : ∀ e ∈ p.default, e.Within L := by
    have := h p hp
    cases this
    assumption
  have hvalue (qs : List Param) (hqs : qs ⊆ ps) :
      ⦃W.inside⦄ qs.mapM (slot ops env) ⦃W.gives fun rs => ∀ r ∈ rs, Value.IfWithin L r.2⦄ := by
    refine Run.gives_mapM fun p hp => ?_
    mvcgen [slot] with grind
  refine W.gives_bind (hvalue _ (List.filter_subset_self ps)) fun first hfirst => ?_
  refine W.gives_bind (hvalue _ (List.filter_subset_self ps)) fun last hlast => ?_
  mvcgen
  next hw =>
  refine ⟨List.forall_mem_map.2 fun p _ => Value.ifWithin_iff.2 fun v hv => ?_, hw⟩
  obtain ⟨l₁, l₂, heq, -⟩ := List.lookup_eq_some_iff.1 (Option.join_eq_some_iff.1 hv)
  have hmem : (p.id, some v) ∈ first ++ last := by
    rw [heq]
    exact List.mem_append_right _ List.mem_cons_self
  exact (List.mem_append.1 hmem).elim (hfirst _) (hlast _)

@[spec] theorem function_spec {line : Nat} {name : String} {ps : List Param} {body : List Stmt}
    (hline : L.line line) (h : ∀ p ∈ ps, p.Within L) (hbody : ∀ s ∈ body, s.Within L)
    (hnames : ∀ id ∈ Scope.variablesOf ps body, L.binds id) :
    ⦃W.inside⦄ function ops env line name ps body ⦃W.gives (Value.Within L)⦄ := by
  unfold Scope.variablesOf at hnames
  have hcaptured (x : Variable) (hx : x ∈ Scope.captured env) : x.Within L := Scope.within_captured henv hx
  mvcgen [function] with grind

include hl

@[spec] theorem comprehension_spec {name : String} {element : Expr} {clauses : List Clause}
    (he : element.Within L) (h : ∀ c ∈ clauses, c.Within L)
    (hnames : ∀ id ∈ Scope.targetNames clauses, L.binds id) :
    ⦃W.inside⦄ comprehension ops env line name element clauses
      ⦃W.gives fun r => r.1.Within L ∧ ∀ s ∈ r.2, s.Within L⦄ := by
  have hinner : (Stmt.expr element.line (.yieldValue element.line (some element))).Within L :=
    .expr he.line (.yieldValue he.line (by simpa using he))
  have hloops : ∀ s ∈ loops line _ true clauses, s.Within L := within_loops W.hidden hl hinner h
  have hcaptured (x : Variable) (hx : x ∈ Scope.captured env) : x.Within L := Scope.within_captured henv hx
  have hhidden := W.binds.1
  match clauses, h with
  | [], h => (mvcgen [comprehension]; grind)
  | .mk _ _ _ source _ :: rest, h =>
    have hsource : source.Within L := by
      cases (List.forall_mem_cons.1 h).1
      assumption
    mvcgen [comprehension] <;> grind

omit hl in
@[spec] theorem collect_spec {n : Nat} {signal : Signal} {tasks : List Task} {acc : Array Value}
    (hsignal : signal.Within L) (htasks : ∀ t ∈ tasks, t.Within L) (hacc : Value.AllWithin L acc.toList) :
    ⦃W.inside⦄ collect ops env n signal tasks acc ⦃W.gives fun vs => Value.AllWithin L vs.toList⦄ := by
  induction n generalizing signal tasks acc with
  | zero => mvcgen [collect]
  | succ n ih => mvcgen [collect, ih] <;> grind

@[spec] theorem gathered_spec {name : String} {element : Expr} {clauses : List Clause}
    (he : element.Within L) (h : ∀ c ∈ clauses, c.Within L)
    (hnames : ∀ id ∈ Scope.targetNames clauses, L.binds id) :
    ⦃W.inside⦄ gathered ops env line name element clauses ⦃W.gives (Value.AllWithin L)⦄ := by
  mvcgen [gathered] with grind

@[spec] theorem part_spec {n : Nat} {p : Part} (h : p.Within L) :
    ⦃W.inside⦄ part ops env line n p ⦃W.stays⦄ := by
  induction n generalizing p with
  | zero => mvcgen [part]
  | succ n ih =>
    cases h with
    | text => mvcgen [part]
    | field he hformat =>
      unfold part
      mvcgen [ih] with grind

/-! ## Expressions -/

/-- Calls that are taken as a whole keep machines alike. -/
def Wraps (W : Likeness L) (ops : Ops) : Prop :=
  ∀ ⦃env : Env⦄ ⦃line : Nat⦄ ⦃callee : Expr⦄ ⦃args inner : List Argument⦄, env.Within L → L.line line →
    L.wraps callee args inner → (∀ a ∈ inner, a.Within L) →
    ⦃W.inside⦄ call ops env line callee args ⦃W.gives (Value.Within L)⦄

omit hl in
@[spec] theorem expr_spec (hwraps : Wraps W ops) (he : e.Within L) :
    ⦃W.inside⦄ expr ops env e ⦃W.gives (Value.Within L)⦄ := by
  cases he with
  | wrapped hl hf hinner => exact hwraps henv hl hf hinner
  | @comprehension _ kind _ _ hl hel hcs hnames => (cases kind <;> (unfold expr; mvcgen with grind))
  | lambda hl hps hbody hnames =>
    have hret := Stmt.Within.ret (v := some _) hbody.line (by simpa using hbody)
    unfold expr
    (mvcgen with grind)
  | @dictComprehension _ k v _ hl hk hv hcs hnames =>
    have hpair : (Expr.display k.line .tuple [k, v]).Within L := .display hk.line (by simp [hk, hv])
    unfold expr
    (mvcgen with grind)
  | _ => (unfold expr; mvcgen with grind)

end Eval

end Stencil.Script
