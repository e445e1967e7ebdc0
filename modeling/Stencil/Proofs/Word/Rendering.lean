import Stencil.Proofs.Script.Giving
import Stencil.Proofs.Tree.Rendering
import Stencil.Proofs.Word.Program

/-!
# Rendering templates that only put something out

When a template for HTML that only puts something out gives an output, the output is, one after the other,
its texts and the escaped texts of the values of its words, whatever the bindings and whatever the number
of steps that it may take (`shows_of_renderBy`).
-/

namespace Stencil.Tree

open Script

/-! ## Statements -/

section

variable {L : Layout} {s : State} {m : Machine}

/-- The method that adds to the output, whatever the number of steps. -/
theorem Layout.Fits.gives_appender (h : L.Fits s m) (line : Nat) : (n : Nat) →
    Gives ((operations n).eval Env.top (.member line (.name line Render.bufferName) "append" line)) m
      fun f m' => f = .method (.ref L.buffer) "append" ∧ m' = m.onLine line
  | 0 => .of_error rfl
  | 1 => .of_error rfl
  | n + 2 => .of_ok (h.run_appender line (Nat.le_add_left 2 n)) ⟨rfl, rfl⟩

/-- A statement that adds a text of some kind to the output. -/
theorem Layout.Fits.gives_append (h : L.Fits s m) (line : Nat) {e : Expr} {P : String → Prop}
    (he : ∀ n, Gives ((operations n).eval Env.top e) (m.onLine line) fun v m' =>
      (∃ t, v = .str t ∧ P t) ∧ m' = m.onLine line) (n : Nat) (rest : List Task) :
    Gives (Statement.execute (operations n) Env.top (appendStmt line e) rest) m fun move m' =>
      move = .next .proceed rest ∧ ∃ t, P t ∧ L.Fits (s.write t) m' := by
  have hcall : Gives ((operations n).eval Env.top (.call line
      (.member line (.name line Render.bufferName) "append" line) [.positional e])) m
      fun _ m' => ∃ t, P t ∧ L.Fits (s.write t) m' := by
    refine gives_eval_call (fun l o id idLine heq => by cases heq; rfl) (fun n => ?_) n
    refine (h.gives_appender line n).imp ?_
    rintro f m₁ ⟨rfl, rfl⟩
    refine (he n).imp ?_
    rintro v m₂ ⟨⟨t, rfl, ht⟩, rfl⟩
    obtain ⟨xs, hxs, hfits⟩ := (h.onLine line).write t
    rw [Machine.onLine_onLine]
    cases n with
    | zero => exact .of_error rfl
    | succ n => exact .of_ok (run_call_append n hxs _) ⟨t, ht, hfits⟩
  exact Gives.bind (hcall.imp fun _ _ hm' => .pure ⟨rfl, hm'⟩)

/-- The function that escapes the values of words, whatever the number of steps. -/
theorem Layout.Fits.gives_wrapper (h : L.Fits s m) (line : Nat) : (n : Nat) →
    Gives ((operations n).eval Env.top (.name line (String.ofList (wrapper true)))) m fun f m' =>
      f = .method (.ref L.context) "escape" ∧ m' = m.onLine line
  | 0 => .of_error rfl
  | n + 1 => .of_ok (h.run_wrapper line true (Nat.le_add_left 1 n)) ⟨rfl, rfl⟩

/-- Making plain text of what a word stands for, which is one of the bindings or a built-in value, leaves
the machine as it is. -/
theorem Layout.Fits.gives_word (h : L.Fits s m) {x : Word} (own : x.id ∉ engineNames) (line n : Nat) :
    Gives ((operations n).eval Env.top (.name line x.id)) m fun v m' =>
      m' = m.onLine line ∧ ∀ n, LeavesBe (plainText (operations n) v) m' := by
  obtain ⟨es, hes, hspace⟩ := h.space
  have hglobals : m.object? m.globals = some (.dict es) := by
    rw [h.globals, hes]
  refine (gives_eval_name hglobals line x.id n).imp ?_
  rintro v m' ⟨rfl, hv | ⟨-, hv⟩⟩
  · have hvalue := hspace.names x.id own
    rw [hv] at hvalue
    generalize s.values x.id = d at hvalue
    cases hvalue with
    | some hd =>
        have hd' : Denotes (m.onLine line) L.bound _ _ := hd.frame fun _ _ => rfl
        exact ⟨rfl, hd'.leavesBe_plainText⟩
  · exact ⟨rfl, leavesBe_plainText_builtin hv⟩

/-- What a word is put out as in a template for HTML is an escaped text. -/
theorem Layout.Fits.gives_show (h : L.Fits s m) (hhtml : L.html = true) {x : Word}
    (own : x.id ∉ engineNames) (line n : Nat) :
    Gives ((operations n).eval Env.top (showExpr line true x)) m fun v m' =>
      (∃ t, v = .str t ∧ ∃ t', t = Escape.htmlString t') ∧ m' = m.onLine line := by
  obtain ⟨i, hi, hcls, hown⟩ := h.context
  have hkind : L.contextKind = .html := by
    rw [Layout.contextKind, hhtml]
    rfl
  rw [hkind] at hcls
  refine gives_eval_call (fun l o id idLine heq => by cases heq) (fun n => ?_) n
  refine (h.gives_wrapper line n).imp ?_
  rintro f m₁ ⟨rfl, rfl⟩
  refine ((h.onLine line).gives_word own line n).imp ?_
  rintro v m₂ ⟨rfl, hv⟩
  rw [Machine.onLine_onLine, Machine.onLine_onLine] at *
  cases n with
  | zero => exact .of_error rfl
  | succ n =>
      refine .of_run_eq (run_call_escape n ((m.object?_onLine _ line).trans hi) hcls hown rfl v) ?_
      exact .bind ((hv n).imp fun t m' (hm' : m' = _) => .pure ⟨⟨_, rfl, t, rfl⟩, hm'⟩)

end

/-! ## The output -/

/-- The output is the pieces put together, whatever the number of steps. -/
theorem Layout.Fits.gives_output {L : Layout} {s : State} {m : Machine} (h : L.Fits s m) (n : Nat) :
    Gives (Render.output (operations n)) m fun t _ => t = s.output := by
  obtain ⟨es, hes, hspace⟩ := h.space
  obtain ⟨pieces, hpieces, houtput⟩ := h.buffer
  rw [← houtput]
  exact (calm_output (h.globals ▸ hes) hspace.buffer hpieces n).gives

/-! ## Runs -/

end Stencil.Tree

namespace Stencil.Put

open Script Stencil.Tree

/-- What something that is put out may be shown as: a text as itself, and the value of a word as some text
that is escaped. -/
def Shows : Put → String → Prop
  | text t _, shown => shown = String.ofList t
  | value _ _ _, shown => ∃ t, shown = Escape.htmlString t

variable {L : Layout} {s : State} {m : Machine}

/-- The statements for what is put out add what it is shown as to the output, one after the other. -/
theorem gives_run (hhtml : L.html = true) (puts : List Put) (line : Nat) (h : L.Fits s m) (n fuel : Nat) :
    Gives (Statement.run (operations n) Env.top fuel .proceed (pending (stmtsAll line puts) [])) m
      fun _ m' => ∃ shown, List.Forall₂ Shows puts shown ∧ L.Fits (s.write (String.join shown)) m' := by
  induction puts generalizing line s m fuel with
  | nil =>
      have hfits : L.Fits (s.write (String.join [])) m := by
        rw [String.join_nil, State.write, String.append_empty]
        exact h
      cases fuel with
      | zero => exact .of_error rfl
      | succ fuel => exact .pure ⟨[], .nil, hfits⟩
  | cons p puts ih =>
      -- what is shown next is written behind what has been shown
      have hnext {t : String} (ht : p.Shows t) {m' : Machine} (hm' : L.Fits (s.write t) m') (fuel : Nat) :
          Gives (Statement.run (operations n) Env.top fuel .proceed
            (pending (stmtsAll (line + p.rows.length) puts) [])) m' fun _ m'' =>
              ∃ shown, List.Forall₂ Shows (p :: puts) shown ∧ L.Fits (s.write (String.join shown)) m'' := by
        refine (ih _ hm' fuel).imp ?_
        rintro r m'' ⟨shown, hshown, hfits⟩
        refine ⟨t :: shown, .cons ht hshown, ?_⟩
        rw [String.join_cons, State.write, ← String.append_assoc]
        exact hfits
      cases p with
      | text t l =>
          by_cases ht : t = []
          · subst ht
            have hfits : L.Fits (s.write (String.ofList [])) m := by
              rw [State.write, String.ofList_nil, String.append_empty]
              exact h
            exact hnext rfl hfits fuel
          · have hstmts : (text t l).stmts line = [appendStmt line (textExpr line t)] := if_neg ht
            rw [stmtsAll, hstmts, List.singleton_append]
            refine gives_run_cons
              ((h.onLine line).gives_append line (P := fun t' => t' = String.ofList t) ?_ n) ?_ fuel
            · intro n
              cases n with
              | zero => exact .of_error rfl
              | succ n => exact .of_ok (run_eval_str n line _) ⟨⟨_, rfl, rfl⟩, rfl⟩
            · rintro m' ⟨t', rfl, hm'⟩ fuel
              exact hnext rfl hm' fuel
      | value x own l =>
          refine gives_run_cons
            ((h.onLine line).gives_append line (P := fun t => ∃ t', t = Escape.htmlString t') ?_ n) ?_ fuel
          · intro n
            refine ((h.onLine line).gives_show hhtml own line n).imp ?_
            rintro v m' ⟨hv, rfl⟩
            exact ⟨hv, Machine.onLine_onLine ..⟩
          · rintro m' ⟨t, ht, hm'⟩ fuel
            exact hnext ht hm' fuel

/-- The run of the statements for what is put out ends, if it does so in the usual way, with what each of
it is shown as in the output. -/
theorem gives_endedBy (hhtml : L.html = true) (puts : List Put) (h : L.Fits s m) (n : Nat) :
    Gives (endedBy (operations n) (stmtsAll 1 puts)) m fun r m' => r = none →
      ∃ shown, List.Forall₂ Shows puts shown ∧ L.Fits (s.write (String.join shown)) m' := by
  have hresume : Gives ((operations n).resume Env.top .proceed [.run (stmtsAll 1 puts)]) m fun _ m' =>
      ∃ shown, List.Forall₂ Shows puts shown ∧ L.Fits (s.write (String.join shown)) m' := by
    cases n with
    | zero => exact .of_error rfl
    | succ n =>
        cases hstmts : stmtsAll 1 puts with
        | cons first rest =>
            have hrun := gives_run hhtml puts 1 h n n
            rw [hstmts] at hrun
            exact hrun
        | nil =>
            cases n with
            | zero => exact .of_error rfl
            | succ n =>
                have hrun := gives_run hhtml puts 1 h (n + 1) n
                rw [hstmts] at hrun
                exact hrun
  refine .catching (.bind (hresume.imp fun _ _ hshown => .pure fun _ => hshown)) fun e m' _ => ?_
  refine .bind fun b m'' _ => ?_
  cases b with
  | true => exact .pure nofun
  | false => exact .of_error rfl

section

variable {p : Program} {puts : List Put} {m : Machine}

/-- What a run of the statements for what is put out gives, if it gives an output, is what each of it is
shown as. -/
theorem gives_runBody {c vars : Address} {es : Entries} {names : List String} {bound : Nat}
    {bindings : List (String × Data)} (h : m.object? c = some (.instance (contextObject true vars)))
    (hvars : m.object? vars = some (.dict es)) (hnames : es.Named names)
    (hvalues : ∀ name, Option.Rel (Denotes m bound) (es.named? name)
      ((State.start bindings).values name))
    (hbound : bound ≤ c.index) (hshowing : m.showing = []) (n : Nat) :
    Gives (Render.runBody (operations n) p true (stmtsAll 1 puts) (.ref c)) m fun r _ =>
      ∀ out, r.1 = .ok out → ∃ shown, List.Forall₂ Shows puts shown ∧ out = String.join shown := by
  obtain ⟨i, hspace⟩ := calm_namespaceOf h hvars hnames
  have hfits := fits_start h hnames hvalues hbound hshowing i
  have hended := gives_endedBy (L := startLayout true bound c m i) rfl puts hfits n
  intro r m' hrun
  cases hnamespace : (Render.namespaceOf (operations n) (.ref c)).run m with
  | error stop m₁ =>
      rw [Render.runBody, EStateM.run_bind, hnamespace] at hrun
      cases hrun
  | ok space m₁ =>
      obtain ⟨rfl, rfl⟩ := (hspace n).gives _ _ hnamespace
      rw [run_runBody_eq p _ hnamespace] at hrun
      refine (?_ : Gives _ _ fun r _ => ∀ out, r.1 = .ok out →
        ∃ shown, List.Forall₂ Shows puts shown ∧ out = String.join shown) r m' hrun
      refine .bind (hended.imp ?_)
      rintro (- | e) m₂ hnone
      · obtain ⟨shown, hshown, hfits₂⟩ := hnone rfl
        refine .bind ((hfits₂.gives_output n).imp ?_)
        rintro t m₃ rfl
        refine .pure fun out hout => ⟨shown, hshown, ?_⟩
        cases hout
        rw [State.write, State.output_start, String.empty_append]
      · refine Gives.bind fun _ _ _ => .pure ?_
        intro out hout
        cases hout

/-- What a program for what is put out gives, if it gives an output, is what each of it is shown as. -/
theorem shows_of_runBy (hbody : p.body = some (stmtsAll 1 puts)) {context : Value} {n : Nat}
    (hgives : Gives (Render.runBody (operations n) p true (stmtsAll 1 puts) context) m fun r _ =>
      ∀ out, r.1 = .ok out → ∃ shown, List.Forall₂ Shows puts shown ∧ out = String.join shown)
    {log : Array LogEntry} {out : String} {after : Machine × Array LogEntry}
    (hrun : (p.runBy (operations n) true context).run.run (m, log) = (.ok out, after)) :
    ∃ shown, List.Forall₂ Shows puts shown ∧ out = String.join shown := by
  rw [Program.runBy, hbody] at hrun
  obtain ⟨⟨result, entry⟩, m', hresult, hrest⟩ := exists_of_run_ofRunBy_bind hrun
  cases result with
  | error e => cases hrest
  | ok text =>
      cases hrest
      exact hgives _ _ hresult out rfl

/-- What a template for what is put out gives for a mapping of bindings, if it gives an output, is what
each of it is shown as. -/
theorem shows_of_renderBy {a : Address} {es : Entries} {bindings : List (String × Data)}
    (hbody : p.body = some (stmtsAll 1 puts)) (hobject : m.object? a = some (.dict es))
    (hentries : DenoteEntries m m.heap.size es (mappingOf bindings)) (hshowing : m.showing = []) {n : Nat}
    {log : Array LogEntry} {out : String} {after : Machine × Array LogEntry}
    (hrun : ((⟨p, true, none⟩ : Template).renderBy (operations n) (.ref a)).run.run (m, log) =
      (.ok out, after)) : ∃ shown, List.Forall₂ Shows puts shown ∧ out = String.join shown := by
  cases n with
  | zero =>
      -- a context may be made without a step, but not asked for its bindings
      rw [Template.renderBy] at hrun
      dsimp only at hrun
      rw [run_ofRunBy_bind (run_isContext_dict hobject), if_neg Bool.false_ne_true,
        run_ofRunBy_bind (Run.run_object? m a), hobject] at hrun
      obtain ⟨context, m', -, hrest⟩ := exists_of_run_ofRunBy_bind hrun
      exact shows_of_runBy hbody (.of_error rfl) hrest
  | succ n =>
      obtain ⟨hcontext, hvars, ⟨names, hnames⟩, hvalues⟩ := contextMachine_holds true hentries
      have hbound : m.heap.size ≤ (contextAddress es m).index :=
        Nat.le_trans (Nat.le_succ _) (Nat.le_of_eq (Array.size_push _).symm)
      rw [run_renderBy_eq true hobject (named_mappingOf hentries)] at hrun
      exact shows_of_runBy hbody
        (gives_runBody hcontext hvars hnames hvalues hbound hshowing (n + 1)) hrun

end

end Stencil.Put
