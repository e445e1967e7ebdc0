import Stencil.Proofs.Error.Rendering
import Stencil.Proofs.Remark.Pieces
import Stencil.Proofs.Word.Program

/-!
# Rendering templates without code

A template of texts and remarks is compiled whatever the settings, and it renders, with any bindings and
any escaper, to itself with its remarks reduced to their line breaks (`render_reduced`).
-/

namespace Stencil.Remark

open Script Stencil.Tree

/-! ## Statements -/

/-- The statements that put texts out. -/
def textStmts (line : Nat) (ts : List (Text × Int)) : List Stmt :=
  Put.stmtsAll line (ts.map fun x => .text x.1 x.2)

/-- What instructions that emit texts put out. -/
theorem eq_texts_of_ofInstruction {ts : List (Text × Int)} {puts : List Put}
    (h : List.Forall₂ Put.OfInstruction (ts.map fun x => .emitText x.1 x.2) puts) :
    puts = ts.map fun x => .text x.1 x.2 := by
  induction ts generalizing puts with
  | nil => cases h; rfl
  | cons x ts ih =>
      cases h with
      | cons hx hts =>
          cases hx
          rw [ih hts]
          rfl

section

variable {m : Machine} {es : Entries} {b : Address} {pieces : List String}

/-- A statement that adds a text to the pieces of output. -/
theorem does_appendText (hspace : m.object? m.globals = some (.dict es))
    (hbuffer : es.named? Render.bufferName = some (.ref b))
    (hpieces : m.object? b = some (.list (pieces.map Value.str).toArray)) (line : Nat) (t : Text) :
    Does 3 (appendStmt line (textExpr line t)) m none
      ((m.onLine line).put b (.list ((pieces ++ [String.ofList t]).map Value.str).toArray)) := by
  have hpush : (pieces.map Value.str).toArray.push (.str (String.ofList t)) =
      ((pieces ++ [String.ofList t]).map Value.str).toArray := by simp
  refine .of_execute fun n hn rest => ?_
  obtain ⟨n, rfl⟩ := Nat.exists_eq_add_of_le' hn
  have hpieces : (m.onLine line).object? b = some (.list (pieces.map Value.str).toArray) := hpieces
  have hread := run_read_buffer (m := m.onLine line) hspace hbuffer line
  rw [show (appendStmt line (textExpr line t)).line = line from rfl, run_appendStmt hread hpieces,
    textExpr, run_eval_str]
  dsimp only
  rw [EStateM.run_bind, Machine.onLine_onLine, Machine.onLine_onLine, run_call_append (n + 1) hpieces,
    hpush]
  rfl

/-- Statements that put texts out add them to the pieces of output, one after the other. -/
theorem doesAll_textStmts (hspace : m.object? m.globals = some (.dict es))
    (hbuffer : es.named? Render.bufferName = some (.ref b))
    (hpieces : m.object? b = some (.list (pieces.map Value.str).toArray)) (line : Nat)
    (ts : List (Text × Int)) : ∃ m' pieces', DoesAll 3 (textStmts line ts) m none m' ∧
      m'.object? m'.globals = some (.dict es) ∧
      m'.object? b = some (.list (pieces'.map Value.str).toArray) ∧
      String.join pieces' = String.join pieces ++ String.ofList (ts.flatMap (·.1)) := by
  induction ts generalizing m pieces line with
  | nil => exact ⟨m, pieces, .nil, hspace, hpieces, by simp⟩
  | cons x ts ih =>
      obtain ⟨t, l⟩ := x
      by_cases ht : t = []
      · -- nothing is put out for an empty text
        subst ht
        exact ih hspace hpieces (line + 0)
      · have hne : b ≠ m.globals := Machine.ne_of_object? hpieces hspace nofun
        have hdoes := does_appendText hspace hbuffer hpieces line t
        obtain ⟨m', pieces', hrest, hspace', hpieces', hjoin⟩ := ih
          (m := (m.onLine line).put b (.list ((pieces ++ [String.ofList t]).map Value.str).toArray))
          ((Machine.object?_put_of_ne _ _ _ _ hne).trans hspace)
          (Machine.object?_put_self (m := m.onLine line) hpieces _)
          (line + (Put.text t l).rows.length)
        refine ⟨m', pieces', ?_, hspace', hpieces', ?_⟩
        · have hstmts : (Put.text t l).stmts line = [appendStmt line (textExpr line t)] := if_neg ht
          have hsplit : textStmts line ((t, l) :: ts) =
              appendStmt line (textExpr line t) :: textStmts (line + (Put.text t l).rows.length) ts := by
            rw [textStmts, List.map_cons, Put.stmtsAll, hstmts]
            rfl
          rw [hsplit]
          exact .cons hdoes hrest
        · rw [hjoin]
          simp [String.join_append, String.append_assoc]

end

/-! ## Rendering -/

section

variable {m : Machine} {c vars : Address} {html : Bool} {escaper : Option Value} {es : Entries}
  {names : List String} {p : Program} {ts : List (Text × Int)}

/-- Statements that put texts out, run with a context, give the texts. -/
theorem run_runBody_texts (h : m.object? c = some (.instance (contextObject html vars escaper)))
    (hvars : m.object? vars = some (.dict es)) (hnames : es.Named names) (p : Program)
    (ts : List (Text × Int)) : ∃ enough m' entry, ∀ n ≥ enough,
      (Render.runBody (operations n) p true (textStmts 1 ts) (.ref c)).run m =
        .ok (.ok (String.ofList (ts.flatMap (·.1))), entry) m' := by
  obtain ⟨i, hspace⟩ := run_namespaceOf h hvars hnames
  let m₁ := m.push (.iterator i)
  let m₂ := m₁.push (.list #[])
  let space := engineSpace (gathered es names []) c m₁.fresh
  have hglobals : (startMachine m₂ space).object? (startMachine m₂ space).globals =
      some (.dict space) := m₂.object?_push_fresh _
  have hbuffer : space.named? Render.bufferName = some (.ref m₁.fresh) :=
    (named?_engineSpace (gathered es names []) c m₁.fresh).1
  have hempty : (startMachine m₂ space).object? m₁.fresh =
      some (.list (([] : List String).map Value.str).toArray) := by
    have hlt : m₁.fresh.index < m₂.heap.size := Machine.index_lt (m₁.object?_push_fresh _)
    change (m₂.push (.dict space)).object? m₁.fresh = _
    rw [Machine.object?_push_of_lt _ _ _ hlt]
    exact m₁.object?_push_fresh _
  obtain ⟨m₃, pieces, hdoes, hspace₃, hpieces₃, hjoin⟩ :=
    doesAll_textStmts hglobals hbuffer hempty 1 ts
  obtain ⟨enough, hresume⟩ := hdoes.run_resume
  obtain ⟨m', houtput⟩ := Tree.run_output hspace₃ hbuffer hpieces₃
  have hjoin : String.join pieces = String.ofList (ts.flatMap (·.1)) := by
    rw [hjoin, String.join_nil, String.empty_append]
  rw [hjoin] at houtput
  refine ⟨max (names.length + 2) (max enough (pieces.length + 2)), m',
    ⟨3, s!"Rendered {p.name}: {(String.ofList (ts.flatMap (·.1))).length} characters"⟩, fun n hn => ?_⟩
  have hended : (endedBy (operations n) (textStmts 1 ts)).run (startMachine m₂ space) =
      .ok none m₃ := by
    refine Run.run_catching_ok ?_
    rw [EStateM.run_bind, hresume n (by omega)]
    rfl
  rw [run_runBody_eq p _ (hspace n (by omega)), EStateM.run_bind, hended]
  dsimp only
  rw [concluded, EStateM.run_bind, houtput n (by omega)]
  rfl

/-- A program whose statements put texts out gives the texts. -/
theorem run_runBy_texts (hbody : p.body = some (textStmts 1 ts))
    (h : m.object? c = some (.instance (contextObject html vars escaper)))
    (hvars : m.object? vars = some (.dict es)) (hnames : es.Named names) :
    ∃ enough m', ∀ n ≥ enough, ∀ log, ∃ log',
      (p.runBy (operations n) true (.ref c)).run.run (m, log) =
        (.ok (String.ofList (ts.flatMap (·.1))), (m', log')) := by
  obtain ⟨enough, m', entry, hrun⟩ := run_runBody_texts h hvars hnames p ts
  refine ⟨enough, m', fun n hn log => ⟨log.push entry, ?_⟩⟩
  rw [Program.runBy, hbody]
  dsimp only
  rw [run_ofRunBy_bind (hrun n hn)]
  rfl

/-- A template whose statements put texts out renders to the texts, with a mapping and with a context. -/
theorem run_renderBy_texts {t : Template} (hbody : t.program.body = some (textStmts 1 ts)) {v : Value}
    (hv : m.Supplies v) : ∃ enough m', ∀ n ≥ enough, ∀ log, ∃ log',
      (t.renderBy (operations n) v).run.run (m, log) =
        (.ok (String.ofList (ts.flatMap (·.1))), (m', log')) := by
  obtain ⟨a, es, names, rfl, hnames, hdict | ⟨html, vars, escaper, hcontext, hvars⟩⟩ := hv
  · -- a mapping is copied into a new context first
    have hempty : Entries.Named [] [] := rfl
    obtain ⟨names', hnames'⟩ := hnames.writeAll hempty
    let m₁ := m.push (.dict (es.writeAll []))
    let own := t.escaper.map fun e => Value.native (.escaper e)
    have hvars : (m₁.push (.instance (contextObject t.html m.fresh own))).object? m.fresh =
        some (.dict (es.writeAll [])) := by
      have hfresh := m.object?_push_fresh (.dict (es.writeAll []))
      exact (m₁.object?_push_of_lt _ _ (Machine.index_lt hfresh)).trans hfresh
    obtain ⟨enough, m', hrun⟩ :=
      run_runBy_texts hbody (m₁.object?_push_fresh _) hvars hnames'
    refine ⟨max enough 1, m', fun n hn log => ?_⟩
    obtain ⟨k, rfl⟩ := Nat.exists_eq_add_of_le' (show 1 ≤ n by omega)
    have hnew : (t.newContext (operations (k + 1)) es).run m =
        .ok (.ref m₁.fresh) (m₁.push (.instance (contextObject t.html m.fresh own))) :=
      run_new hnames t.html own k
    rw [Template.renderBy]
    dsimp only
    rw [run_ofRunBy_bind (run_isContext_dict hdict), if_neg Bool.false_ne_true,
      run_ofRunBy_bind (Run.run_object? m a), hdict]
    dsimp only
    rw [run_ofRunBy_bind hnew]
    exact hrun _ (by omega) log
  · obtain ⟨enough, m', hrun⟩ := run_runBy_texts hbody hcontext hvars hnames
    refine ⟨enough, m', fun n hn log => ?_⟩
    rw [Template.renderBy]
    dsimp only
    rw [run_ofRunBy_bind (run_isContext_context hcontext), if_pos rfl, pure_bind]
    exact hrun n hn log

end

/-! ## Templates -/

/-- A template without code is compiled to the statements that put out its texts, and the line breaks of
its remarks. -/
theorem compile_texts (settings : Settings) (name : String) {source : Text} {line : Int}
    (h : ∀ d, Segment.directive d ∈ Segment.scan source line → d.kind = .comment)
    (log : Array LogEntry) : ∃ p log' ts,
      (Program.ofText settings name source line).run.run log = (.ok p, log') ∧
        p.body = some (textStmts 1 ts) ∧ ts.flatMap (·.1) = reduced source := by
  obtain ⟨ts, hinstructions, htexts⟩ := exists_texts_ofSegments h
  have hputs : ∀ s ∈ Segment.scan source line, s.PutsOut := by
    intro s hs
    cases s with
    | literal t l => trivial
    | directive d => exact .inl (h d hs)
  obtain ⟨p, log', puts, hcompile, hof, hbody⟩ := compile_putsOut settings name hputs log
  rw [hinstructions] at hof
  rw [eq_texts_of_ofInstruction hof] at hbody
  exact ⟨p, log', ts, hcompile, hbody, htexts⟩

/-- A template whose directives are all remarks is compiled, and it renders to itself with each remark
reduced to the line breaks in it, whatever its mode, its escaper and the bindings. A character of a text
stands on the same line of the template and of the output, both have the same number of lines, and without
a directive they are the same. -/
theorem render_reduced (settings : Settings) (name : String) {source : Text} {line : Int}
    (h : ∀ d, Segment.directive d ∈ Segment.scan source line → d.kind = .comment)
    (log : Array LogEntry) :
    (∃ p log', (Program.ofText settings name source line).run.run log = (.ok p, log') ∧
      ∀ html escaper m v, m.Supplies v → ∃ enough m', ∀ n ≥ enough, ∀ log, ∃ log',
        ((⟨p, html, escaper⟩ : Template).renderBy (operations n) v).run.run (m, log) =
          (.ok (String.ofList (reduced source)), (m', log'))) ∧
    (pieces source).flatMap Piece.written = source ∧
    (∀ before t t' behind, pieces source = before ++ .text (t ++ t') :: behind →
      Text.breaks (before.flatMap Piece.rendered ++ t) =
        Text.breaks (before.flatMap Piece.written ++ t)) ∧
    Text.breaks (reduced source) = Text.breaks source ∧
    ((∀ d, Segment.directive d ∉ Segment.scan source line) → reduced source = source) := by
  refine ⟨?_, written_pieces source, fun before t t' behind _ => ?_, ?_, fun hnone => ?_⟩
  · obtain ⟨p, log', ts, hcompile, hbody, htexts⟩ := compile_texts settings name h log
    refine ⟨p, log', hcompile, fun html escaper m v hv => ?_⟩
    rw [← htexts]
    exact run_renderBy_texts (t := ⟨p, html, escaper⟩) hbody hv
  · have hbefore := breaks_rendered_all before
    unfold Text.breaks at hbefore ⊢
    rw [List.count_append, List.count_append, hbefore]
  · rw [reduced, breaks_rendered_all, written_pieces]
  · exact reduced_of_scan hnone

/-- A template of two remarks, one of which spans lines, among quotes, a carriage return, a null character
and a mark that is never closed. -/
def remarkedTemplate : Text :=
  "'\\\"<%# a\nb %>\r\n".toList ++ nullChar :: "<%#c%> <% ".toList

/-- The remarks of a template are reduced, for HTML with an escaper of its own. -/
theorem render_remarkedTemplate :
    (∀ d, Segment.directive d ∈ Segment.scan remarkedTemplate 1 → d.kind = .comment) ∧
    Machine.start.Supplies (.ref Machine.start.globals) ∧
    ∃ p log', (Program.ofText Settings.default "page" remarkedTemplate 1).run.run #[] = (.ok p, log') ∧
      ∃ enough m', ∀ n ≥ enough, ∀ log, ∃ log',
        ((⟨p, true, some .upper⟩ : Template).renderBy (operations n) (.ref Machine.start.globals)).run.run
          (Machine.start, log) =
            (.ok (String.ofList ("'\\\"\n\r\n".toList ++ nullChar :: " <% ".toList)), (m', log')) := by
  have hremarks : ∀ d, Segment.directive d ∈ Segment.scan remarkedTemplate 1 → d.kind = .comment := by
    have hall : (Segment.scan remarkedTemplate 1).all fun
        | .directive d => d.kind = .comment
        | .literal _ _ => true := by decide +kernel
    intro d hd
    simpa using List.all_eq_true.1 hall _ hd
  have hmapping : Machine.start.Supplies (.ref Machine.start.globals) :=
    ⟨⟨0⟩, [], [], rfl, rfl, .inl rfl⟩
  have hfirst : first? remarkedTemplate = some ("'\\\"".toList, " a\nb ".toList,
      "\r\n".toList ++ nullChar :: "<%#c%> <% ".toList) := by decide +kernel
  have hsecond : first? ("\r\n".toList ++ nullChar :: "<%#c%> <% ".toList) =
      some ("\r\n".toList ++ [nullChar], "c".toList, " <% ".toList) := by decide +kernel
  have hreduced : reduced remarkedTemplate = "'\\\"\n\r\n".toList ++ nullChar :: " <% ".toList := by
    rw [reduced_of_some hfirst, reduced_of_some hsecond, reduced_of_none (by decide +kernel)]
    rfl
  obtain ⟨⟨p, log', hcompile, hrender⟩, -⟩ :=
    render_reduced Settings.default "page" hremarks #[]
  refine ⟨hremarks, hmapping, p, log', hcompile, ?_⟩
  rw [← hreduced]
  exact hrender true (some .upper) _ _ hmapping

end Stencil.Remark
