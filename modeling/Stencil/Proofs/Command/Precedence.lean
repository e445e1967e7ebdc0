import Stencil.Proofs.Command.Work
import Stencil.Proofs.Error.Rendering
import Stencil.Proofs.Script.Handed

/-!
# Bindings of the data file and of the command line

The bindings of the command line are written over those of the data file by their keys, but a context knows
its values by the texts of the keys. A job that is ready to render gives the template a context with the last
values under each text of the mapping that comes out; whether these are the ones of the command line wherever it
has such a text depends on the keys alone (`Job.context_of_ready`).
-/

namespace Stencil

open Data (lastNamed? merged isFresh overridden Overrides Agree)
open Script (HoldsMapping Machine Value)
open Work (Keeps)

/-- A template that is rendered with a mapping runs with a new context. -/
theorem run_renderBy_dict {m : Machine} {a : Script.Address} {es : Script.Entries}
    (h : m.object? a = some (.dict es)) (ops : Script.Ops) (t : Template) (log : Array LogEntry) :
    (t.renderBy ops (.ref a)).run.run (m, log) =
      (Rendering.ofRunBy ops (t.newContext ops es) >>= t.program.runBy ops true).run.run (m, log) := by
  rw [Template.renderBy]
  dsimp only
  rw [Tree.run_ofRunBy_bind (Tree.run_isContext_dict h), if_neg Bool.false_ne_true,
    Tree.run_ofRunBy_bind (Script.Run.run_object? m a), h]

namespace Job

section

variable {settings : Settings} {j j' : Job} {s s' : Session}

/-- A value of the machine, behind a work. -/
theorem run_rendering_of_run {α : Type} {r : Script.Run α} {a : α} {m : Machine}
    (h : r.run s.machine = .ok a m) :
    (Work.rendering (Rendering.ofRun r)).run.run s = (.ok a, { s with machine := m }) := by
  rw [Work.run_rendering, Rendering.ofRun, Tree.run_ofRunBy h]
  rfl

/-- A job that has been checked has the mapping of the data file with that of the command line written over
it. -/
theorem bindings_of_check (h : (j.check settings).run.run s = (.ok j', s')) :
    ∃ D C a es, FromFile settings s.files j D ∧ FromContext j C ∧ j'.bindings = .ref a ∧
      s'.machine.object? a = some (.dict es) ∧ Script.MadeBy Script.keyValue s'.machine es (merged D C) := by
  rw [check_eq] at h
  obtain ⟨_, s₁, hsay, h⟩ := Work.of_run_bind h
  obtain ⟨b, s₂, hfile, h⟩ := Work.of_run_bind h
  have hfiles₁ : s₁.files = s.files := by cases hsay; rfl
  have hfiles₂ : s₂.files = s.files := by
    have hkeeps := (keeps_isFile (Path.ofString j.templateFile) : Keeps Session.files _ _ _) s₁ hfiles₁
    rw [hfile] at hkeeps
    exact hkeeps.1
  cases b with
  | false =>
      obtain ⟨_, _, hfail, -⟩ := Work.of_run_bind h
      cases hfail
  | true =>
      obtain ⟨_, s₃, hsay', h⟩ := Work.of_run_bind h
      obtain ⟨all, s₄, hcollected, h⟩ := Work.of_run_bind h
      have hfiles₃ : s₃.files = s.files := by cases hsay'; exact hfiles₂
      have hkeeps := keeps_collected settings (fun _ => id) (fun _ _ => rfl) j s₃ hfiles₃
      rw [hcollected] at hkeeps
      obtain ⟨D, C, hD, hC, rfl⟩ := hkeeps.2 all rfl
      have hkeys := hD.distinctKeys.merged fun e he => hC.distinctKeys.isKey _ (List.mem_map_of_mem he)
      obtain ⟨es, m, hrun, hext, hmade⟩ := Script.run_ofEntries_made (merged D C)
        (fun e he => hkeys.isKey _ (List.mem_map_of_mem he)) s₄.machine
      have hvalue : (Value.ofData (.dict (merged D C))).run s₄.machine =
          .ok (.ref m.fresh) (m.push (.dict es)) := by
        rw [Value.ofData, EStateM.run_bind, hrun]
        rfl
      rw [Work.run_bind, run_rendering_of_run hvalue] at h
      cases h
      exact ⟨D, C, m.fresh, es, hD, hC, rfl, m.object?_push_fresh _, hmade.extends (.push m _)⟩

/-- Reading the template keeps the objects and the bindings. -/
theorem keeps_bindings_load (settings : Settings) (j : Job) {m : Machine} :
    Keeps Session.machine m (fun j' => j'.bindings = j.bindings) (j.load settings) :=
  .next (.say (fun _ _ => rfl) _ _) fun _ => .bind .get fun _ _ =>
    .next (.logged (fun _ _ => rfl) _ _) fun _ => .pure rfl

/-- Compiling the template keeps the objects and the bindings. -/
theorem keeps_bindings_compile (settings : Settings) (j : Job) {m : Machine} :
    Keeps Session.machine m (fun j' => j'.bindings = j.bindings) (j.compile settings) := by
  unfold compile
  split
  · exact .pure rfl
  · exact .next (.say (fun _ _ => rfl) _ _) fun _ => .next (.logged (fun _ _ => rfl) _ _) fun _ =>
      .next (.say (fun _ _ => rfl) _ _) fun _ => .pure rfl

/-- A job that is ready to render has the mapping of the data file with that of the command line written over
it. -/
theorem bindings_of_ready
    (h : (Stage.runAll settings [.check, .load, .compile] j).run.run s = (.ok j', s')) :
    ∃ D C a es, FromFile settings s.files j D ∧ FromContext j C ∧ j'.bindings = .ref a ∧
      s'.machine.object? a = some (.dict es) ∧ Script.MadeBy Script.keyValue s'.machine es (merged D C) := by
  obtain ⟨j₁, s₁, hcheck, h⟩ := Work.of_run_bind h
  obtain ⟨j₂, s₂, hload, h⟩ := Work.of_run_bind h
  obtain ⟨j₃, s₃, hcompile, h⟩ := Work.of_run_bind h
  cases h
  have hkeeps := keeps_bindings_load settings j₁ s₁ rfl
  change (j₁.load settings).run.run s₁ = _ at hload
  rw [hload] at hkeeps
  have hkeeps' := keeps_bindings_compile settings j₂ s₂ rfl
  change (j₂.compile settings).run.run s₂ = _ at hcompile
  rw [hcompile] at hkeeps'
  have hmachine : s'.machine = s₁.machine := hkeeps'.1.trans hkeeps.1
  have hbindings : j'.bindings = j₁.bindings := (hkeeps'.2 _ rfl).trans (hkeeps.2 _ rfl)
  rw [hmachine, hbindings]
  exact bindings_of_check hcheck

/-- The context that a template gets from a job that is ready to render: under each name it has the value of
the last key with that text, where the keys of the command line that the data file lacks come last and the
others have their places in the data file. Whether the command line wins for a name, whatever the
values, depends on the keys. Where an integer key has too many digits, there is no context and no output. -/
theorem context_of_ready
    (h : (Stage.runAll settings [.check, .load, .compile] j).run.run s = (.ok j', s')) (t : Template) :
    ∃ D C, FromFile settings s.files j D ∧ FromContext j C ∧
      (if (merged D C).all fun e => e.1.isShort then
        ∃ c m, (t.contextOf templateOps j'.bindings).run s'.machine = .ok c m ∧
          (∀ log, (t.render j'.bindings).run.run (s'.machine, log) =
            (t.program.run true c).run.run (m, log)) ∧
          HoldsMapping templateOps m c (merged D C)
      else ∀ log text after, (t.render j'.bindings).run.run (s'.machine, log) ≠ (.ok text, after)) ∧
      ∀ name, lastNamed? name (merged D C) =
          (lastNamed? name (C.filter (isFresh D))).or (lastNamed? name (D.map (overridden C))) ∧
        (Overrides (D.map (·.1)) (C.map (·.1)) name ↔ Agree (D.map (·.1)) (C.map (·.1)) name) := by
  obtain ⟨D, C, a, es, hD, hC, hbindings, hdict, hmade⟩ := bindings_of_ready h
  have hkeys := hD.distinctKeys.merged fun e he => hC.distinctKeys.isKey _ (List.mem_map_of_mem he)
  refine ⟨D, C, hD, hC, ?_, fun name => ⟨?_, ?_⟩⟩
  · have hnew := Script.run_new_of_made hmade (fun e he => hkeys.isKey _ (List.mem_map_of_mem he)) t.html
      (t.escaper.map fun e => .native (.escaper e)) (stepLimit - 2)
    rw [hbindings]
    split
    · next hshort =>
        rw [if_pos hshort] at hnew
        obtain ⟨c, m, hrun, hholds⟩ := hnew
        change (t.newContext templateOps es).run s'.machine = .ok c m at hrun
        refine ⟨c, m, (run_contextOf_dict hdict templateOps t).trans hrun, fun log => ?_, hholds⟩
        exact (run_renderBy_dict hdict templateOps t log).trans (Tree.run_ofRunBy_bind hrun _)
    · next hlong =>
        rw [if_neg hlong] at hnew
        obtain ⟨e, m, hrun⟩ := hnew
        change (t.newContext templateOps es).run s'.machine = .error (.raised e) m at hrun
        intro log text after hrender
        obtain ⟨c, m', hok, -⟩ := Tree.exists_of_run_ofRunBy_bind
          ((run_renderBy_dict hdict templateOps t log).symm.trans hrender)
        cases hrun.symm.trans hok
  · rw [Data.merged_eq hD.distinctKeys hC.distinctKeys, Data.lastNamed?_append]
  · exact Data.overrides_iff hD.distinctKeys hC.distinctKeys name

end

/-- A template, and a data file whose keys are a string and an integer with the same text. -/
def twinFiles : Files :=
  ⟨[(["t"], .file (Utf8.encode ['x'])), (["d"], .file (Utf8.encode "'1': d\n1: e".toList))], []⟩

/-- A job with another value for the string of the data file. -/
def twinJob : Job :=
  .ofOptions { Options.initial with template := "t", dataFile := some "d", context := some "'1': c" } .none

/-- The job is ready to render. -/
theorem twinJob_ready : ∃ j s, (Stage.runAll .default [.check, .load, .compile] twinJob).run.run
    ⟨Machine.start, #[], twinFiles⟩ = (.ok j, s) := by
  have hready : ((Stage.runAll .default [.check, .load, .compile] twinJob).run.run
      ⟨Machine.start, #[], twinFiles⟩).1.isOk = true := by decide +kernel
  rcases hrun : (Stage.runAll .default [.check, .load, .compile] twinJob).run.run
      ⟨Machine.start, #[], twinFiles⟩ with ⟨e | j, s⟩
  · rw [hrun] at hready
    cases hready
  · exact ⟨j, s, rfl⟩

/-- The string or the integer that a key is. -/
def simpleKey? : Data → Option (String ⊕ Int)
  | .str s => some (.inl s)
  | .int i => some (.inr i)
  | _ => none

/-- Keys that are strings and integers are known by them. -/
theorem eq_map_of_simpleKey? {ks : List Data} {xs : List (String ⊕ Int)}
    (h : ks.map simpleKey? = xs.map some) : ks = xs.map (Sum.elim .str .int) := by
  induction ks generalizing xs with
  | nil => rw [List.map_eq_nil_iff.1 h.symm, List.map_nil]
  | cons k ks ih =>
      cases xs with
      | nil => cases h
      | cons x xs =>
          obtain ⟨hk, hks⟩ := List.cons_eq_cons.1 h
          have hkey : k = Sum.elim Data.str Data.int x := by
            cases k <;> cases hk <;> rfl
          rw [ih hks, hkey, List.map_cons]

/-- The keys of the data file. -/
theorem keys_of_twinFiles {D : List (Data × Data)} (h : FromFile .default twinFiles twinJob D) :
    D.map (·.1) = [.str "1", .int 1] := by
  obtain ⟨text, ⟨e, bytes, hlookup, hread, hstream⟩, hD⟩ := h
  have hencoding : Encoding.lookup Settings.default.defaultEncoding = .ok .utf8 := by decide +kernel
  cases hencoding.symm.trans hlookup
  have hbytes : twinFiles.read (Path.ofString "d") = .ok (Utf8.encode "'1': d\n1: e".toList) := by
    decide +kernel
  cases hbytes.symm.trans hread
  have htext : Encoding.utf8.readStream (Utf8.encode "'1': d\n1: e".toList) =
      .ok "'1': d\n1: e".toList := by decide +kernel
  cases htext.symm.trans hstream
  have hkeys : ((bindingsOfText (Path.ofString "d").shown (notationOf (Path.ofString "d"))
      "'1': d\n1: e".toList).toOption.map fun es => (es.map (·.1)).map simpleKey?) =
        some ([.inl "1", .inr 1].map some) := by decide +kernel
  rw [hD] at hkeys
  exact eq_map_of_simpleKey? (Option.some.inj hkeys)

/-- The keys of the command line. -/
theorem keys_of_twinJob {C : List (Data × Data)} (h : FromContext twinJob C) :
    C.map (·.1) = [.str "1"] := by
  have hC : bindingsOfText "--context" .yaml "'1': c".toList = .ok C := h
  have hkeys : ((bindingsOfText "--context" .yaml "'1': c".toList).toOption.map fun es =>
      (es.map (·.1)).map simpleKey?) = some ([.inl "1"].map some) := by decide +kernel
  rw [hC] at hkeys
  exact eq_map_of_simpleKey? (Option.some.inj hkeys)

/-- The value of the command line does not win: the integer of the data file comes behind its key. -/
theorem not_overrides_twinJob : ∃ j s, (Stage.runAll .default [.check, .load, .compile] twinJob).run.run
      ⟨Machine.start, #[], twinFiles⟩ = (.ok j, s) ∧
    ∀ _ : Template, ∃ D C, FromFile .default twinFiles twinJob D ∧ FromContext twinJob C ∧
      ¬ Overrides (D.map (·.1)) (C.map (·.1)) "1" := by
  obtain ⟨j, s, h⟩ := twinJob_ready
  refine ⟨j, s, h, fun t => ?_⟩
  obtain ⟨D, C, hD, hC, -, hname⟩ := context_of_ready h t
  refine ⟨D, C, hD, hC, fun hoverrides => ?_⟩
  have hagree := (hname "1").2.1 hoverrides
  rw [keys_of_twinFiles hD, keys_of_twinJob hC] at hagree
  have hlast : Data.lastKey? "1" [.str "1", .int 1] = some (.str "1") :=
    (hagree.overriding (.str "1") rfl (.str "1") List.mem_cons_self rfl).1
  have hinteger : Data.lastKey? "1" [.str "1", .int 1] = some (.int 1) := rfl
  cases hinteger.symm.trans hlast

end Job

end Stencil
