import Stencil.Command
import Stencil.Proofs.Bindings.Mapping

/-!
# The work of jobs

Work is put together from few pieces, each of which changes the machine, the messages or the files. What
all pieces of some work keep, the work keeps (`Work.Keeps`). Collecting the bindings keeps all but the
messages, and gives the mapping of the data file with that of the command line written over it
(`Job.keeps_collected`).
-/

namespace Stencil

open Script (Machine Value)

/-! ## Work that leaves the files alone -/

namespace Work

section

variable {α β : Type}

/-- Work that is followed by other work. -/
theorem run_bind (w : Work α) (f : α → Work β) (s : Session) : (w >>= f).run.run s =
    match w.run.run s with
    | (.ok a, s') => (f a).run.run s'
    | (.error h, s') => (.error h, s') := by
  rw [ExceptT.run_bind, StateT.run_bind]
  rcases w.run.run s with ⟨_ | _, s'⟩ <;> rfl

/-- Looking at what jobs work on. -/
theorem run_get (s : Session) : (get : Work Session).run.run s = (.ok s, s) :=
  rfl

/-- Changing what jobs work on. -/
theorem run_modify (f : Session → Session) (s : Session) :
    (modify f : Work Unit).run.run s = (.ok (), f s) :=
  rfl

/-- A job that ends because of a problem. -/
theorem run_fail (p : Problem) (s : Session) :
    (Work.fail p : Work α).run.run s = (.error (.ofProblem p), s) :=
  rfl

/-- Work that leaves messages changes nothing else. -/
theorem run_logged {ε : Type} (problem : ε → Problem) (c : Logged ε α) (s : Session) :
    (Work.logged problem c).run.run s =
      ((c.run.run s.log).1.mapError fun e => .ofProblem (problem e),
        { s with log := (c.run.run s.log).2 }) := by
  rw [Work.logged, run_bind, run_get]
  dsimp only
  cases c.run.run s.log with
  | mk result log => cases result <;> rfl

/-- Work on the machine leaves messages and changes nothing else. -/
theorem run_rendering (r : Rendering α) (s : Session) :
    (Work.rendering r).run.run s =
      ((r.run.run (s.machine, s.log)).1.mapError fun e => .ofProblem (.render e),
        { s with
          machine := (r.run.run (s.machine, s.log)).2.1
          log := (r.run.run (s.machine, s.log)).2.2 }) := by
  rw [Work.rendering, run_bind, run_get]
  dsimp only
  cases r.run.run (s.machine, s.log) with
  | mk result state => cases result <;> rfl

/-- Work that comes to its end comes to the end of its first part. -/
theorem of_run_bind {w : Work α} {f : α → Work β} {s s' : Session} {b : β}
    (h : (w >>= f).run.run s = (.ok b, s')) :
    ∃ a s₁, w.run.run s = (.ok a, s₁) ∧ (f a).run.run s₁ = (.ok b, s') := by
  rw [run_bind] at h
  rcases hw : w.run.run s with ⟨e | a, s₁⟩
  · rw [hw] at h
    cases h
  · rw [hw] at h
    exact ⟨a, s₁, rfl, h⟩

/-- Whether work that starts where a part of what jobs work on is as it should be leaves it so, and what it
gives is as a condition says. -/
def Keeps {γ : Type} (π : Session → γ) (c : γ) (Q : α → Prop) (w : Work α) : Prop :=
  ∀ s, π s = c → π (w.run.run s).2 = c ∧ ∀ a, (w.run.run s).1 = .ok a → Q a

namespace Keeps

variable {γ : Type} {π : Session → γ} {c : γ} {P : α → Prop} {Q : β → Prop} {w : Work α} {f : α → Work β}

/-- A result that is given at once. -/
theorem pure {a : α} (h : P a) : Keeps π c P (Pure.pure a) := by
  intro s hs
  refine ⟨hs, fun b hb => ?_⟩
  cases hb
  exact h

/-- A job that ends because of a problem. -/
theorem fail (p : Problem) : Keeps π c P (Work.fail p) :=
  fun _ hs => ⟨hs, nofun⟩

/-- Work that is followed by other work. -/
theorem bind (h : Keeps π c P w) (hf : ∀ a, P a → Keeps π c Q (f a)) : Keeps π c Q (w >>= f) := by
  intro s hs
  obtain ⟨hkept, hresult⟩ := h s hs
  rw [run_bind]
  rcases hw : w.run.run s with ⟨e | a, s'⟩
  · rw [hw] at hkept
    exact ⟨hkept, nofun⟩
  · rw [hw] at hkept hresult
    exact hf a (hresult a rfl) s' hkept

/-- Work whose result does not matter is followed by other work. -/
theorem next (h : Keeps π c (fun _ => True) w) (hf : ∀ a, Keeps π c Q (f a)) : Keeps π c Q (w >>= f) :=
  h.bind fun a _ => hf a

/-- What work gives is also as a weaker condition says. -/
theorem mono {P' : α → Prop} (h : Keeps π c P w) (hP : ∀ a, P a → P' a) : Keeps π c P' w :=
  fun s hs => ⟨(h s hs).1, fun a ha => hP a ((h s hs).2 a ha)⟩

/-- Looking at what jobs work on. -/
theorem get : Keeps π c (fun s => π s = c) (MonadState.get : Work Session) := by
  intro s hs
  refine ⟨hs, fun s' hs' => ?_⟩
  cases hs'
  exact hs

/-- Leaving a message. -/
theorem say (hπ : ∀ s log, π { s with log := log } = π s) (level : Nat) (message : String) :
    Keeps π c (fun _ => True) (Work.say level message) :=
  fun s hs => ⟨(hπ s _).trans hs, fun _ _ => trivial⟩

/-- Work that leaves messages. -/
theorem logged (hπ : ∀ s log, π { s with log := log } = π s) {ε : Type} (problem : ε → Problem)
    (l : Logged ε α) : Keeps π c (fun _ => True) (Work.logged problem l) :=
  fun s hs => ⟨by rw [run_logged]; exact (hπ s _).trans hs, fun _ _ => trivial⟩

/-- Work on the machine leaves the files alone. -/
theorem rendering {files : Files} (r : Rendering α) :
    Keeps Session.files files (fun _ => True) (Work.rendering r) :=
  fun s hs => ⟨by rw [run_rendering]; exact hs, fun _ _ => trivial⟩

end Keeps

end

end Work

open Work (Keeps)

/-! ## Looking for the files and collecting the bindings -/

namespace Job

section

variable {γ : Type} {π : Session → γ} {c : γ}

/-- Looking for a file. -/
theorem keeps_isFile (path : Path) : Keeps π c (fun _ => True) (isFile path) := by
  refine .bind .get fun s _ => ?_
  split
  · exact .pure trivial
  · exact .fail _

/-- Whether a file of bindings holds a text in the default encoding. -/
def HoldsData (settings : Settings) (files : Files) (path : Path) (text : Text) : Prop :=
  ∃ e bytes, Encoding.lookup settings.defaultEncoding = .ok e ∧ files.read path = .ok bytes ∧
    e.readStream bytes = .ok text

/-- Reading a file of bindings. -/
theorem keeps_readData (settings : Settings) {files : Files} (hfiles : ∀ s, π s = c → s.files = files)
    (path : Path) : Keeps π c (HoldsData settings files path) (readData settings path) := by
  unfold readData
  split
  · exact .fail _
  · exact .fail _
  · next e hlookup =>
      refine .bind .get fun s hs => ?_
      split
      · exact .fail _
      · next bytes hread =>
          split
          · next text hstream => exact .pure ⟨e, bytes, hlookup, hfiles s hs ▸ hread, hstream⟩
          · exact .fail _

/-- Adding bindings. -/
theorem keeps_addBindings (origin : String) (form : Notation) (text : Text)
    (bindings : List (Data × Data)) :
    Keeps π c (fun all => ∃ es, bindingsOfText origin form text = .ok es ∧ all = Data.merged bindings es)
      (addBindings origin form text bindings) := by
  unfold addBindings
  split
  · next es hes => exact .pure ⟨es, hes, rfl⟩
  · exact .fail _

/-- Whether a mapping is that of the data file of a job; without a data file there are no bindings. -/
def FromFile (settings : Settings) (files : Files) (j : Job) (D : List (Data × Data)) : Prop :=
  match given j.dataFile with
  | none => D = []
  | some name => ∃ text, HoldsData settings files (Path.ofString name) text ∧
      bindingsOfText (Path.ofString name).shown (notationOf (Path.ofString name)) text = .ok D

/-- Whether a mapping is that of the command line of a job, which may have none. -/
def FromContext (j : Job) (C : List (Data × Data)) : Prop :=
  match given j.context with
  | none => C = []
  | some text => bindingsOfText "--context" .yaml text.toList = .ok C

/-- The mapping of the data file has distinct keys. -/
theorem FromFile.distinctKeys {settings : Settings} {files : Files} {j : Job} {D : List (Data × Data)}
    (h : FromFile settings files j D) : Data.DistinctKeys (D.map (·.1)) := by
  unfold FromFile at h
  split at h
  · rw [h]
    exact Data.distinctKeys_nil
  · obtain ⟨text, -, hD⟩ := h
    exact distinctKeys_bindingsOfText hD

/-- The mapping of the command line has distinct keys. -/
theorem FromContext.distinctKeys {j : Job} {C : List (Data × Data)} (h : FromContext j C) :
    Data.DistinctKeys (C.map (·.1)) := by
  unfold FromContext at h
  split at h
  · rw [h]
    exact Data.distinctKeys_nil
  · exact distinctKeys_bindingsOfText h

/-- Collecting the bindings of a file. -/
theorem keeps_fileBindings (settings : Settings) {files : Files}
    (hfiles : ∀ s, π s = c → s.files = files) (hlog : ∀ s log, π { s with log := log } = π s)
    (name : String) : Keeps π c (fun D => ∃ text, HoldsData settings files (Path.ofString name) text ∧
      bindingsOfText (Path.ofString name).shown (notationOf (Path.ofString name)) text = .ok D)
      (fileBindings settings name) := by
  have hrest : Keeps π c (fun D => ∃ text, HoldsData settings files (Path.ofString name) text ∧
      bindingsOfText (Path.ofString name).shown (notationOf (Path.ofString name)) text = .ok D) (do
      let text ← readData settings (Path.ofString name)
      let bindings ← addBindings (Path.ofString name).shown (notationOf (Path.ofString name)) text []
      Work.say 2 s!"Loaded {bindings.length} bindings from {(Path.ofString name).shown}"
      return bindings : Work (List (Data × Data))) := by
    refine .bind (keeps_readData settings hfiles _) fun text htext => ?_
    refine .bind (keeps_addBindings _ _ _ _) fun D hD => ?_
    obtain ⟨es, hes, rfl⟩ := hD
    have hD : Data.merged [] es = es := Data.merged_nil (distinctKeys_bindingsOfText hes)
    exact .next (.say hlog _ _) fun _ => .pure ⟨text, htext, hD.symm ▸ hes⟩
  refine .next (keeps_isFile _) fun b => ?_
  cases b with
  | true => exact hrest
  | false => exact .next (.fail _) fun _ => hrest

/-- The bindings of a job: those of the data file, then those of the command line, which win. -/
def collected (settings : Settings) (j : Job) : Work (List (Data × Data)) := do
  let bindings ← match given j.dataFile with
    | some name => fileBindings settings name
    | none => pure []
  match given j.context with
  | some text => addBindings "--context" .yaml text.toList bindings
  | none => pure bindings

/-- Collecting the bindings. -/
theorem keeps_collected (settings : Settings) {files : Files}
    (hfiles : ∀ s, π s = c → s.files = files) (hlog : ∀ s log, π { s with log := log } = π s) (j : Job) :
    Keeps π c (fun all => ∃ D C, FromFile settings files j D ∧ FromContext j C ∧ all = Data.merged D C)
      (collected settings j) := by
  have hcontext (D : List (Data × Data)) (hD : FromFile settings files j D) :
      Keeps π c (fun all => ∃ D C, FromFile settings files j D ∧ FromContext j C ∧ all = Data.merged D C)
        (match given j.context with
          | some text => addBindings "--context" .yaml text.toList D
          | none => pure D) := by
    cases hgiven : given j.context with
    | none => exact .pure ⟨D, [], hD, by rw [FromContext, hgiven], rfl⟩
    | some text =>
        refine (keeps_addBindings _ _ _ _).mono fun all hall => ?_
        obtain ⟨C, hC, hall⟩ := hall
        exact ⟨D, C, hD, by rw [FromContext, hgiven]; exact hC, hall⟩
  unfold collected
  cases hgiven : given j.dataFile with
  | none =>
      have hD : FromFile settings files j [] := by rw [FromFile, hgiven]
      have h := hcontext [] hD
      cases hc : given j.context with
      | none => rw [hc] at h; exact h
      | some text => rw [hc] at h; exact h
  | some name =>
      have hfile : Keeps π c (FromFile settings files j) (fileBindings settings name) :=
        (keeps_fileBindings settings hfiles hlog name).mono fun D hD => by rw [FromFile, hgiven]; exact hD
      cases hc : given j.context with
      | none => exact hfile.bind fun D hD => by have h := hcontext D hD; rw [hc] at h; exact h
      | some text => exact hfile.bind fun D hD => by have h := hcontext D hD; rw [hc] at h; exact h

/-- A job whose template is there, with its bindings as a value of the machine. -/
def bound (settings : Settings) (j : Job) : Work Job := do
  Work.say 2 s!"Template file: {(Path.ofString j.templateFile).shown}"
  let bindings ← collected settings j
  let value ← Work.rendering (Rendering.ofRun (Value.ofData (.dict bindings)))
  return { j with
    templatePath := (Path.ofString j.templateFile).shown, bindings := value, checked := true }

/-- A job is checked by looking for its template and collecting the bindings. -/
theorem check_eq (settings : Settings) (j : Job) : j.check settings = (do
    Work.say 2 "Checking environment..."
    if ← isFile (Path.ofString j.templateFile) then bound settings j
    else do
      let _ ← (Work.fail (.noTemplate (Path.ofString j.templateFile).shown) : Work Unit)
      bound settings j) := by
  have hbound : bound settings j = (do
      Work.say 2 s!"Template file: {(Path.ofString j.templateFile).shown}"
      let bindings ← collected settings j
      let value ← Work.rendering (Rendering.ofRun (Value.ofData (.dict bindings)))
      return { j with
        templatePath := (Path.ofString j.templateFile).shown, bindings := value, checked := true }) := rfl
  rw [check, hbound, collected]
  cases given j.dataFile <;> cases given j.context <;> simp only [bind_assoc, pure_bind]

end

end Job

end Stencil
