import Stencil.Proofs.Command.Work
import Stencil.Proofs.Encoding.RoundTrip
import Stencil.Proofs.Files.Writing

/-!
# The files that a command changes

Of all stages only the report writes a file, so a command that fails before it leaves every file alone. The
report empties the file that is named for the output before it turns out whether the text can be encoded. So
a failing command changes a file exactly if that text has no bytes in the default encoding
(`Command.files_of_run`).
-/

namespace Stencil

open Script (Machine Value)

open Work (Keeps)

/-! ## The stages before the report -/

namespace Job

section

variable {files : Files}

/-- Looking for the files and collecting the bindings. -/
theorem keeps_check (settings : Settings) (j : Job) :
    Keeps Session.files files (fun j' => j'.output = j.output) (j.check settings) := by
  have hcollected : Keeps Session.files files (fun _ => True) (collected settings j) :=
    (keeps_collected settings (fun _ => id) (fun _ _ => rfl) j).mono fun _ _ => trivial
  have hbound : Keeps Session.files files (fun j' => j'.output = j.output) (bound settings j) :=
    .next (.say (fun _ _ => rfl) _ _) fun _ => .next hcollected fun _ => .next (.rendering _) fun _ => .pure rfl
  rw [check_eq]
  refine .next (.say (fun _ _ => rfl) _ _) fun _ => .next (keeps_isFile _) fun b => ?_
  cases b with
  | true => exact hbound
  | false => exact .next (.fail _) fun _ => hbound

/-- Reading the template. -/
theorem keeps_load (settings : Settings) (j : Job) :
    Keeps Session.files files (fun j' => j'.output = j.output) (j.load settings) :=
  .next (.say (fun _ _ => rfl) _ _) fun _ => .bind .get fun _ _ =>
    .next (.logged (fun _ _ => rfl) _ _) fun _ => .pure rfl

/-- Compiling the template. -/
theorem keeps_compile (settings : Settings) (j : Job) :
    Keeps Session.files files (fun j' => j'.output = j.output) (j.compile settings) := by
  unfold compile
  split
  · exact .pure rfl
  · exact .next (.say (fun _ _ => rfl) _ _) fun _ => .next (.logged (fun _ _ => rfl) _ _) fun _ =>
      .next (.say (fun _ _ => rfl) _ _) fun _ => .pure rfl

/-- Rendering the template gives a text. -/
theorem keeps_render (j : Job) :
    Keeps Session.files files (fun j' => j'.output = j.output ∧ j'.result.isSome) j.render := by
  have hsay : Keeps Session.files files (fun _ => True) (Work.say 1 "Rendering...") :=
    .say (fun _ _ => rfl) _ _
  unfold render
  cases j.highlight with
  | true => exact .pure ⟨rfl, rfl⟩
  | false => cases j.showSource with
    | true => cases j.template with
      | none => exact .next (.fail _) fun _ => .next hsay fun _ => .fail _
      | some t => exact .pure ⟨rfl, rfl⟩
    | false => cases j.template with
      | none => exact .next hsay fun _ => .fail _
      | some t => exact .next hsay fun _ => .next (.rendering _) fun _ => .pure ⟨rfl, rfl⟩

end

/-- The bytes of a text in the encoding of a name; there are none if there is no such encoding or it lacks
a character. -/
def bytes? (encoding : String) (text : String) : Option Bytes :=
  match Encoding.lookup encoding with
  | .ok e => (e.encode text.toList).toOption
  | .error _ => none

/-- The bytes of a text come from the encoding of the name. -/
theorem bytes?_eq_some {encoding text : String} {bytes : Bytes} (h : bytes? encoding text = some bytes) :
    ∃ e, Encoding.lookup encoding = .ok e ∧ e.encode text.toList = .ok bytes := by
  unfold bytes? at h
  cases hlookup : Encoding.lookup encoding with
  | error fault => rw [hlookup] at h; cases h
  | ok e =>
      refine ⟨e, rfl, ?_⟩
      rw [hlookup] at h
      cases hencode : e.encode text.toList with
      | error fault => simp [hencode, Except.toOption] at h
      | ok bytes' => simpa [hencode, Except.toOption] using h

/-- Whether a text can be begun to be written to a file: the name of the encoding holds no null character and
a file may be written at the path. -/
def Begins (settings : Settings) (files : Files) (output : String) (place : Place) : Prop :=
  Encoding.lookup settings.defaultEncoding ≠ .error .nullCharacter ∧
    files.writable (Path.ofString output) = .ok place

section

variable {settings : Settings} {output text : String} {place : Place} {s : Session}

/-- Writing a text to a place: the file there is emptied, and then gets the bytes of the text. -/
def fill (settings : Settings) (text : String) (files : Files) (place : Place) : Work Unit := do
  modify fun s => { s with files := files.set place (.file []) }
  match Encoding.lookup settings.defaultEncoding with
  | .error _ => Work.fail (.unknownEncoding settings.defaultEncoding)
  | .ok e =>
    match e.encode text.toList with
    | .error error => Work.fail (.unencodable error)
    | .ok bytes => modify fun s => { s with files := files.set place (.file bytes) }

/-- A text is written to the place of its file, if there may be one. -/
theorem write_eq (output text : String)
    (hlegal : Encoding.lookup settings.defaultEncoding ≠ .error .nullCharacter) :
    write settings output text = (do
      let files := (← get).files
      match files.writable (Path.ofString output) with
      | .error .nullByte => Work.fail .nullPath
      | .error fault => Work.fail (.unwritable output (Path.ofString output).shown fault)
      | .ok place => fill settings text files place) := by
  unfold write fill
  cases hlookup : Encoding.lookup settings.defaultEncoding with
  | error fault => cases fault with
    | nullCharacter => exact absurd hlookup hlegal
    | unknown => rfl
  | ok e => rfl

/-- A text that cannot be begun to be written is not written. -/
theorem run_write_of_not_begins (text : String) (h : ∀ place, ¬ Begins settings s.files output place) :
    ∃ halt, (write settings output text).run.run s = (.error halt, s) := by
  by_cases hlegal : Encoding.lookup settings.defaultEncoding = .error .nullCharacter
  · unfold write
    rw [hlegal]
    exact ⟨_, rfl⟩
  · rw [write_eq output text hlegal, Work.run_bind, Work.run_get]
    dsimp only
    cases hplace : s.files.writable (Path.ofString output) with
    | ok place => exact absurd ⟨hlegal, hplace⟩ (h place)
    | error fault => cases fault <;> exact ⟨_, rfl⟩

/-- A text that can be begun to be written is written to the place of its file. -/
theorem Begins.run_write (h : Begins settings s.files output place) (text : String) :
    (write settings output text).run.run s = (fill settings text s.files place).run.run s := by
  rw [write_eq output text h.1, Work.run_bind, Work.run_get]
  dsimp only
  rw [h.2]

/-- A text that has bytes is written. -/
theorem run_write_of_bytes (h : Begins settings s.files output place) {bytes : Bytes}
    (hbytes : bytes? settings.defaultEncoding text = some bytes) :
    (write settings output text).run.run s =
      (.ok (), { s with files := s.files.set place (.file bytes) }) := by
  obtain ⟨e, hlookup, hencode⟩ := bytes?_eq_some hbytes
  rw [h.run_write, fill, hlookup, Work.run_bind, Work.run_modify]
  dsimp only
  rw [hencode]
  rfl

/-- A text that has no bytes leaves an empty file. -/
theorem run_write_of_no_bytes (h : Begins settings s.files output place)
    (hbytes : bytes? settings.defaultEncoding text = none) :
    ∃ halt, (write settings output text).run.run s =
      (.error halt, { s with files := s.files.set place (.file []) }) := by
  unfold bytes? at hbytes
  rw [h.run_write, fill, Work.run_bind, Work.run_modify]
  cases hlookup : Encoding.lookup settings.defaultEncoding with
  | error fault => exact ⟨_, rfl⟩
  | ok e =>
      rw [hlookup] at hbytes
      dsimp only at hbytes ⊢
      cases hencode : e.encode text.toList with
      | error fault => exact ⟨_, rfl⟩
      | ok bytes =>
          rw [hencode] at hbytes
          cases hbytes

/-- A result is put out if no file is named for the output. Otherwise it is written there, if it can be
begun to be written and has bytes. -/
theorem run_report_cases (settings : Settings) (s : Session) {j : Job} (hresult : j.result = some text) :
    (given j.output = none ∧
        ∃ s', (j.report settings).run.run s = (.ok j, s') ∧ s'.files = s.files) ∨
      ∃ output, given j.output = some output ∧
        ((∀ place, ¬ Begins settings s.files output place) ∧
            (∃ halt, (j.report settings).run.run s = (.error halt, s)) ∨
          ∃ place, Begins settings s.files output place ∧
            match bytes? settings.defaultEncoding text with
            | none => ∃ halt s', (j.report settings).run.run s = (.error halt, s') ∧
                s'.files = s.files.set place (.file [])
            | some bytes => ∃ s', (j.report settings).run.run s = (.ok j, s') ∧
                s'.files = s.files.set place (.file bytes)) := by
  rw [report, hresult]
  dsimp only
  cases given j.output with
  | none => exact .inl ⟨rfl, _, rfl, rfl⟩
  | some output =>
      refine .inr ⟨output, rfl, ?_⟩
      dsimp only
      by_cases hbegins : ∃ place, Begins settings s.files output place
      · obtain ⟨place, hplace⟩ := hbegins
        refine .inr ⟨place, hplace, ?_⟩
        cases hbytes : bytes? settings.defaultEncoding text with
        | none =>
            obtain ⟨halt, hwrite⟩ := run_write_of_no_bytes hplace hbytes
            exact ⟨halt, _, by rw [Work.run_bind, hwrite], rfl⟩
        | some bytes =>
            exact ⟨_, by rw [Work.run_bind, run_write_of_bytes hplace hbytes]; rfl, rfl⟩
      · have hnone := not_exists.1 hbegins
        obtain ⟨halt, hwrite⟩ := run_write_of_not_begins text hnone
        exact .inl ⟨hnone, halt, by rw [Work.run_bind, hwrite]⟩

end

end Job

/-- Stages in a row. -/
theorem Stage.runAll_append (settings : Settings) (before behind : List Stage) (j : Job) :
    runAll settings (before ++ behind) j = (do runAll settings behind (← runAll settings before j)) := by
  induction before generalizing j with
  | nil => rw [List.nil_append, runAll, pure_bind]
  | cons stage before ih =>
      rw [List.cons_append, runAll, runAll, bind_assoc]
      exact congrArg _ (funext ih)

/-! ## A command -/

namespace Command

/-- The work of a job up to its result. -/
def preparation (settings : Settings) (options : Options) : Work Job := do
  let bindings ← Work.rendering (Rendering.ofRun (Value.ofData (.dict [])))
  Stage.runAll settings [.check, .load, .compile, .render] (Job.ofOptions options bindings)

/-- The file that is named for the output. -/
def outputName? (args : List String) : Option String :=
  match Options.parse args with
  | .ok (.render options) => Job.given options.output
  | _ => none

/-- The result of a command, if it comes to one. -/
def result? (settings : Settings) (files : Files) (args : List String) : Option String :=
  match Options.parse args with
  | .ok (.render options) =>
    match (preparation settings options).run.run ⟨Machine.start, #[], files⟩ with
    | (.ok j, _) => j.result
    | (.error _, _) => none
  | _ => none

/-- Whether a command comes to a text and begins to write it to the file that is named for the output. -/
structure Writes (settings : Settings) (files : Files) (args : List String) (output text : String)
    (place : Place) : Prop where
  named : outputName? args = some output
  result : result? settings files args = some text
  begins : Job.Begins settings files output place

/-- A command comes to one text only. -/
theorem Writes.text_unique {settings : Settings} {files : Files} {args : List String}
    {output output' text text' : String} {place place' : Place}
    (h : Writes settings files args output text place)
    (h' : Writes settings files args output' text' place') : text = text' :=
  Option.some.inj (h.result.symm.trans h'.result)

/-- A command writes to one place only. -/
theorem Writes.place_unique {settings : Settings} {files : Files} {args : List String}
    {output output' text text' : String} {place place' : Place}
    (h : Writes settings files args output text place)
    (h' : Writes settings files args output' text' place') : place = place' := by
  cases Option.some.inj (h.named.symm.trans h'.named)
  exact Except.ok.inj (h.begins.2.symm.trans h'.begins.2)

section

variable (settings : Settings) (options : Options)

/-- A job up to its result leaves the files alone. -/
theorem keeps_preparation (files : Files) :
    Keeps Session.files files (fun j => j.output = options.output ∧ j.result.isSome)
      (preparation settings options) := by
  refine .next (.rendering _) fun bindings => ?_
  refine (Job.keeps_check settings _).bind fun j hcheck => ?_
  refine (Job.keeps_load settings j).bind fun j hload => ?_
  refine (Job.keeps_compile settings j).bind fun j hcompile => ?_
  refine (Job.keeps_render j).bind fun j hrender => ?_
  have houtput : j.output = options.output := by rw [hrender.1, hcompile, hload, hcheck]; rfl
  exact .pure ⟨houtput, hrender.2⟩

/-- A job is prepared, and its result is reported. -/
theorem runJob_eq (s : Session) : runJob settings options s =
    match (preparation settings options).run.run s with
    | (.error halt, s') => ⟨.halted halt, options.verbosity, s'⟩
    | (.ok j, s') =>
      match (j.report settings).run.run s' with
      | (.error halt, s'') => ⟨.halted halt, options.verbosity, s''⟩
      | (.ok _, s'') => ⟨.finished, options.verbosity, s''⟩ := by
  have hstages (j : Job) : Stage.runAll settings Stage.all j = (do
      (← Stage.runAll settings [.check, .load, .compile, .render] j).report settings) := by
    have hreport (j : Job) : Stage.runAll settings [.report] j = j.report settings := bind_pure _
    rw [show Stage.all = [.check, .load, .compile, .render] ++ [.report] from rfl, Stage.runAll_append]
    exact congrArg _ (funext hreport)
  have hwork : (do
      let bindings ← Work.rendering (Rendering.ofRun (Value.ofData (.dict [])))
      Stage.runAll settings Stage.all (Job.ofOptions options bindings)) =
        (do (← preparation settings options).report settings) := by
    rw [preparation, bind_assoc]
    exact congrArg _ (funext fun bindings => hstages _)
  rw [runJob, hwork, Work.run_bind]
  rcases (preparation settings options).run.run s with ⟨halt | j, s'⟩
  · rfl
  · dsimp only
    rcases (j.report settings).run.run s' with ⟨halt | j', s''⟩ <;> rfl

end

/-- A command either writes no file, or leaves an empty file because its result has no bytes, or writes the
bytes of its result. -/
theorem run_cases (settings : Settings) (files : Files) (args : List String) :
    (run settings files args).session.files = files ∧
        ((run settings files args).ending = .finished → outputName? args = none) ∧
        (∀ output text place, ¬ Writes settings files args output text place) ∨
      ∃ output text place, Writes settings files args output text place ∧
        match Job.bytes? settings.defaultEncoding text with
        | none => (run settings files args).ending ≠ .finished ∧
            (run settings files args).session.files = files.set place (.file [])
        | some bytes => (run settings files args).ending = .finished ∧
            (run settings files args).session.files = files.set place (.file bytes) := by
  unfold run
  dsimp only
  cases hparse : Options.parse args with
  | error e =>
      have hname : outputName? args = none := by rw [outputName?, hparse]
      exact .inl ⟨rfl, nofun, fun output text place h => nomatch hname.symm.trans h.named⟩
  | ok request => cases request with
    | help | version =>
        have hname : outputName? args = none := by rw [outputName?, hparse]
        exact .inl ⟨rfl, fun _ => hname, fun output text place h => nomatch hname.symm.trans h.named⟩
    | render options =>
        have hname : outputName? args = Job.given options.output := by rw [outputName?, hparse]
        have hresult : result? settings files args =
            match (preparation settings options).run.run ⟨Machine.start, #[], files⟩ with
            | (.ok j, _) => j.result
            | (.error _, _) => none := by rw [result?, hparse]
        dsimp only
        rw [runJob_eq]
        obtain ⟨hfiles, hjob⟩ :=
          keeps_preparation settings options files ⟨Machine.start, #[], files⟩ rfl
        generalize (preparation settings options).run.run ⟨Machine.start, #[], files⟩ = prepared
          at hfiles hjob hresult ⊢
        rcases prepared with ⟨halt | j, s⟩
        · exact .inl ⟨hfiles, nofun, fun output text place h => nomatch hresult.symm.trans h.result⟩
        obtain ⟨houtput, hsome⟩ := hjob j rfl
        obtain ⟨text, htext⟩ := Option.isSome_iff_exists.1 hsome
        dsimp only at hfiles hresult ⊢
        rw [← houtput] at hname
        rw [htext] at hresult
        subst hfiles
        obtain ⟨hgiven, s', hreport, hs'⟩ | ⟨output, hgiven, hreport⟩ :=
          Job.run_report_cases settings s htext
        · rw [hreport]
          rw [hgiven] at hname
          exact .inl ⟨hs', fun _ => hname, fun output text place h => nomatch hname.symm.trans h.named⟩
        rw [hgiven] at hname
        obtain ⟨hnone, halt, hreport⟩ | ⟨place, hbegins, hreport⟩ := hreport
        · rw [hreport]
          refine .inl ⟨rfl, nofun, fun output' text' place' h => ?_⟩
          cases hname.symm.trans h.named
          exact hnone place' h.begins
        · refine .inr ⟨output, text, place, ⟨hname, hresult, hbegins⟩, ?_⟩
          cases hbytes : Job.bytes? settings.defaultEncoding text with
          | none =>
              rw [hbytes] at hreport
              obtain ⟨halt, s', hreport, hs'⟩ := hreport
              rw [hreport]
              exact ⟨nofun, hs'⟩
          | some bytes =>
              rw [hbytes] at hreport
              obtain ⟨s', hreport, hs'⟩ := hreport
              rw [hreport]
              exact ⟨rfl, hs'⟩

/-- Settings with ASCII as the default encoding. -/
def asciiSettings : Settings :=
  { Settings.default with defaultEncoding := "ascii" }

/-- A template with a character that ASCII lacks, in UTF-8, and a file that holds an earlier output. -/
def accentFiles : Files :=
  ⟨[(["t"], .file [0xc3, 0xa9]), (["o"], .file [0x78])], []⟩

/-- The arguments that ask for the highlighted template in the file of the earlier output. -/
def accentArgs : List String :=
  ["t", "--highlight", "--encoding", "utf-8", "-o", "o"]

end Command

end Stencil
