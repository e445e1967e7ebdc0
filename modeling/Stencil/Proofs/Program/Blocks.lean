import Stencil.Proofs.Program.Balance
import Stencil.Proofs.Program.Statement

/-!
# Strict blocks are balanced blocks

Generating a program keeps a stack of open blocks, with an indentation that goes with it. What the
instructions do to the stack are their events, closings and openings in order. In strict mode a program
is generated exactly when the events are balanced; else the error tells the first closing that
overdraws or the last opening that is never closed (`generate_strict_iff_balanced`).

A statement that consists of one line, without blanks at its ends and without characters that open,
close or hide something, goes into the program as it is.
-/

namespace Stencil

/-! ## Events of instructions -/

/-- The block that a statement opens, if its last logical line is a header: the line of the header and
the word for it. -/
def openedBlock? (code : Text) (line : Int) : Option (Int × Text) :=
  let last := lastLogical (codeLines code line)
  match opensBlock (Text.joinLines (last.map (·.text))) with
  | .ok true => last.head?.map fun head => (head.line, blockWord head.text)
  | _ => none

/-- What a statement does to the open blocks. An end word closes one; another statement closes one if
its first line starts with a word that continues a block, and then opens one if its last logical line
is a header. -/
def statementEvents (code : Text) (line : Int) : List BlockEvent :=
  match contentLines code line with
  | [] => []
  | (l, t) :: rest =>
    if rest.isEmpty && isEndWord t then [.closes l t]
    else
      (if (leadingWord? siblingWords t).isSome then [.closes l t] else []) ++
        (openedBlock? code line).toList.map fun x => .opens x.1 x.2

/-- What an instruction does to the open blocks. -/
def Instruction.events : Instruction → List BlockEvent
  | .runStatement code line => statementEvents code line
  | _ => []

/-! ## Headers -/

/-- A text without null characters is not refused for one. -/
theorem Script.check_ne_nullCharacter {source : Text} (h : Char.ofNat 0 ∉ source) :
    Script.check source ≠ .error .nullCharacter := by
  rw [Script.check, if_neg (by simpa using h)]
  split
  · exact fun h => nomatch h
  · dsimp only
    split
    · exact fun h => nomatch h
    · exact fun h => nomatch h

/-- Without null characters it can be told whether a statement opens a block. -/
theorem opensBlock_ne_error {statement : Text} (h : Char.ofNat 0 ∉ statement) (e : Script.CheckError) :
    opensBlock statement ≠ .error e := by
  have htrim : Char.ofNat 0 ∉ Text.trim statement := fun hmem => h (Text.mem_of_mem_trim hmem)
  have hheader : Char.ofNat 0 ∉ Text.trim statement ++ ":\n    pass\n".toList := by
    rw [List.mem_append]
    rintro (hmem | hmem)
    · exact htrim hmem
    · exact absurd hmem (by decide +kernel)
  have hcheck : Script.check (Text.trim statement ++ ":\n    pass\n".toList) ≠ .error .nullCharacter :=
    Script.check_ne_nullCharacter hheader
  rw [opensBlock]
  split
  · exact fun h => nomatch h
  split
  · exact fun h => nomatch h
  split
  · exact fun h => nomatch h
  split
  · exact fun h => nomatch h
  split
  · exact fun h => nomatch h
  · exact fun h => nomatch h
  · next hnull => exact absurd hnull hcheck

/-- Without null characters it can be told whether the last logical line opens a block. -/
theorem opensBlock_lastLogical_ne_error {code : Text} {line : Int} (h : Char.ofNat 0 ∉ code)
    (e : Script.CheckError) :
    opensBlock (Text.joinLines ((lastLogical (codeLines code line)).map (·.text))) ≠ .error e := by
  refine opensBlock_ne_error (fun hmem => ?_) e
  rcases Text.mem_joinLines hmem with hbreak | ⟨text, htext, hc⟩
  · exact absurd hbreak (by decide +kernel)
  · obtain ⟨l, hl, rfl⟩ := List.mem_map.1 htext
    exact h (mem_of_mem_codeLines (List.mem_of_mem_drop hl) hc)

/-- A colon is put behind the last line. -/
theorem addColon_concat (init : List CodeLine) (l : CodeLine) :
    addColon (init ++ [l]) = init ++ [{ l with text := l.text ++ [':'] }] := by
  simp [addColon]

/-- Putting a colon behind the last line does not change where the last logical line starts. -/
theorem lastLogical_addColon {ls : List CodeLine} (h : ls ≠ []) :
    lastLogical (addColon ls) = addColon (lastLogical ls) := by
  obtain ⟨init, l, rfl⟩ : ∃ init l, ls = init ++ [l] :=
    ⟨ls.dropLast, ls.getLast h, (List.dropLast_append_getLast h).symm⟩
  rw [addColon_concat]
  have hcount : ((init ++ [{ l with text := l.text ++ [':'] }]).reverse.takeWhile
      fun l : CodeLine => !l.starts).length =
        ((init ++ [l]).reverse.takeWhile fun l : CodeLine => !l.starts).length := by
    simp only [List.reverse_append, List.reverse_singleton, List.singleton_append, List.takeWhile_cons]
    split <;> rfl
  have hle : (init ++ [l]).length -
      ((init ++ [l]).reverse.takeWhile fun l : CodeLine => !l.starts).length - 1 ≤ init.length := by
    rw [List.length_append, List.length_singleton]
    omega
  rw [lastLogical, lastLogical, hcount]
  simp only [List.length_append, List.length_singleton] at hle ⊢
  rw [List.drop_append_of_le_length hle, List.drop_append_of_le_length hle, addColon_concat]

/-- The lines of a statement have a last logical line. -/
theorem lastLogical_ne_nil {ls : List CodeLine} (h : ls ≠ []) : lastLogical ls ≠ [] := by
  have hpos := List.length_pos_iff.2 h
  rw [lastLogical, ← List.length_pos_iff, List.length_drop]
  omega

/-- With a colon behind the last line the header starts on the same line and opens a block of the same
word. -/
theorem head_addColon {ls : List CodeLine} {head : CodeLine} {rest : List CodeLine}
    (h : ls = head :: rest) :
    ∃ head' rest', addColon ls = head' :: rest' ∧ head'.line = head.line ∧
      blockWord head'.text = blockWord head.text := by
  subst h
  cases rest with
  | nil => exact ⟨_, [], rfl, rfl, blockWord_colon _⟩
  | cons l rest =>
      obtain ⟨init, last, hrest⟩ : ∃ init last, l :: rest = init ++ [last] :=
        ⟨_, _, (List.dropLast_append_getLast (List.cons_ne_nil l rest)).symm⟩
      rw [hrest, ← List.cons_append, addColon_concat]
      exact ⟨head, _, rfl, rfl, rfl⟩

/-- A header that gets its colon is still the start of the last logical line. -/
theorem lastLogical_withColon {ls : List CodeLine} {head : CodeLine} {rest : List CodeLine}
    (h : lastLogical ls = head :: rest) (colon : Bool) :
    ∃ head' rest', lastLogical (if colon then ls else addColon ls) = head' :: rest' ∧
      head'.line = head.line ∧ blockWord head'.text = blockWord head.text := by
  cases colon with
  | true => exact ⟨head, rest, h, rfl, rfl⟩
  | false =>
      have hne : ls ≠ [] := by
        rintro rfl
        cases h
      rw [if_neg Bool.false_ne_true, lastLogical_addColon hne]
      exact head_addColon h

/-! ## Builders and open blocks -/

namespace Builder

@[simp] theorem addLine_blocks (b : Builder) (text : Text) (line : Int) (indented : Bool) :
    (b.addLine text line indented).blocks = b.blocks := rfl

@[simp] theorem addLine_indent (b : Builder) (text : Text) (line : Int) (indented : Bool) :
    (b.addLine text line indented).indent = b.indent := rfl

/-- Adding lines leaves the open blocks as they are. -/
theorem foldl_addLine {β : Type} (b : Builder) (xs : List β) (f : β → Text) (g : β → Int)
    (indented : β → Bool) :
    (xs.foldl (fun b x => b.addLine (f x) (g x) (indented x)) b).blocks = b.blocks ∧
      (xs.foldl (fun b x => b.addLine (f x) (g x) (indented x)) b).indent = b.indent := by
  induction xs generalizing b with
  | nil => exact ⟨rfl, rfl⟩
  | cons x xs ih => exact ih (b.addLine (f x) (g x) (indented x))

/-- The open blocks of a builder, the innermost first, with the indentation they bring about. -/
structure Tracks (b : Builder) (stack : List (Int × Text)) : Prop where
  blocks : b.blocks.map (fun k => (k.line, k.word)) = stack
  indent : b.indent = indentStep * stack.length

/-- The builder of an empty program has no open blocks. -/
theorem tracks_empty : empty.Tracks [] := ⟨rfl, rfl⟩

variable {b b' : Builder} {stack : List (Int × Text)}

/-- What leaves the blocks and the indentation as they are keeps track of the open blocks. -/
theorem Tracks.congr (h : b.Tracks stack) (hblocks : b'.blocks = b.blocks)
    (hindent : b'.indent = b.indent) : b'.Tracks stack :=
  ⟨hblocks ▸ h.blocks, hindent ▸ h.indent⟩

/-- Adding the lines of a statement keeps track of the open blocks. -/
theorem Tracks.addCode (h : b.Tracks stack) (ls : List CodeLine) : (b.addCode ls).Tracks stack :=
  have hlines := foldl_addLine b ls (·.text) (·.line) (·.starts)
  h.congr hlines.1 hlines.2

/-- Opening a block puts it on the stack. -/
theorem Tracks.openBlock (h : b.Tracks stack) (word : Text) (line : Int) :
    (b.openBlock word line).Tracks ((line, word) :: stack) := by
  refine ⟨?_, ?_⟩
  · rw [← h.blocks]
    rfl
  · rw [Builder.openBlock, h.indent, List.length_cons, Nat.mul_succ]

/-- Closing a block takes it off the stack. -/
theorem Tracks.closeBlock? (h : b.Tracks stack) (line : Int) :
    match stack with
    | [] => b.closeBlock? line = none
    | _ :: outer => ∃ b' block, b.closeBlock? line = some (b', block) ∧ b'.Tracks outer := by
  obtain ⟨hblocks, hindent⟩ := h
  cases hb : b.blocks with
  | nil =>
      obtain rfl : [] = stack := by simpa [hb] using hblocks
      simp [Builder.closeBlock?, hb]
  | cons block outer =>
      obtain rfl : (block.line, block.word) :: outer.map (fun k => (k.line, k.word)) = stack := by
        simpa [hb] using hblocks
      rw [List.length_cons, Nat.mul_succ] at hindent
      refine ⟨_, block, by rw [Builder.closeBlock?, hb], ?_, ?_⟩
      · split <;> rfl
      · have hindent' : b.indent - indentStep = indentStep * outer.length := by
          rw [hindent, List.length_map, Nat.add_sub_cancel]
        rw [List.length_map, ← hindent']
        split <;> rfl

/-- What happens to a builder goes along with what happens to the open blocks: a closing that finds
none is at fault. -/
inductive Follows (template : String) : Except (Int × Text) (List (Int × Text)) →
    Except CompileError Builder → Prop where
  | ok {b : Builder} {stack : List (Int × Text)} (h : b.Tracks stack) :
      Follows template (.ok stack) (.ok b)
  | error (line : Int) (statement : Text) :
      Follows template (.error (line, statement))
        (.error (.located template (some line) (.unopened statement)))

/-- What happens next goes along as well. -/
theorem Follows.bind {template : String} {r : Except (Int × Text) (List (Int × Text))}
    {r' : Except CompileError Builder} {f : List (Int × Text) → Except (Int × Text) (List (Int × Text))}
    {g : Builder → Except CompileError Builder} (h : Follows template r r')
    (hnext : ∀ (b : Builder) stack, b.Tracks stack → Follows template (f stack) (g b)) :
    Follows template (r.bind f) (r' >>= g) := by
  cases h with
  | ok h => exact hnext _ _ h
  | error line statement => exact .error line statement

/-- Closing a block for a statement. -/
theorem follows_closeFor (h : b.Tracks stack) (template : String) (first : CodeLine) :
    Follows template (runEvent stack (.closes first.line (Text.trim first.text)))
      (b.closeFor template first) := by
  have hclose := h.closeBlock? first.line
  rw [closeFor]
  cases stack with
  | nil =>
      dsimp only at hclose
      rw [hclose]
      exact .error _ _
  | cons top outer =>
      obtain ⟨b', block, heq, htracks⟩ := hclose
      rw [heq]
      exact .ok htracks

/-- Adding a statement that is no end word. -/
theorem follows_addOpening (h : b.Tracks stack) (template : String) {code : Text} {line : Int}
    (hnull : Char.ofNat 0 ∉ code) (hne : codeLines code line ≠ []) :
    Follows template
      (runEvents stack ((openedBlock? code line).toList.map fun x => .opens x.1 x.2))
      (b.addOpening (codeLines code line)) := by
  obtain ⟨head, rest, hlast⟩ := List.exists_cons_of_ne_nil (lastLogical_ne_nil hne)
  rw [openedBlock?, addOpening]
  dsimp only
  cases hopens : opensBlock (Text.joinLines ((lastLogical (codeLines code line)).map (·.text))) with
  | error e => exact absurd hopens (opensBlock_lastLogical_ne_error hnull e)
  | ok opens =>
      cases opens with
      | false => exact .ok (h.addCode _)
      | true =>
          obtain ⟨head', rest', hhead, hline, hword⟩ := lastLogical_withColon hlast
            (Text.endsWith (Text.trimEnd (Text.joinLines
              ((lastLogical (codeLines code line)).map (·.text)))) [':'])
          dsimp only
          rw [hhead, hlast]
          refine .ok ?_
          dsimp only
          rw [← hline, ← hword]
          exact (h.addCode _).openBlock _ _

/-- Adding a statement. -/
theorem follows_addStatement (h : b.Tracks stack) (template : String) {code : Text} (line : Int)
    (hnull : Char.ofNat 0 ∉ code) :
    Follows template (runEvents stack (statementEvents code line))
      (b.addStatement template code line) := by
  rw [addStatement, statementEvents]
  rcases codeLines_cases code line with ⟨hcontent, hcode⟩ | ⟨t, rest, first, more, hcontent, hcode,
    -, rfl, hend⟩
  · rw [hcontent, hcode]
    exact .ok h
  · have hopening (b : Builder) (stack : List (Int × Text)) (h : b.Tracks stack) :=
      follows_addOpening h template hnull (hcode ▸ List.cons_ne_nil first more)
    rw [hcode] at hopening
    rw [hcontent, hcode]
    dsimp only
    rw [hend]
    split
    · rw [runEvents_singleton]
      exact follows_closeFor h template first
    · have hword : leadingWord? siblingWords (Text.trimStart first.text) =
          leadingWord? siblingWords (Text.trim first.text) :=
        (leadingWord?_trimEnd isWord_siblingWords _).symm
      rw [hword]
      split
      · rw [List.singleton_append, runEvents_cons]
        exact (follows_closeFor h template first).bind hopening
      · rw [List.nil_append]
        exact hopening b stack h

/-- Adding an instruction. -/
theorem follows_add (h : b.Tracks stack) (template : String) {i : Instruction}
    (hnull : ∀ code line, i = .runStatement code line → Char.ofNat 0 ∉ code) :
    Follows template (runEvents stack i.events) (b.add template i) := by
  cases i with
  | emitText text line =>
      rw [add, addText]
      split
      · exact .ok h
      · exact .ok (h.congr rfl rfl)
  | emitExpr code escaped line =>
      rw [add, addExpr]
      dsimp only
      split
      · exact .ok h
      · exact .ok (h.congr (foldl_addLine ..).1 (foldl_addLine ..).2)
  | runStatement code line => exact follows_addStatement h template line (hnull code line rfl)

/-- Adding instructions. -/
theorem follows_foldlM (h : b.Tracks stack) (template : String) {is : List Instruction}
    (hnull : ∀ code line, .runStatement code line ∈ is → Char.ofNat 0 ∉ code) :
    Follows template (runEvents stack (is.flatMap (·.events)))
      (is.foldlM (fun b i => b.add template i) b) := by
  induction is generalizing b stack with
  | nil => exact .ok h
  | cons i is ih =>
      rw [List.flatMap_cons, runEvents_append, List.foldlM_cons]
      refine (follows_add h template fun code line hi => hnull code line ?_).bind fun b stack h =>
        ih h fun code line hmem => hnull code line (List.mem_cons_of_mem _ hmem)
      exact hi ▸ List.mem_cons_self

/-- A builder without open blocks is not indented. -/
theorem Tracks.nil (h : b.Tracks []) : b.blocks = [] ∧ b.indent = 0 :=
  ⟨List.map_eq_nil_iff.1 h.blocks, h.indent⟩

/-- In strict mode a program ends without open blocks, or the innermost one is at fault. -/
theorem finish_strict (h : b.Tracks stack) (template : String) :
    b.finish template true =
      match stack with
      | [] => .ok b
      | (line, word) :: _ => .error (.located template (some line) (.unclosed word)) := by
  obtain ⟨hblocks, -⟩ := h
  rw [finish]
  cases hb : b.blocks with
  | nil =>
      obtain rfl : [] = stack := by simpa [hb] using hblocks
      rfl
  | cons block outer =>
      obtain rfl : (block.line, block.word) :: outer.map (fun k => (k.line, k.word)) = stack := by
        simpa [hb] using hblocks
      rfl

end Builder

/-- Generating in strict mode goes along with following the events. -/
theorem generate_strict_eq (template : String) {is : List Instruction}
    (hnull : ∀ code line, .runStatement code line ∈ is → Char.ofNat 0 ∉ code) :
    match runEvents [] (is.flatMap (·.events)) with
    | .ok [] => ∃ b, generate template true is = .ok b ∧ b.blocks = [] ∧ b.indent = 0
    | .ok ((line, word) :: _) =>
      generate template true is = .error (.located template (some line) (.unclosed word))
    | .error (line, statement) =>
      generate template true is = .error (.located template (some line) (.unopened statement)) := by
  have hfollows := Builder.follows_foldlM Builder.tracks_empty template hnull
  generalize hrun : runEvents [] (is.flatMap (·.events)) = r at hfollows
  generalize hfold : is.foldlM (fun b i => b.add template i) Builder.empty = r' at hfollows
  rw [generate, hfold]
  cases hfollows with
  | error line statement => rfl
  | @ok b stack htracks =>
      have hfinish := Builder.finish_strict htracks template
      cases stack with
      | nil => exact ⟨b, hfinish, htracks.nil⟩
      | cons top outer => exact hfinish

/-- In strict mode a program is generated exactly when the events of the instructions are balanced,
and it ends without open blocks and without indentation. Else the first closing that overdraws is at
fault, or, where none does, the last opening that is never closed. -/
theorem generate_strict_iff_balanced (template : String) (is : List Instruction)
    (hnull : ∀ code line, .runStatement code line ∈ is → Char.ofNat 0 ∉ code) :
    let events := is.flatMap (·.events)
    ((∃ b, generate template true is = .ok b) ↔ Balanced events) ∧
      (∀ b, generate template true is = .ok b → b.blocks = [] ∧ b.indent = 0) ∧
      (¬ NeverOverdrawn events → ∃ line statement, FirstOverdraw events line statement) ∧
      (∀ line statement, FirstOverdraw events line statement →
        generate template true is = .error (.located template (some line) (.unopened statement))) ∧
      (NeverOverdrawn events → closings events ≠ openings events →
        ∃ line word, LastUnclosed events line word) ∧
      (NeverOverdrawn events → ∀ line word, LastUnclosed events line word →
        generate template true is = .error (.located template (some line) (.unclosed word))) := by
  intro events
  have heq := generate_strict_eq template hnull
  have hok (b : Builder) (hb : generate template true is = .ok b) :
      runEvents [] events = .ok [] ∧ b.blocks = [] ∧ b.indent = 0 := by
    split at heq
    · next hrun =>
        obtain ⟨b', hb', hclosed⟩ := heq
        obtain rfl := Except.ok.inj (hb.symm.trans hb')
        exact ⟨hrun, hclosed⟩
    · exact nomatch hb.symm.trans heq
    · exact nomatch hb.symm.trans heq
  refine ⟨⟨fun ⟨b, hb⟩ => ?_, fun ⟨hnever, hcount⟩ => ?_⟩, fun b hb => (hok b hb).2, fun hover => ?_,
    fun line statement hfirst => ?_, fun hnever hcount => ?_, fun hnever line word hlast => ?_⟩
  · have hrun := (hok b hb).1
    have hlen := length_runEvents hrun
    exact ⟨neverOverdrawn_iff.2 ⟨_, hrun⟩, by simpa using hlen⟩
  · obtain ⟨s, hs⟩ := neverOverdrawn_iff.1 hnever
    have hlen := length_runEvents hs
    rw [hcount, List.length_nil, Nat.add_right_cancel_iff] at hlen
    rw [hs, List.length_eq_zero_iff.1 hlen] at heq
    obtain ⟨b, hb, -⟩ := heq
    exact ⟨b, hb⟩
  · cases hrun : runEvents [] events with
    | ok s => exact absurd (neverOverdrawn_iff.2 ⟨s, hrun⟩) hover
    | error x => exact ⟨x.1, x.2, firstOverdraw_of_runEvents hrun⟩
  · rw [runEvents_of_firstOverdraw hfirst] at heq
    exact heq
  · exact exists_lastUnclosed (Nat.lt_of_le_of_ne (hnever events List.prefix_rfl) hcount)
  · obtain ⟨outer, hrun⟩ := runEvents_of_lastUnclosed hnever hlast
    rw [hrun] at heq
    exact heq

/-- A loop with a header, a body and an end. -/
def shortLoop : List Instruction :=
  [.runStatement "for x in xs:".toList 1, .emitExpr ['x'] true 2, .runStatement "end".toList 3]

/-- The events of a loop are balanced, and so it is generated. -/
theorem generate_strict_shortLoop :
    (∀ code line, .runStatement code line ∈ shortLoop → Char.ofNat 0 ∉ code) ∧
      shortLoop.flatMap (·.events) = [.opens 1 "for".toList, .closes 3 "end".toList] ∧
      ∃ b, generate "page" true shortLoop = .ok b := by
  have hnull : ∀ code line, .runStatement code line ∈ shortLoop → Char.ofNat 0 ∉ code := by
    intro code line h
    simp only [shortLoop, List.mem_cons, Instruction.runStatement.injEq, List.not_mem_nil, or_false,
      reduceCtorEq, false_or] at h
    rcases h with ⟨rfl, -⟩ | ⟨rfl, -⟩ <;> decide +kernel
  have hevents : shortLoop.flatMap (·.events) =
      [.opens 1 "for".toList, .closes 3 "end".toList] := by decide +kernel
  refine ⟨hnull, hevents, (generate_strict_iff_balanced "page" shortLoop hnull).1.2 ?_⟩
  rw [hevents]
  exact ⟨neverOverdrawn_iff.2 ⟨[], rfl⟩, rfl⟩

/-! ## Statements of a single line -/

/-- Whether a text is a single line of plain characters without blanks at its ends. -/
def isSingle (t : Text) : Bool :=
  !t.isEmpty && t.all (fun c => Script.isPlain c && c != '\n') &&
    t.head?.all (!Text.isBlank ·) && t.getLast?.all (!Text.isBlank ·)

section

variable {t : Text}

/-- A text with a first character that is not blank and a last one that is not blank is trimmed. -/
theorem trim_of_ends (hhead : ∀ c ∈ t.head?, ¬ Text.isBlank c)
    (hlast : ∀ c ∈ t.getLast?, ¬ Text.isBlank c) :
    Text.trim t = t ∧ Text.trimStart t = t ∧ Text.trimEnd t = t := by
  have hstart : Text.trimStart t = t := by
    cases t with
    | nil => rfl
    | cons c r => exact Text.trimStart_cons (hhead c rfl) r
  have hend : Text.trimEnd t = t := by
    rw [Text.trimEnd]
    cases hr : t.reverse with
    | nil =>
        rw [List.reverse_eq_nil_iff.1 hr]
        rfl
    | cons c r =>
        have hc : ¬ Text.isBlank c := hlast c (by rw [List.getLast?_eq_head?_reverse, hr]; rfl)
        rw [List.dropWhile_cons_of_neg hc, ← hr, List.reverse_reverse]
  exact ⟨by rw [Text.trim, hstart, hend], hstart, hend⟩

/-- What `isSingle` says. -/
theorem isSingle_iff : isSingle t ↔ t ≠ [] ∧ (∀ c ∈ t, Script.isPlain c ∧ c ≠ '\n') ∧
    (∀ c ∈ t.head?, ¬ Text.isBlank c) ∧ ∀ c ∈ t.getLast?, ¬ Text.isBlank c := by
  simp only [isSingle, Bool.and_eq_true, Bool.not_eq_true', List.isEmpty_eq_false_iff,
    List.all_eq_true, bne_iff_ne, Option.all_eq_true, Bool.not_eq_true, Option.mem_def, and_assoc]

/-- A single line is trimmed. -/
theorem trim_of_isSingle (h : isSingle t) :
    Text.trim t = t ∧ Text.trimStart t = t ∧ Text.trimEnd t = t := by
  obtain ⟨-, -, hhead, hlast⟩ := isSingle_iff.1 h
  exact trim_of_ends hhead hlast

/-- The line that a statement of a single line adds is the statement. -/
theorem codeLines_of_isSingle (h : isSingle t) (line : Int) : codeLines t line = [⟨line, t, true⟩] := by
  obtain ⟨hne, hchars, hhead, hlast⟩ := isSingle_iff.1 h
  obtain ⟨htrim, -, hend⟩ := trim_of_ends hhead hlast
  have hlines : Text.lines t = [t] := Text.lines_of_not_mem fun hmem => (hchars _ hmem).2 rfl
  have hgap : t.takeWhile Text.isGap = [] := by
    cases t with
    | nil => rfl
    | cons c r =>
        exact List.takeWhile_cons_of_neg fun hc => hhead c rfl (Text.isBlank_of_isGap hc)
  have hall : ¬ t.all Text.isGap := by
    cases t with
    | nil => exact absurd rfl hne
    | cons c r =>
        intro hall
        rw [List.all_cons, Bool.and_eq_true] at hall
        exact hhead c rfl (Text.isBlank_of_isGap hall.1)
  have hmargin : Text.margin [t] = [] := by
    simp [Text.margin, hall, hgap]
  have hdedent : Text.dedent t = t := by
    rw [Text.dedent, hlines, List.map_singleton, if_neg hall, hmargin]
    rfl
  have hplain : t.all Script.isPlain := List.all_eq_true.2 fun c hc => (hchars c hc).1
  rw [codeLines, hdedent, hlines, Script.continuationLines_of_plain hplain]
  simp [htrim, hend, hne]

end

end Stencil
