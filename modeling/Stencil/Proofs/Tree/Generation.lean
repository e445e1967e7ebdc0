import Stencil.Proofs.Program.Draft
import Stencil.Proofs.Program.Blocks
import Stencil.Proofs.Tree.Checking

/-!
# The generation of the program of a block tree

The segments of a tree add the lines of its program to a builder, and leave its blocks and its
indentation as they were (`foldlM_add_segmentsAll`). A header opens a block whatever its spelling: without
a colon it is recognised because the header with an empty body is itself the program of a tree.
-/

namespace Stencil

open Stencil.Tree Script

/-! ## Headers -/

namespace Tree

/-- A sentence starts and ends with word characters. -/
theorem ends_sentence {ws : List Text} (hne : ws ≠ []) (hws : ∀ w ∈ ws, isAsciiName w) :
    (∃ c r, sentence ws = c :: r ∧ isWordChar c) ∧ ∃ init c, sentence ws = init ++ [c] ∧ isWordChar c := by
  induction ws with
  | nil => exact absurd rfl hne
  | cons w ws ih =>
      have hw := hws w List.mem_cons_self
      have hwne : w ≠ [] := by
        rintro rfl
        exact absurd hw Bool.false_ne_true
      obtain ⟨c, r, hcons⟩ := List.exists_cons_of_ne_nil hwne
      have hc : isWordChar c := isWordChar_of_mem hw (by rw [hcons]; exact List.mem_cons_self)
      cases ws with
      | nil =>
          exact ⟨⟨c, r, hcons, hc⟩, w.dropLast, w.getLast hwne,
            (List.dropLast_append_getLast hwne).symm, isWordChar_of_mem hw (List.getLast_mem hwne)⟩
      | cons w' ws =>
          obtain ⟨-, init, d, hlast, hd⟩ :=
            ih (List.cons_ne_nil _ _) fun v hv => hws v (List.mem_cons_of_mem _ hv)
          have hsentence : sentence (w :: w' :: ws) = w ++ ' ' :: sentence (w' :: ws) :=
            sentence.eq_3 _ _ fun h => List.cons_ne_nil _ _ h
          refine ⟨⟨c, r ++ ' ' :: sentence (w' :: ws), ?_, hc⟩, w ++ ' ' :: init, d, ?_, hd⟩
          · rw [hsentence, hcons, List.cons_append]
          · rw [hsentence, hlast, List.append_assoc, List.cons_append]

/-- A header as it is written, with a colon or without. -/
def Header.text (h : Header) (colon : Bool) : Text :=
  if colon then sentence h.words ++ [':'] else sentence h.words

/-- A header has words. -/
theorem Header.words_ne_nil (h : Header) : h.words ≠ [] := by
  cases h <;> exact List.cons_ne_nil _ _

/-- A header is a single line. -/
theorem Header.isSingle_text (h : Header) (colon : Bool) : isSingle (h.text colon) := by
  obtain ⟨⟨c, r, hfirst, hc⟩, init, d, hlast, hd⟩ :=
    ends_sentence h.words_ne_nil h.isAsciiName_words
  have hword : ∀ {c : Char}, isWordChar c → isPlain c ∧ c ≠ '\n' ∧ ¬ Text.isBlank c := by
    intro c hc
    have h := forall_wordChar (P := fun c => (isPlain c && c != '\n' && !Text.isBlank c) = true)
      (by decide +kernel) hc
    simpa [and_assoc] using h
  have hchars : ∀ c ∈ sentence h.words, isPlain c ∧ c ≠ '\n' := by
    intro c hc
    rcases mem_sentence h.isAsciiName_words hc with hc | rfl
    · exact ⟨(hword hc).1, (hword hc).2.1⟩
    · decide
  cases colon with
  | false =>
      refine isSingle_iff.2 ⟨?_, hchars, ?_, ?_⟩
      · exact fun hnil => List.cons_ne_nil c r (hfirst.symm.trans hnil)
      · rintro e he
        obtain rfl : c = e := by simpa [Header.text, hfirst] using he
        exact (hword hc).2.2
      · rintro e he
        obtain rfl : d = e := by simpa [Header.text, hlast] using he
        exact (hword hd).2.2
  | true =>
      refine isSingle_iff.2 ⟨?_, ?_, ?_, ?_⟩
      · simp [Header.text]
      · intro e he
        rcases List.mem_append.1 he with he | he
        · exact hchars e he
        · rw [List.mem_singleton.1 he]
          decide
      · rintro e he
        obtain rfl : c = e := by simpa [Header.text, hfirst] using he
        exact (hword hc).2.2
      · rintro e he
        obtain rfl : ':' = e := by simpa [Header.text] using he
        decide

/-- The word that a header starts with. -/
def Header.word : Header → Text
  | loop _ _ => "for".toList
  | test further _ => (if further then "elif" else "if").toList
  | otherwise => "else".toList

/-- A header starts with its word, and goes on with a character that is none of a word. -/
theorem Header.exists_text (h : Header) (colon : Bool) : ∃ ending,
    h.text colon = h.word ++ ending ∧ ∀ c ∈ ending.head?, ¬ Text.isWord c := by
  have hspace : ¬ Text.isWord ' ' := by decide +kernel
  have hcolon : ¬ Text.isWord ':' := by decide +kernel
  obtain ⟨ending, hwords, hending⟩ : ∃ ending, sentence h.words = h.word ++ ending ∧
      ∀ c ∈ ending.head?, c = ' ' := by
    cases h with
    | loop target source => exact ⟨_, rfl, by simp⟩
    | test further x => exact ⟨_, rfl, by simp⟩
    | otherwise => exact ⟨[], rfl, by simp⟩
  cases colon with
  | false => exact ⟨ending, hwords, fun c hc => hending c hc ▸ hspace⟩
  | true =>
      refine ⟨ending ++ [':'], by simp [text, hwords], fun c hc => ?_⟩
      cases ending with
      | nil =>
          obtain rfl : ':' = c := by simpa using hc
          exact hcolon
      | cons d r => exact hending c hc ▸ hspace

/-- A header starts with a word that opens a block or one that continues a block. -/
theorem Header.leadingWord?_text (h : Header) (colon : Bool) :
    (leadingWord? siblingWords (h.text colon)).isSome = (Code.header h).continues ∧
      (leadingWord? openingWords (h.text colon)).isNone = (Code.header h).continues := by
  obtain ⟨ending, htext, hending⟩ := h.exists_text colon
  rw [htext, leadingWord?_append isWord_siblingWords hending,
    leadingWord?_append isWord_openingWords hending]
  have hwords : ∀ w ∈ ["for", "if"], (leadingWord? siblingWords w.toList).isSome = false ∧
      (leadingWord? openingWords w.toList).isNone = false := by decide +kernel
  have hfurther : ∀ w ∈ ["elif", "else"], (leadingWord? siblingWords w.toList).isSome = true ∧
      (leadingWord? openingWords w.toList).isNone = true := by decide +kernel
  cases h with
  | loop target source => exact hwords "for" (by decide)
  | test further x =>
      cases further with
      | true => exact hfurther "elif" (by decide)
      | false => exact hwords "if" (by decide)
  | otherwise => exact hfurther "else" (by decide)

/-- The words that close blocks start alike. -/
theorem take_of_isEndWord {t : Text} (h : isEndWord t) : t.take 2 = "en".toList := by
  rw [isEndWord, Bool.or_eq_true, beq_iff_eq, List.any_eq_true] at h
  rcases h with rfl | ⟨w, -, hw⟩
  · decide
  · rw [beq_iff_eq.1 hw]
    rfl

/-- A header does not close a block only. -/
theorem Header.not_isEndWord (h : Header) (colon : Bool) : isEndWord (h.text colon) = false := by
  rw [← Bool.not_eq_true]
  intro hend
  have htake := take_of_isEndWord hend
  obtain ⟨ending, htext, -⟩ := h.exists_text colon
  rw [htext] at htake
  cases h with
  | loop target source => exact absurd (List.cons.inj htake).1 (by decide)
  | test further x =>
      cases further with
      | true => exact absurd (List.cons.inj (List.cons.inj htake).2).1 (by decide)
      | false => exact absurd (List.cons.inj htake).1 (by decide)
  | otherwise => exact absurd (List.cons.inj (List.cons.inj htake).2).1 (by decide)

/-- A header that continues no block is, with an empty body, the program of a tree. -/
theorem Header.check_text {h : Header} (hopens : (Code.header h).continues = false) :
    ∃ body, check (h.text false ++ ":\n    pass\n".toList) = .ok body := by
  have hbody : h.text false ++ ":\n    pass\n".toList =
      programText [⟨0, .header h, 0⟩, ⟨1, .idle, 0⟩] := by
    simp [programText, Row.text, Code.text_header, Code.text_idle, Header.text,
      Builder.indentStep]
  let closing : Closing := ⟨"end".toList, 0, by decide⟩
  obtain ⟨n, hdepth, hrows⟩ : ∃ n : Node, depthAll [n] ≤ maxBlocks ∧
      rowsAll 0 [n] = [⟨0, .header h, 0⟩, ⟨1, .idle, 0⟩] := by
    cases h with
    | loop target source =>
        refine ⟨.loop ⟨0, true⟩ target source [] closing, ?_, ?_⟩
        · simp [depthAll, Node.depth, maxBlocks]
        · simp [rowsAll, Node.rows, bodyRows, closing]
    | test further x =>
        obtain rfl : further = false := hopens
        refine ⟨.choice ⟨0, true⟩ x [] (.finish closing), ?_, ?_⟩
        · simp [depthAll, Node.depth, Branches.depth, maxBlocks]
        · simp [rowsAll, Node.rows, Branches.rows, Branches.line, bodyRows, closing]
    | otherwise => cases hopens
  rw [hbody, ← hrows]
  exact ⟨_, check_programText hdepth⟩

/-- Whether a header ends with a colon. -/
theorem Header.endsWith_text (h : Header) (colon : Bool) :
    Text.endsWith (h.text colon) [':'] = colon := by
  cases colon with
  | true => simp [Text.endsWith, text]
  | false =>
      obtain ⟨-, init, c, hlast, hc⟩ := ends_sentence h.words_ne_nil h.isAsciiName_words
      rw [Text.endsWith, ← Bool.not_eq_true, List.isSuffixOf_iff_suffix]
      rintro ⟨r, hr⟩
      rw [text, if_neg Bool.false_ne_true, hlast] at hr
      obtain rfl : ':' = c := List.singleton_inj.1 (List.append_inj_right' hr rfl)
      exact absurd hc (by decide)

/-- A header opens a block, with a colon or without. -/
theorem Header.opensBlock_text (h : Header) (colon : Bool) :
    opensBlock (h.text colon) = .ok true := by
  obtain ⟨hsibling, hopening⟩ := h.leadingWord?_text colon
  rw [opensBlock]
  simp only [(trim_of_isSingle (h.isSingle_text colon)).1, h.endsWith_text colon, hsibling, hopening]
  cases colon with
  | true => rfl
  | false =>
      cases hopens : (Code.header h).continues with
      | true => rfl
      | false =>
          obtain ⟨body, hcheck⟩ := Header.check_text hopens
          simp only [Bool.false_eq_true, if_false, hcheck]
          split <;> rfl

end Tree

namespace Builder

/-- Adds a line of a program. -/
def write (b : Builder) (r : Row) : Builder :=
  b.addLine r.text r.line false

/-- Adds lines of a program. -/
def writeAll (b : Builder) (rows : List Row) : Builder :=
  rows.foldl write b

/-- Adding lines in two parts. -/
theorem writeAll_append (b : Builder) (rows rows' : List Row) :
    b.writeAll (rows ++ rows') = (b.writeAll rows).writeAll rows' :=
  List.foldl_append

/-- Adding lines does not change which blocks are open. -/
@[simp] theorem blocks_writeAll (b : Builder) (rows : List Row) :
    (b.writeAll rows).blocks = b.blocks := by
  induction rows generalizing b with
  | nil => rfl
  | cons r rest ih => exact ih (b.write r)

/-- Adding lines does not change the indentation. -/
@[simp] theorem indent_writeAll (b : Builder) (rows : List Row) :
    (b.writeAll rows).indent = b.indent := by
  induction rows generalizing b with
  | nil => rfl
  | cons r rest ih => exact ih (b.write r)

/-- Each added line is one more. -/
theorem size_writeAll (b : Builder) (rows : List Row) :
    (b.writeAll rows).lines.size = b.lines.size + rows.length := by
  induction rows generalizing b with
  | nil => rfl
  | cons r rest ih =>
      have hsize : (b.write r).lines.size = b.lines.size + 1 := Array.size_push _
      rw [writeAll, List.foldl_cons, ← writeAll, ih, hsize, List.length_cons]
      omega

/-- Lines are added in the same way whatever blocks are open. -/
theorem writeAll_withBlocks (b : Builder) (rows : List Row) (blocks : List Block) (indent : Nat) :
    ({ b with blocks := blocks, indent := indent } : Builder).writeAll rows =
      { b.writeAll rows with blocks := blocks, indent := indent } := by
  induction rows generalizing b with
  | nil => rfl
  | cons r rest ih => exact ih (b.write r)

variable {b : Builder} {depth : Nat}

/-- An indented line is a line of a program at the depth of the builder. -/
theorem addLine_eq_write (hb : b.indent = indentStep * depth) (code : Code) (line : Int) :
    b.addLine code.text line true = b.write ⟨depth, code, line⟩ := by
  rw [write, addLine, addLine, if_pos rfl, if_neg Bool.false_ne_true, Row.text, hb]

/-! ## Texts and values -/

/-- A text adds its line. -/
theorem addText_eq (hb : b.indent = indentStep * depth) (t : Text) (line : Int) :
    b.addText t line = b.writeAll (emitRows depth t line) := by
  rw [addText, emitRows]
  by_cases ht : t = []
  · rw [dif_pos ht, ht]
    rfl
  · rw [dif_neg ht, List.isEmpty_eq_false_iff.2 ht, if_neg Bool.false_ne_true, List.append_assoc]
    exact addLine_eq_write hb (.emit t ht) line

/-- A word has no blanks around it. -/
theorem trim_word (x : Word) :
    Text.trim x.text = x.text ∧ x.text.takeWhile Text.isBlank = [] ∧ x.text ≠ [] := by
  have hblank (c : Char) (hc : c ∈ x.text) : ¬ Text.isBlank c := by
    simp [(nameChar_facts (nameChar_of_mem x.isName_text hc)).2.2.1]
  refine ⟨(trim_of_ends (fun c hc => hblank c (List.mem_of_mem_head? hc))
    fun c hc => hblank c (List.mem_of_mem_getLast? hc)).1, ?_, ?_⟩
  · cases hx : x.text with
    | nil => rfl
    | cons c r => exact List.takeWhile_cons_of_neg (hblank c (by rw [hx]; exact List.mem_cons_self))
  · intro hnil
    have h := x.isName_text
    rw [hnil] at h
    exact Bool.false_ne_true h

/-- A word, blanks around it aside, adds the line that puts out its value. -/
theorem addExpr_eq (hb : b.indent = indentStep * depth) (escaped : Bool) {x : Word} {code : Text}
    (hcode : Text.trim code = x.text) (line : Int) :
    b.addExpr code escaped line =
      b.write ⟨depth, .put escaped x, line + Text.breaks (code.takeWhile Text.isBlank)⟩ := by
  have hempty : x.text.isEmpty = false := List.isEmpty_eq_false_iff.2 (trim_word x).2.2
  have hremark : x.text.contains '#' = false := by
    rw [← Bool.not_eq_true, List.contains_iff_mem]
    exact fun hmem => (nameChar_facts (nameChar_of_mem x.isName_text hmem)).2.2.2.1 rfl
  have hlines : Text.lines (Code.put escaped x).text = [(Code.put escaped x).text] :=
    Text.lines_of_not_mem fun hmem => absurd (Code.le_toNat_of_mem hmem) (by decide)
  have hcall : "_buf.append(".toList ++ (if escaped then "_escape".toList else "_str".toList) ++
      '(' :: x.text ++ "))".toList = (Code.put escaped x).text := by
    rw [Code.text_put]
    cases escaped <;> simp [wrapper]
  rw [addExpr]
  simp only [hcode, hempty, hremark, hcall, hlines, Bool.false_eq_true, if_false]
  refine Eq.trans ?_ (addLine_eq_write hb (.put escaped x) _)
  simp

/-! ## Blocks -/

/-- A header adds its line and opens a block. -/
theorem addOpening_eq (hb : b.indent = indentStep * depth) (h : Header) (colon : Bool) (line : Int) :
    ∃ word, b.addOpening [⟨line, h.text colon, true⟩] =
      .ok ((b.write ⟨depth, .header h, line⟩).openBlock word line) := by
  have hlast (t : Text) : lastLogical [⟨line, t, true⟩] = [⟨line, t, true⟩] := rfl
  have hcolon : (if Text.endsWith (Text.trimEnd (h.text colon)) [':'] then
      [⟨line, h.text colon, true⟩] else addColon [⟨line, h.text colon, true⟩]) =
      ([⟨line, h.text true, true⟩] : List CodeLine) := by
    rw [(trim_of_isSingle (h.isSingle_text colon)).2.2, h.endsWith_text colon]
    cases colon <;> rfl
  have hcode : b.addCode [⟨line, h.text true, true⟩] = b.write ⟨depth, .header h, line⟩ :=
    addLine_eq_write hb (.header h) line
  refine ⟨blockWord (h.text true), ?_⟩
  rw [addOpening]
  simp only [hlast, List.map_cons, List.map_nil, Text.joinLines, h.opensBlock_text colon, hcolon,
    hcode]

/-- A directive that closes a block gives a body without lines one that does nothing. -/
theorem closeFor_eq (hb : b.indent = indentStep * depth) (template : String) (word : Text)
    (line : Int) (rows : List Row) (first : CodeLine) :
    ((b.openBlock word line).writeAll rows).closeFor template first =
      .ok (b.writeAll (bodyRows (depth + 1) first.line rows)) := by
  rw [closeFor, closeBlock?, openBlock, writeAll_withBlocks]
  by_cases hrows : rows = []
  · subst hrows
    simp only [writeAll, List.foldl_nil, bodyRows, if_true, List.foldl_cons]
    have hidle : ({ b with indent := b.indent + indentStep } : Builder).addLine idleLine first.line
        true = { b.write ⟨depth + 1, .idle, first.line⟩ with indent := b.indent + indentStep } := by
      rw [write, addLine, addLine, if_pos rfl, if_neg Bool.false_ne_true, Row.text, hb, Nat.mul_succ]
      rfl
    rw [hidle]
    simp [write, addLine]
  · have hsize : (b.writeAll rows).lines.size ≠ b.lines.size := by
      rw [size_writeAll]
      have := List.length_pos_iff.2 hrows
      omega
    have hindent : b.indent + indentStep - indentStep = b.indent := Nat.add_sub_cancel _ _
    simp only [if_neg hsize, bodyRows, if_neg hrows, hindent]
    rw [← blocks_writeAll b rows, ← indent_writeAll b rows]

/-! ## Segments -/

/-- Adds the instructions of segments. -/
def addAll (b : Builder) (template : String) (segments : List Segment) : Except CompileError Builder :=
  (Instruction.ofSegments segments).foldlM (fun b i => b.add template i) b

/-- Adding segments in two parts. -/
theorem addAll_append (b : Builder) (template : String) (segments segments' : List Segment) :
    b.addAll template (segments ++ segments') =
      b.addAll template segments >>= fun b => b.addAll template segments' := by
  rw [addAll, Instruction.ofSegments, List.flatMap_append, List.foldlM_append]
  rfl

/-- Adding one segment and then others. -/
theorem addAll_cons {template : String} {b b' : Builder} {segment : Segment}
    (h : b.addAll template [segment] = .ok b') (segments : List Segment) :
    b.addAll template (segment :: segments) = b'.addAll template segments := by
  rw [← List.singleton_append, addAll_append, h]
  rfl

/-- Adding a statement within a line. -/
theorem addAll_statement (b : Builder) (template : String) (code : Text) (line : Int) :
    b.addAll template [inline .statement code line] = b.addStatement template code line := by
  have hinstr : Instruction.ofSegments [inline .statement code line] = [.runStatement code line] := rfl
  rw [addAll, hinstr, List.foldlM_cons]
  exact bind_pure _

/-- A header that starts a block adds its line and opens the block. -/
theorem addAll_opening (hb : b.indent = indentStep * depth) (template : String) (head : Head)
    {h : Header} (hopens : (Code.header h).continues = false) :
    ∃ word, b.addAll template [head.segment h] =
      .ok ((b.write ⟨depth, .header h, head.line⟩).openBlock word head.line) := by
  obtain ⟨word, hword⟩ := addOpening_eq hb h head.colon head.line
  have hsingle := h.isSingle_text head.colon
  obtain ⟨htrim, hstart, -⟩ := trim_of_isSingle hsingle
  refine ⟨word, ?_⟩
  change b.addAll template [inline .statement (h.text head.colon) head.line] = _
  rw [addAll_statement, addStatement, codeLines_of_isSingle hsingle]
  simp only [htrim, hstart, h.not_isEndWord, (h.leadingWord?_text head.colon).1, hopens,
    Bool.and_false, Bool.false_eq_true, if_false]
  exact hword

/-- A header that continues a block closes it and opens another. -/
theorem addAll_sibling (hb : b.indent = indentStep * depth) (template : String) (word : Text)
    (line : Int) (rows : List Row) (head : Head) {h : Header}
    (hcontinues : (Code.header h).continues = true) :
    ∃ word', ((b.openBlock word line).writeAll rows).addAll template [head.segment h] =
      .ok (((b.writeAll (bodyRows (depth + 1) head.line rows)).write
        ⟨depth, .header h, head.line⟩).openBlock word' head.line) := by
  have hb' : (b.writeAll (bodyRows (depth + 1) head.line rows)).indent = indentStep * depth :=
    (indent_writeAll b _).trans hb
  obtain ⟨word', hword⟩ := addOpening_eq hb' h head.colon head.line
  have hsingle := h.isSingle_text head.colon
  obtain ⟨htrim, hstart, -⟩ := trim_of_isSingle hsingle
  refine ⟨word', ?_⟩
  change addAll _ template [inline .statement (h.text head.colon) head.line] = _
  rw [addAll_statement, addStatement, codeLines_of_isSingle hsingle]
  simp only [htrim, hstart, h.not_isEndWord, (h.leadingWord?_text head.colon).1, hcontinues,
    Bool.and_false, Bool.false_eq_true, if_false, if_true, closeFor_eq hb]
  exact hword

/-- The words that close blocks are single lines. -/
theorem isSingle_of_isEndWord {t : Text} (h : isEndWord t) : isSingle t := by
  have hwords : ∀ w ∈ "" :: openingWords, isSingle ("end".toList ++ w.toList) := by
    decide +kernel
  rw [isEndWord, Bool.or_eq_true, beq_iff_eq, List.any_eq_true] at h
  rcases h with rfl | ⟨w, hw, heq⟩
  · exact hwords "" List.mem_cons_self
  · rw [beq_iff_eq.1 heq]
    exact hwords w (List.mem_cons_of_mem _ hw)

/-- A directive that closes a block closes it. -/
theorem addAll_closing (hb : b.indent = indentStep * depth) (template : String) (word : Text)
    (line : Int) (rows : List Row) (closing : Closing) :
    ((b.openBlock word line).writeAll rows).addAll template [closing.segment] =
      .ok (b.writeAll (bodyRows (depth + 1) closing.line rows)) := by
  have hsingle := isSingle_of_isEndWord closing.isEnd
  rw [Closing.segment, addAll_statement, addStatement, codeLines_of_isSingle hsingle]
  simp only [(trim_of_isSingle hsingle).1, closing.isEnd, List.isEmpty_nil, Bool.and_self, if_true,
    closeFor_eq hb]

/-- The body of a block is one deeper. -/
theorem indent_openBlock (hb : b.indent = indentStep * depth) (r : Row) (word : Text) (line : Int) :
    ((b.write r).openBlock word line).indent = indentStep * (depth + 1) := by
  rw [Nat.mul_succ, ← hb]
  rfl

/-- A header, the body behind it, and what comes behind the body. -/
theorem addAll_headed {template : String} {b₁ b₂ : Builder} {first : Segment} {body rest : List Segment}
    {r : Except CompileError Builder} (hopen : b.addAll template [first] = .ok b₁)
    (hbody : b₁.addAll template body = .ok b₂) (hrest : b₂.addAll template rest = r) :
    b.addAll template (first :: (body ++ rest)) = r :=
  calc b.addAll template (first :: (body ++ rest)) = b₁.addAll template (body ++ rest) :=
        addAll_cons hopen _
    _ = b₂.addAll template rest := by
        rw [addAll_append, hbody]
        rfl
    _ = r := hrest

mutual

/-- The segments of a node add its lines. -/
theorem addAll_node (template : String) : (n : Node) → {b : Builder} → {depth : Nat} →
    b.indent = indentStep * depth → b.addAll template n.segments = .ok (b.writeAll (n.rows depth))
  | .text t line, b, depth, hb => congrArg Except.ok (addText_eq hb t line)
  | .remark code line, b, depth, hb => by
      have hinstr : Instruction.ofSegments (Node.segments (.remark code line)) =
          match Text.breaks code with
          | 0 => []
          | k => [.emitText (List.replicate k '\n') line] := by
        cases hbreaks : Text.breaks code <;>
          simp only [Node.segments, Instruction.ofSegments, List.flatMap_singleton, Tree.inline,
            Segment.instructions, Directive.instructions, Directive.trims, Instruction.ofSpace,
            Directive.core, List.append_nil, List.nil_append, ite_self, hbreaks]
      rw [addAll, hinstr, Node.rows, remarkText]
      cases Text.breaks code with
      | zero => rfl
      | succ k => exact congrArg Except.ok (addText_eq hb (List.replicate (k + 1) '\n') line)
  | .output escaped x line, b, depth, hb => by
      have hinstr : Instruction.ofSegments (Node.segments (.output escaped x line)) =
          [.emitExpr x.text escaped line] := by
        cases escaped <;> rfl
      rw [addAll, hinstr]
      have hword := trim_word x
      have hadd := addExpr_eq hb escaped hword.1 line
      rw [hword.2.1, Text.breaks, List.count_nil, Int.natCast_zero, Int.add_zero] at hadd
      exact congrArg Except.ok hadd
  | .loop head target source body closing, b, depth, hb => by
      let header : Header := .loop target source
      let b' := b.write ⟨depth, .header header, head.line⟩
      obtain ⟨word, hopen⟩ : ∃ word, b.addAll template [head.segment header] =
        .ok (b'.openBlock word head.line) := addAll_opening hb template head rfl
      have hbody : (b'.openBlock word head.line).addAll template (segmentsAll body) =
          .ok ((b'.openBlock word head.line).writeAll (rowsAll (depth + 1) body)) :=
        addAll_nodes template body (indent_openBlock hb _ word head.line)
      exact addAll_headed hopen hbody (addAll_closing (b := b') hb template word head.line _ closing)
  | .choice head test body rest, b, depth, hb => by
      let header : Header := .test false test
      let b' := b.write ⟨depth, .header header, head.line⟩
      obtain ⟨word, hopen⟩ : ∃ word, b.addAll template [head.segment header] =
        .ok (b'.openBlock word head.line) := addAll_opening hb template head rfl
      have hbody : (b'.openBlock word head.line).addAll template (segmentsAll body) =
          .ok ((b'.openBlock word head.line).writeAll (rowsAll (depth + 1) body)) :=
        addAll_nodes template body (indent_openBlock hb _ word head.line)
      exact addAll_headed hopen hbody (addAll_branches template rest (b := b') hb word head.line _)

/-- The segments of further branches end the body of the branch before and add their lines. -/
theorem addAll_branches (template : String) : (bs : Branches) → {b : Builder} → {depth : Nat} →
    b.indent = indentStep * depth → (word : Text) → (line : Int) → (rows : List Row) →
    ((b.openBlock word line).writeAll rows).addAll template bs.segments =
      .ok (b.writeAll (bodyRows (depth + 1) bs.line rows ++ bs.rows depth))
  | .finish closing, b, depth, hb, word, line, rows => by
      rw [Branches.rows, List.append_nil]
      exact addAll_closing hb template word line rows closing
  | .otherwise head body closing, b, depth, hb, word, line, rows => by
      let before := b.writeAll (bodyRows (depth + 1) head.line rows)
      let b' := before.write ⟨depth, .header .otherwise, head.line⟩
      have hbefore : before.indent = indentStep * depth := (indent_writeAll b _).trans hb
      obtain ⟨word', hopen⟩ : ∃ word',
        ((b.openBlock word line).writeAll rows).addAll template [head.segment .otherwise] =
          .ok (b'.openBlock word' head.line) := addAll_sibling hb template word line rows head rfl
      have hbody : (b'.openBlock word' head.line).addAll template (segmentsAll body) =
          .ok ((b'.openBlock word' head.line).writeAll (rowsAll (depth + 1) body)) :=
        addAll_nodes template body (indent_openBlock hbefore _ word' head.line)
      rw [writeAll_append]
      exact addAll_headed hopen hbody
        (addAll_closing (b := b') hbefore template word' head.line _ closing)
  | .elseIf head test body rest, b, depth, hb, word, line, rows => by
      let header : Header := .test true test
      let before := b.writeAll (bodyRows (depth + 1) head.line rows)
      let b' := before.write ⟨depth, .header header, head.line⟩
      have hbefore : before.indent = indentStep * depth := (indent_writeAll b _).trans hb
      obtain ⟨word', hopen⟩ : ∃ word',
        ((b.openBlock word line).writeAll rows).addAll template [head.segment header] =
          .ok (b'.openBlock word' head.line) := addAll_sibling hb template word line rows head rfl
      have hbody : (b'.openBlock word' head.line).addAll template (segmentsAll body) =
          .ok ((b'.openBlock word' head.line).writeAll (rowsAll (depth + 1) body)) :=
        addAll_nodes template body (indent_openBlock hbefore _ word' head.line)
      rw [writeAll_append]
      exact addAll_headed hopen hbody
        (addAll_branches template rest (b := b') hbefore word' head.line _)

/-- The segments of a sequence of nodes add their lines. -/
theorem addAll_nodes (template : String) : (ns : List Node) → {b : Builder} → {depth : Nat} →
    b.indent = indentStep * depth →
    b.addAll template (segmentsAll ns) = .ok (b.writeAll (rowsAll depth ns))
  | [], b, depth, hb => rfl
  | n :: rest, b, depth, hb => by
      have hrest := addAll_nodes template rest ((indent_writeAll b (n.rows depth)).trans hb)
      rw [segmentsAll, addAll_append, addAll_node template n hb, rowsAll, writeAll_append]
      exact hrest

end

/-! ## Line maps -/

/-- The template lines of the lines of a program from a line on. -/
def rowLines (start : Nat) (rows : List Row) : List (Int × Int) :=
  (rows.zipIdx start).map fun x => (x.2, x.1.line)

/-- What a builder holds when the lines of a program have been added to it. -/
structure Holds (b : Builder) (rows : List Row) : Prop where
  lines : b.lines.toList = rows.map Row.text
  entries : b.lineMap.entries = rowLines 1 rows

/-- An empty builder holds no lines. -/
theorem holds_empty : empty.Holds [] := ⟨rfl, rfl⟩

/-- Adding a line to a builder. -/
theorem Holds.write {rows : List Row} (h : b.Holds rows) (r : Row) : (b.write r).Holds (rows ++ [r]) := by
  have hsize : b.lines.size = rows.length := by
    rw [← Array.length_toList, h.lines, List.length_map]
  have hnew : ¬ b.lineMap.entries.any (·.1 == (b.lines.size : Int) + 1) := by
    rw [h.entries, hsize, List.any_eq_true]
    rintro ⟨e, he, heq⟩
    obtain ⟨⟨r', i⟩, hi, rfl⟩ := List.mem_map.1 he
    have hlt : i < rows.length + 1 := List.snd_lt_of_mem_zipIdx hi
    have heq : (i : Int) = rows.length + 1 := beq_iff_eq.1 heq
    omega
  refine ⟨?_, ?_⟩
  · rw [List.map_append, ← h.lines, Builder.write, addLine, if_neg Bool.false_ne_true]
    exact Array.toList_push
  · have hset : (b.write r).lineMap = b.lineMap.set (b.lines.size + 1) r.line := rfl
    rw [hset, LineMap.set, if_neg hnew, h.entries, hsize, rowLines, rowLines, List.zipIdx_append]
    simp [Nat.add_comm 1]

/-- Adding lines to a builder. -/
theorem Holds.writeAll {rows rows' : List Row} (h : b.Holds rows) :
    (b.writeAll rows').Holds (rows ++ rows') := by
  induction rows' generalizing b rows with
  | nil => exact (List.append_nil rows).symm ▸ h
  | cons r rest ih => exact List.append_cons rows r rest ▸ ih (h.write r)

/-- A builder that holds the lines of a program has its text. -/
theorem Holds.text {rows : List Row} (h : b.Holds rows) : b.text = programText rows := by
  rw [Builder.text, h.lines, programText, List.flatMap_map]

/-- The template line of a line of a program. -/
theorem lookup_rowLines {rows : List Row} {i : Nat} {r : Row} (h : rows[i]? = some r) (start : Nat) :
    (rowLines start rows).lookup ((start + i : Nat) : Int) = some r.line := by
  have hnumbered : rowLines start rows = Draft.numbered start (rows.map (·.line)) := by
    rw [rowLines, Draft.numbered, List.zipIdx_map, List.map_map]
    rfl
  rw [hnumbered, Draft.lookup_numbered, List.getElem?_map, h]
  rfl

/-- The line map of a builder that holds the lines of a program. -/
theorem Holds.find? {rows : List Row} (h : b.Holds rows) {i : Nat} {r : Row} (hr : rows[i]? = some r) :
    b.lineMap.find? ((1 + i : Nat) : Int) = some r.line := by
  have hget : b.lineMap.get? ((1 + i : Nat) : Int) = some r.line := by
    rw [LineMap.get?, h.entries, lookup_rowLines hr]
  rw [LineMap.find?, hget]

end Builder

/-- The program of a tree. -/
theorem generate_segmentsAll (template : String) (strict : Bool) (ns : List Node) :
    ∃ b, generate template strict (Instruction.ofSegments (segmentsAll ns)) = .ok b ∧
      b.Holds (rowsAll 0 ns) := by
  have hadd : Builder.empty.addAll template (segmentsAll ns) =
      .ok (Builder.empty.writeAll (rowsAll 0 ns)) := Builder.addAll_nodes template ns rfl
  have hholds : (Builder.empty.writeAll (rowsAll 0 ns)).Holds ([] ++ rowsAll 0 ns) :=
    Builder.holds_empty.writeAll
  have hblocks : (Builder.empty.writeAll (rowsAll 0 ns)).blocks = [] :=
    Builder.blocks_writeAll Builder.empty _
  refine ⟨Builder.empty.writeAll (rowsAll 0 ns), ?_, hholds⟩
  rw [generate, ← Builder.addAll, hadd]
  change Builder.finish _ template strict = _
  rw [Builder.finish, hblocks]

/-- Instructions whose program is a script are compiled. -/
theorem run_ofInstructions (settings : Settings) {name : String} {strict : Bool}
    {instructions : List Instruction} {b : Builder} {body : List Stmt}
    (hgenerate : generate name strict instructions = .ok b) (hcheck : check b.text = .ok body)
    (log : Array LogEntry) : ∃ log',
    (Program.ofInstructions settings name strict instructions).run.run log =
      (.ok ⟨instructions, b.text, name, b.lineMap, some body⟩, log') := by
  have hlift : (liftM (Except.ok b : Except CompileError Builder) : Logged CompileError Builder) =
    pure b := rfl
  have hchecked : checkGenerated b.text name b.lineMap = .ok body := by rw [checkGenerated, hcheck]
  rw [Program.ofInstructions, hgenerate, hlift, pure_bind]
  simp only [hchecked]
  cases settings.logSource <;> exact ⟨_, rfl⟩

end Stencil
