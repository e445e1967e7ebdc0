import Mathlib.Data.List.Find
import Stencil.Program.Generate
import Stencil.Proofs.Script.Continuation

/-!
# Statements as they are written

The lines of a statement that go into the program are those of its code less the common indentation,
blank lines dropped. What opens and closes blocks can be read off the code as it is written:
the first line that goes into the program is the first that is not blank (`codeLines_cases`), and a
statement of one end word has no other lines.
-/

namespace Stencil

/-! ## Leading words -/

/-- What follows a text does not change the word it starts with, if it starts with a character that is
none of a word. -/
theorem leadingWord?_append {words : List String} {t ending : Text}
    (hwords : ∀ w ∈ words, w.toList.all Text.isWord) (hend : ∀ c ∈ ending.head?, ¬ Text.isWord c) :
    leadingWord? words (t ++ ending) = leadingWord? words t := by
  have hiff : ∀ w ∈ words.map String.toList,
      (w.isPrefixOf (t ++ ending) && !(((t ++ ending).drop w.length).head?.any Text.isWord)) =
        (w.isPrefixOf t && !((t.drop w.length).head?.any Text.isWord)) := by
    intro w hw
    obtain ⟨s, hs, rfl⟩ := List.mem_map.1 hw
    have hword := List.all_eq_true.1 (hwords s hs)
    by_cases hle : s.toList.length ≤ t.length
    · rw [List.drop_append_of_le_length hle, List.head?_append]
      have hpre : s.toList.isPrefixOf (t ++ ending) = s.toList.isPrefixOf t := by
        rw [Bool.eq_iff_iff, List.isPrefixOf_iff_prefix, List.isPrefixOf_iff_prefix]
        exact ⟨fun h => List.prefix_of_prefix_length_le h (List.prefix_append _ _) hle,
          fun h => h.trans (List.prefix_append _ _)⟩
      rw [hpre]
      cases hdrop : (t.drop s.toList.length).head? with
      | some c => rfl
      | none =>
          cases hhead : ending.head? with
          | none => rfl
          | some c => simp [hend c hhead]
    · -- a longer word would hold the character behind the text
      have hnot : ¬ s.toList <+: t := fun h => hle h.length_le
      have hnot' : ¬ s.toList <+: t ++ ending := by
        rintro ⟨rest, hrest⟩
        obtain ⟨u, hu, htail⟩ : ∃ u, s.toList = t ++ u ∧ u ++ rest = ending := by
          rcases List.append_eq_append_iff.1 hrest with ⟨u, hu, htail⟩ | ⟨u, hu, htail⟩
          · exact absurd (hu ▸ List.length_append ▸ Nat.le_add_right _ _) hle
          · exact ⟨u, hu, htail.symm⟩
        cases u with
        | nil => exact hle (by simp [hu])
        | cons c u =>
            have hc : c ∈ s.toList := hu ▸ List.mem_append_right _ List.mem_cons_self
            exact hend c (htail ▸ rfl) (hword c hc)
      rw [Bool.eq_false_iff.2 (mt List.isPrefixOf_iff_prefix.1 hnot),
        Bool.eq_false_iff.2 (mt List.isPrefixOf_iff_prefix.1 hnot'), Bool.false_and, Bool.false_and]
  rw [leadingWord?, leadingWord?]
  exact List.find?_congr hiff

/-- The words that open blocks are made of word characters. -/
theorem isWord_openingWords : ∀ w ∈ openingWords, w.toList.all Text.isWord := by
  decide +kernel

/-- The words that continue blocks are made of word characters. -/
theorem isWord_siblingWords : ∀ w ∈ siblingWords, w.toList.all Text.isWord := by
  decide +kernel

/-- Blanks at the end do not change the word a text starts with. -/
theorem leadingWord?_trimEnd {words : List String} (hwords : ∀ w ∈ words, w.toList.all Text.isWord)
    (t : Text) : leadingWord? words (Text.trimEnd t) = leadingWord? words t := by
  obtain ⟨ending, heq, hblank⟩ := Text.exists_blank_ending t
  conv => rhs; rw [heq]
  refine (leadingWord?_append hwords fun c hc => (Text.nameless_of_isBlank ?_).1).symm
  exact List.all_eq_true.1 hblank c (List.mem_of_head? hc)

/-- A colon at the end does not change the word that names the block of a header. -/
theorem blockWord_colon (header : Text) : blockWord (header ++ [':']) = blockWord header := by
  have htrim : Text.trimStart (header ++ [':']) = Text.trimStart header ++ [':'] := by
    rw [Text.trimStart, List.dropWhile_append]
    by_cases h : Text.trimStart header = []
    · simp only [Text.trimStart] at h
      simp [Text.trimStart, h, Text.isBlank]
    · simp only [Text.trimStart] at h
      simp [Text.trimStart, h]
  have hcolon : ∀ c ∈ [':'].head?, ¬ Text.isWord c := by
    simp [Text.isWord, Text.isAlnum, Text.isAsciiLetter, Text.isAsciiDigit]
  rw [blockWord, blockWord, htrim, leadingWord?_append isWord_siblingWords hcolon,
    leadingWord?_append isWord_openingWords hcolon]

/-! ## Lines that go into the program -/

/-- A line of a statement, with its number, as it is read: trimmed and with its template line, unless it
is blank. -/
def contentLine? (line : Int) (x : Text × Nat) : Option (Int × Text) :=
  if (Text.trim x.1).isEmpty then none else some (line + x.2, Text.trim x.1)

/-- The lines of a statement that are not blank. -/
def contentLines (code : Text) (line : Int) : List (Int × Text) :=
  (Text.lines code).zipIdx.filterMap (contentLine? line)

/-- Only blank lines are left out. -/
theorem contentLine?_eq_none {line : Int} {x : Text × Nat} :
    contentLine? line x = none ↔ x.1.all Text.isBlank := by
  rw [contentLine?, ← Text.trim_eq_nil, ← List.isEmpty_iff]
  split <;> simp_all

/-- A text is blank, or has a first line that is not. -/
theorem blank_or_first (ls : List Text) :
    (∀ l ∈ ls, l.all Text.isBlank) ∨
      ∃ before l after, ls = before ++ l :: after ∧ (∀ l ∈ before, l.all Text.isBlank) ∧
        ¬ l.all Text.isBlank := by
  induction ls with
  | nil => exact .inl fun l h => absurd h List.not_mem_nil
  | cons l ls ih =>
      by_cases hl : l.all Text.isBlank
      · rcases ih with hblank | ⟨before, l', after, rfl, hbefore, hl'⟩
        · exact .inl fun l' h => (List.mem_cons.1 h).elim (fun h => h ▸ hl) (hblank l')
        · refine .inr ⟨l :: before, l', after, rfl, fun l'' h => ?_, hl'⟩
          exact (List.mem_cons.1 h).elim (fun h => h ▸ hl) (hbefore l'')
      · exact .inr ⟨[], l, ls, rfl, fun l' h => absurd h List.not_mem_nil, hl⟩

/-- Behind blank lines only no line continues a logical line. -/
theorem not_mem_continuationLines {code : Text} {i : Nat} (hi : i < (Text.lines code).length)
    (hblank : ∀ l ∈ (Text.lines code).take i, l.all Text.isBlank) :
    i ∉ Script.continuationLines (Text.dedent code) := by
  intro hmem
  have hlen : i < (Text.lines (Text.dedent code)).length := by
    rwa [Text.lines_dedent, List.length_map]
  obtain ⟨k, l, hk, hl, hne, -⟩ := Script.exists_start_of_mem_continuationLines hmem hlen
  rw [Text.lines_dedent, List.getElem?_map, Option.map_eq_some_iff] at hl
  obtain ⟨raw, hraw, rfl⟩ := hl
  rw [Text.blank_dedentLine (List.mem_of_getElem? hraw)] at hne
  refine hne (hblank raw (List.mem_of_getElem? (i := k) ?_))
  rw [List.getElem?_take_of_lt hk, hraw]

/-- How a line of a statement, with its number, goes into the program. -/
def codeLine? (code : Text) (line : Int) (x : Text × Nat) : Option CodeLine :=
  let continued := Script.continuationLines (Text.dedent code)
  let t := Text.dedentLine (Text.margin (Text.lines code)).length x.1
  if continued.contains x.2 then some ⟨line + x.2, t, false⟩
  else if (Text.trim t).isEmpty then none
  else some ⟨line + x.2, if continued.contains (x.2 + 1) then t else Text.trimEnd t, true⟩

/-- The lines of a statement go into the program one by one. -/
theorem codeLines_eq (code : Text) (line : Int) :
    codeLines code line = (Text.lines code).zipIdx.filterMap (codeLine? code line) := by
  rw [codeLines, Text.lines_dedent, List.zipIdx_map, List.filterMap_map]
  rfl

/-- The characters of the lines that go into the program are those of the statement. -/
theorem mem_of_mem_codeLines {code : Text} {line : Int} {l : CodeLine} (h : l ∈ codeLines code line)
    {c : Char} (hc : c ∈ l.text) : c ∈ code := by
  rw [codeLines_eq] at h
  obtain ⟨x, hx, hl⟩ := List.mem_filterMap.1 h
  suffices hmem : c ∈ Text.dedentLine (Text.margin (Text.lines code)).length x.1 from
    Text.mem_of_mem_lines (List.fst_mem_of_mem_zipIdx hx) (Text.mem_of_mem_dedentLine hmem)
  rw [codeLine?] at hl
  split at hl
  · obtain rfl := Option.some.inj hl
    exact hc
  · split at hl
    · cases hl
    · obtain rfl := Option.some.inj hl
      dsimp only at hc
      split at hc
      · exact hc
      · exact Text.mem_of_mem_trimEnd hc

/-- A line that is not blank goes into the program. -/
theorem codeLine?_ne_none {code : Text} {line : Int} {x : Text × Nat} (hx : x.1 ∈ Text.lines code)
    (h : ¬ x.1.all Text.isBlank) : codeLine? code line x ≠ none := by
  have htrim : Text.trim (Text.dedentLine (Text.margin (Text.lines code)).length x.1) ≠ [] := by
    rw [Text.trim_dedentLine hx]
    exact mt Text.trim_eq_nil.1 h
  rw [codeLine?]
  split
  · exact Option.some_ne_none _
  · rw [if_neg (mt List.isEmpty_iff.1 htrim)]
    exact Option.some_ne_none _

/-- A blank line that continues no logical line does not go into the program. -/
theorem codeLine?_eq_none {code : Text} {line : Int} {x : Text × Nat} (hx : x.1 ∈ Text.lines code)
    (h : x.1.all Text.isBlank) (hnot : x.2 ∉ Script.continuationLines (Text.dedent code)) :
    codeLine? code line x = none := by
  have htrim : Text.trim (Text.dedentLine (Text.margin (Text.lines code)).length x.1) = [] := by
    rw [Text.trim_dedentLine hx]
    exact Text.trim_eq_nil.2 h
  rw [codeLine?, if_neg (by simpa using hnot), htrim]
  rfl

/-- The end words hold plain characters only. -/
theorem isPlain_of_isEndWord {t : Text} (h : isEndWord t) : t.all Script.isPlain := by
  rw [isEndWord, Bool.or_eq_true, beq_iff_eq, List.any_eq_true] at h
  rcases h with rfl | ⟨w, hw, ht⟩
  · decide +kernel
  · have hplain : ∀ w ∈ openingWords, ("end".toList ++ w.toList).all Script.isPlain := by
      decide +kernel
    rw [eq_of_beq ht]
    exact hplain w hw

/-- A statement whose lines are end words has no continuation lines, dedented or not. -/
theorem continuationLines_of_isEndWord {code : Text} {line : Int}
    (h : ∀ x ∈ contentLines code line, isEndWord x.2) :
    Script.continuationLines code = [] ∧ Script.continuationLines (Text.dedent code) = [] := by
  have hplain : ∀ c ∈ code, Script.isPlain c := by
    intro c hc
    rcases Text.mem_lines hc with rfl | ⟨l, hl, hc⟩
    · rfl
    · rcases Text.isBlank_or_mem_trim hc with hblank | htrim
      · exact Script.isPlain_of_isBlank hblank
      · obtain ⟨i, hi⟩ := List.mem_iff_getElem?.1 hl
        have hne : Text.trim l ≠ [] := List.ne_nil_of_mem htrim
        have hmem : (line + i, Text.trim l) ∈ contentLines code line :=
          List.mem_filterMap.2 ⟨(l, i), List.mk_mem_zipIdx_iff_getElem?.2 hi,
            if_neg (mt List.isEmpty_iff.1 hne)⟩
        exact List.all_eq_true.1 (isPlain_of_isEndWord (h _ hmem)) c htrim
  refine ⟨Script.continuationLines_of_plain (List.all_eq_true.2 hplain),
    Script.continuationLines_of_plain (List.all_eq_true.2 fun c hc => ?_)⟩
  rcases Text.mem_of_mem_dedent hc with rfl | hc
  · rfl
  · exact hplain c hc

/-- What is kept of lines begins with what is kept of the first one that is not dropped. -/
theorem filterMap_zipIdx_first {β : Type} {before after : List Text} {l : Text}
    {f : Text × Nat → Option β} {y : β} (hbefore : ∀ x ∈ before.zipIdx, f x = none)
    (hl : f (l, before.length) = some y) :
    (before ++ l :: after).zipIdx.filterMap f =
      y :: (after.zipIdx (before.length + 1)).filterMap f := by
  rw [List.zipIdx_append, List.filterMap_append, List.filterMap_eq_nil_iff.2 hbefore, Nat.zero_add,
    List.zipIdx_cons, List.filterMap_cons_some hl, List.nil_append]

/-- The first line of a statement that goes into the program is the first one that is not blank, and a
logical line starts there. A statement whose only line is an end word has no other lines. -/
theorem codeLines_cases (code : Text) (line : Int) :
    contentLines code line = [] ∧ codeLines code line = [] ∨
      ∃ t rest first more, contentLines code line = (first.line, t) :: rest ∧
        codeLines code line = first :: more ∧ first.starts ∧ Text.trim first.text = t ∧
        (more.isEmpty && isEndWord t) = (rest.isEmpty && isEndWord t) := by
  have hmem {x : Text × Nat} {ls : List Text} {n : Nat} (h : x ∈ ls.zipIdx n) : x.1 ∈ ls :=
    List.fst_mem_of_mem_zipIdx h
  rw [codeLines_eq, contentLines]
  rcases blank_or_first (Text.lines code) with hblank | ⟨before, l, after, hlines, hbefore, hl⟩
  · left
    constructor
    · exact List.filterMap_eq_nil_iff.2 fun x hx => contentLine?_eq_none.2 (hblank _ (hmem hx))
    · refine List.filterMap_eq_nil_iff.2 fun x hx =>
        codeLine?_eq_none (hmem hx) (hblank _ (hmem hx)) ?_
      exact not_mem_continuationLines (List.snd_lt_of_mem_zipIdx hx) fun l hl =>
        hblank l (List.mem_of_mem_take hl)
  · right
    have hnot {i : Nat} (hi : i ≤ before.length) :
        i ∉ Script.continuationLines (Text.dedent code) := by
      refine not_mem_continuationLines ?_ fun l hl => hbefore l ?_
      · rw [hlines, List.length_append, List.length_cons]
        omega
      · rw [hlines, List.take_append_of_le_length hi] at hl
        exact List.mem_of_mem_take hl
    have hlmem : l ∈ Text.lines code := by
      rw [hlines]
      exact List.mem_append_right _ List.mem_cons_self
    have htrim : Text.trim (Text.dedentLine (Text.margin (Text.lines code)).length l) = Text.trim l :=
      Text.trim_dedentLine hlmem
    have hne : Text.trim l ≠ [] := mt Text.trim_eq_nil.1 hl
    have hbefore' {x : Text × Nat} (hx : x ∈ before.zipIdx) : x.1 ∈ Text.lines code := by
      rw [hlines]
      exact List.mem_append_left _ (hmem hx)
    have hafter {x : Text × Nat} (hx : x ∈ after.zipIdx (before.length + 1)) :
        x.1 ∈ Text.lines code := by
      rw [hlines]
      exact List.mem_append_right _ (List.mem_cons_of_mem _ (hmem hx))
    -- the line of the program that the first line becomes
    obtain ⟨text, htext, hcode⟩ : ∃ text, Text.trim text = Text.trim l ∧
        codeLine? code line (l, before.length) = some ⟨line + before.length, text, true⟩ := by
      rw [codeLine?, if_neg (by simpa using hnot (Nat.le_refl _)), htrim,
        if_neg (mt List.isEmpty_iff.1 hne)]
      refine ⟨_, ?_, rfl⟩
      split
      · exact htrim
      · rw [Text.trim_trimEnd, htrim]
    have hcontent : contentLine? line (l, before.length) = some (line + before.length, Text.trim l) :=
      if_neg (mt List.isEmpty_iff.1 hne)
    have hcontents : (Text.lines code).zipIdx.filterMap (contentLine? line) =
        (line + before.length, Text.trim l) ::
          (after.zipIdx (before.length + 1)).filterMap (contentLine? line) := by
      rw [hlines]
      exact filterMap_zipIdx_first
        (fun x hx => contentLine?_eq_none.2 (hbefore _ (hmem hx))) hcontent
    refine ⟨Text.trim l, (after.zipIdx (before.length + 1)).filterMap (contentLine? line),
      ⟨line + before.length, text, true⟩,
      (after.zipIdx (before.length + 1)).filterMap (codeLine? code line), hcontents, ?_, rfl, htext,
      ?_⟩
    · conv => lhs; rw [hlines]
      exact filterMap_zipIdx_first (fun x hx => codeLine?_eq_none (hbefore' hx)
        (hbefore _ (hmem hx)) (hnot (Nat.le_of_lt (by simpa using List.snd_lt_of_mem_zipIdx hx)))) hcode
    · cases hend : isEndWord (Text.trim l) with
      | false => simp
      | true =>
          rw [Bool.and_true, Bool.and_true, Bool.eq_iff_iff, List.isEmpty_iff, List.isEmpty_iff,
            List.filterMap_eq_nil_iff, List.filterMap_eq_nil_iff]
          constructor
          · intro h x hx
            refine contentLine?_eq_none.2 (Classical.not_not.1 fun hblank => ?_)
            exact codeLine?_ne_none (hafter hx) hblank (h x hx)
          · intro h x hx
            have hwords : ∀ y ∈ contentLines code line, isEndWord y.2 := by
              intro y hy
              rw [contentLines, hcontents, List.filterMap_eq_nil_iff.2 h, List.mem_singleton] at hy
              exact hy ▸ hend
            refine codeLine?_eq_none (hafter hx) (contentLine?_eq_none.1 (h x hx)) ?_
            rw [(continuationLines_of_isEndWord hwords).2]
            exact List.not_mem_nil

end Stencil
