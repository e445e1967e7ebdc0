import Stencil.Proofs.Segment.Matching
import Stencil.Proofs.Text.Lines

/-!
# Templates with carriage returns

A template without carriage returns gets one in front of each of its line breaks. It still has the same
segments on the same lines: their texts get carriage returns too, and nothing else changes
(`scan_withReturns`).
-/

namespace Stencil

open Text (withReturns withReturns_cons withReturns_break withReturns_append)

/-! ## Cutting -/

namespace Text

variable {mark : Text}

/-- A mark without line breaks and carriage returns starts a text with carriage returns where it starts
the text. -/
theorem prefix_withReturns (hbreak : '\n' ∉ mark) (hreturn : '\r' ∉ mark) {t : Text} :
    mark <+: withReturns t ↔ mark <+: t := by
  constructor
  · induction mark generalizing t with
    | nil => exact fun _ => List.nil_prefix
    | cons a mark ih =>
        intro h
        cases t with
        | nil => exact absurd (List.prefix_nil.1 h) (List.cons_ne_nil a mark)
        | cons c t =>
            by_cases hc : c = '\n'
            · rw [hc, withReturns_break] at h
              exact absurd (List.cons_prefix_cons.1 h).1 fun ha => hreturn (ha ▸ List.mem_cons_self)
            · rw [withReturns_cons hc] at h
              obtain ⟨rfl, hrest⟩ := List.cons_prefix_cons.1 h
              exact List.cons_prefix_cons.2 ⟨rfl, ih (fun hm => hbreak (List.mem_cons_of_mem _ hm))
                (fun hm => hreturn (List.mem_cons_of_mem _ hm)) hrest⟩
  · rintro ⟨rest, rfl⟩
    rw [withReturns_append, withReturns_eq_self hbreak]
    exact List.prefix_append _ _

/-- A text is cut at such a mark in the same place. -/
theorem cutAt?_withReturns (hbreak : '\n' ∉ mark) (hreturn : '\r' ∉ mark) (t : Text) :
    cutAt? mark (withReturns t) =
      (cutAt? mark t).map fun x => (withReturns x.1, withReturns x.2) := by
  induction t with
  | nil => cases mark <;> rfl
  | cons c t ih =>
      by_cases hp : mark <+: c :: t
      · obtain ⟨rest, hrest⟩ := id hp
        have hdrop : (withReturns (c :: t)).drop mark.length = withReturns ((c :: t).drop mark.length) := by
          rw [← hrest, withReturns_append, withReturns_eq_self hbreak, List.drop_left, List.drop_left]
        rw [cutAt?_of_starts hp, cutAt?_of_starts ((prefix_withReturns hbreak hreturn).2 hp), hdrop]
        rfl
      · have hp' : ¬ mark <+: withReturns (c :: t) := mt (prefix_withReturns hbreak hreturn).1 hp
        by_cases hc : c = '\n'
        · rw [hc, withReturns_break] at hp'
          have hbreak' : ¬ mark <+: '\n' :: withReturns t := by
            intro h
            cases mark with
            | nil => exact hp List.nil_prefix
            | cons a mark =>
                exact hbreak ((List.cons_prefix_cons.1 h).1 ▸ List.mem_cons_self)
          rw [cutAt?_cons hp, hc, withReturns_break, cutAt?_cons hp', cutAt?_cons hbreak', ih,
            Option.map_map, Option.map_map, Option.map_map]
          rfl
        · rw [withReturns_cons hc] at hp' ⊢
          rw [cutAt?_cons hp, cutAt?_cons hp', ih, Option.map_map, Option.map_map]
          refine congrArg (Option.map · _) (funext fun x => ?_)
          exact Prod.ext (withReturns_cons hc x.1).symm rfl

end Text

namespace Segment

/-! ## Parts of a directive -/

/-- The kind of a directive is read off the same. -/
theorem takeKind_withReturns (t : Text) :
    takeKind (withReturns t) = ((takeKind t).1, withReturns (takeKind t).2) := by
  have hother {c : Char} (hc : c ≠ '=') (hc' : c ≠ '#') (r : Text) :
      takeKind (c :: r) = (.statement, c :: r) := by
    simp [takeKind, hc, hc']
  cases t with
  | nil => rfl
  | cons c t =>
      by_cases hequal : c = '='
      · rw [hequal, withReturns_cons (by decide)]
        cases t with
        | nil => rfl
        | cons d t =>
            by_cases hd : d = '='
            · rw [hd, withReturns_cons (by decide)]
              rfl
            · have hsingle {d : Char} (hd : d ≠ '=') (r : Text) :
                  takeKind ('=' :: d :: r) = (.escapedExpr, d :: r) := by
                simp [takeKind, hd]
              rw [hsingle hd]
              by_cases hbreak : d = '\n'
              · rw [hbreak, withReturns_break, hsingle (by decide)]
              · rw [withReturns_cons hbreak, hsingle hd]
      by_cases hremark : c = '#'
      · rw [hremark, withReturns_cons (by decide)]
        rfl
      · rw [hother hequal hremark]
        by_cases hbreak : c = '\n'
        · rw [hbreak, withReturns_break, hother (by decide) (by decide)]
        · rw [withReturns_cons hbreak, hother hequal hremark]

/-- The last character stays the last. -/
theorem getLast?_withReturns (t : Text) : (withReturns t).getLast? = t.getLast? := by
  rcases List.eq_nil_or_concat t with rfl | ⟨init, c, rfl⟩
  · rfl
  · rw [List.concat_eq_append, withReturns_append]
    by_cases hc : c = '\n'
    · simp [hc, withReturns]
    · simp [hc, withReturns]

/-- The code of a directive loses the same spaces. -/
theorem codeOf_withReturns (body : Text) : codeOf (withReturns body) = withReturns (codeOf body) := by
  have hstart : dropSpace (withReturns body) = withReturns (dropSpace body) := by
    have hother {c : Char} (hc : c ≠ ' ') (r : Text) : dropSpace (c :: r) = c :: r := by
      simp [dropSpace, hc]
    cases body with
    | nil => rfl
    | cons c r =>
        by_cases hspace : c = ' '
        · rw [hspace, withReturns_cons (by decide)]
          rfl
        · rw [hother hspace]
          by_cases hbreak : c = '\n'
          · rw [hbreak, withReturns_break, hother (by decide)]
          · rw [withReturns_cons hbreak, hother hspace]
  have hend (t : Text) : dropEndSpace (withReturns t) = withReturns (dropEndSpace t) := by
    rw [dropEndSpace, dropEndSpace, getLast?_withReturns]
    split
    · next hlast =>
        obtain ⟨init, rfl⟩ := List.getLast?_eq_some_iff.1 hlast
        rw [withReturns_append, withReturns_cons (by decide), List.dropLast_concat]
        exact List.dropLast_concat
    · rfl
  rw [codeOf, codeOf, hstart, hend]

/-- The end of a line is found in the same place. -/
theorem lineEnd?_withReturns {t : Text} (hreturn : '\r' ∉ t) :
    lineEnd? (withReturns t) = (lineEnd? t).map withReturns := by
  obtain ⟨gaps, s, rfl, hgaps, hs⟩ : ∃ gaps s, t = gaps ++ s ∧ (∀ c ∈ gaps, Text.isGap c) ∧
      ∀ c ∈ s.head?, ¬ Text.isGap c :=
    ⟨t.takeWhile Text.isGap, t.dropWhile Text.isGap, List.takeWhile_append_dropWhile.symm,
      fun c hc => List.mem_takeWhile_imp hc, fun c hc => by
        have h := List.head?_dropWhile_not Text.isGap t
        rw [Option.mem_def.1 hc] at h
        simpa using h⟩
  have hend {u : Text} (hu : ∀ c ∈ u.head?, ¬ Text.isGap c) :
      (gaps ++ u).takeWhile Text.isGap = gaps ∧ (gaps ++ u).drop gaps.length = u := by
    refine ⟨?_, List.drop_left⟩
    rw [List.takeWhile_append_of_pos hgaps]
    cases u with
    | nil => simp
    | cons c u => simp [hu c rfl]
  have hsame : withReturns gaps = gaps := Text.withReturns_eq_self fun h =>
    absurd (hgaps _ h) (by decide)
  rw [withReturns_append, hsame]
  cases s with
  | nil =>
      have hnone : lineEnd? (gaps ++ []) = none := by
        rw [lineEnd?]
        simp only [hend hs]
      rw [withReturns, hnone]
      rfl
  | cons c s =>
      by_cases hbreak : c = '\n'
      · rw [hbreak] at hs ⊢
        have hs' : ∀ c ∈ (withReturns ('\n' :: s)).head?, ¬ Text.isGap c := by
          rw [withReturns_break]
          intro c hc
          obtain rfl := Option.some.inj hc
          decide
        rw [lineEnd?, lineEnd?]
        simp only [hend hs, hend hs']
        rw [withReturns_break, Option.map_some, withReturns_append, hsame]
        rfl
      · -- a carriage return of the text itself would end the line with returns only
        have hc : c ≠ '\r' := fun h => hreturn (h ▸ List.mem_append_right _ List.mem_cons_self)
        have hs' : ∀ d ∈ (c :: withReturns s).head?, ¬ Text.isGap d := hs
        have hnone (r : Text) (hr : ∀ d ∈ (c :: r).head?, ¬ Text.isGap d) :
            lineEnd? (gaps ++ c :: r) = none := by
          rw [lineEnd?]
          simp only [hend hr]
          split <;> simp_all
        rw [withReturns_cons hbreak, hnone _ hs', hnone _ hs]
        rfl

/-- The indentation of a directive stays as it is. -/
theorem indentation?_withReturns (fresh : Bool) (b : Text) :
    indentation? fresh (withReturns b) = indentation? fresh b := by
  -- the last line starts behind the last break, and carriage returns stand ahead of breaks only
  have hboth : lastLine (withReturns b) = lastLine b ∧ ('\n' ∈ withReturns b ↔ '\n' ∈ b) := by
    induction b with
    | nil => exact ⟨rfl, Iff.rfl⟩
    | cons c b ih =>
        obtain ⟨ihline, ihmem⟩ := ih
        by_cases hmem : '\n' ∈ b
        · have hmem' := ihmem.2 hmem
          have hline (a : Text) : lastLine (a ++ withReturns b) = lastLine ([c] ++ b) := by
            rw [lastLine_append_of_mem hmem', lastLine_append_of_mem hmem, ihline]
          rw [withReturns]
          split
          · exact ⟨hline ['\r', '\n'], by simp [hmem]⟩
          · exact ⟨hline [c], by simp [hmem, hmem']⟩
        · have hsame := Text.withReturns_eq_self hmem
          rw [withReturns, hsame]
          split
          · next hc =>
              have hbreak : '\n' ∈ '\n' :: b := List.mem_cons_self
              rw [hc]
              exact ⟨lastLine_append_of_mem hbreak ['\r'], by simp⟩
          · exact ⟨rfl, Iff.rfl⟩
  have hcontains : (withReturns b).contains '\n' = b.contains '\n' := by
    rw [Bool.eq_iff_iff, List.contains_iff_mem, List.contains_iff_mem, hboth.2]
  rw [indentation?, indentation?, hboth.1, hcontains]

/-! ## Segments -/

/-- A directive that is found in a text with carriage returns. -/
def Found.withReturns (f : Found) : Found :=
  { f with
    before := Text.withReturns f.before, body := Text.withReturns f.body
    rspace := f.rspace.map Text.withReturns, rest := Text.withReturns f.rest }

/-- A segment of a template with carriage returns. The indentation of a directive holds no line break. -/
def withReturns : Segment → Segment
  | .literal text line => .literal (Text.withReturns text) line
  | .directive d =>
    .directive { d with code := Text.withReturns d.code, rspace := d.rspace.map Text.withReturns }

/-- The same directive is found first. -/
theorem find?_withReturns (fresh : Bool) {t : Text} (hreturn : '\r' ∉ t) :
    find? fresh (Text.withReturns t) = (find? fresh t).map Found.withReturns := by
  have hopen : '\n' ∉ openMark ∧ '\r' ∉ openMark := by decide
  have hclose : '\n' ∉ closeMark ∧ '\r' ∉ closeMark := by decide
  simp only [find?, bind, Text.cutAt?_withReturns hopen.1 hopen.2]
  cases hcut : Text.cutAt? openMark t with
  | none => rfl
  | some x =>
      obtain ⟨before, opened⟩ := x
      obtain ⟨rfl, -⟩ := Text.cutAt?_eq_some hcut
      have hopened := takeKind_eq opened
      simp only [Option.map_some, Option.bind_some, takeKind_withReturns,
        Text.cutAt?_withReturns hclose.1 hclose.2]
      cases hcut' : Text.cutAt? closeMark (takeKind opened).2 with
      | none => rfl
      | some y =>
          obtain ⟨body, after⟩ := y
          obtain ⟨hmarked, -⟩ := Text.cutAt?_eq_some hcut'
          have hafter : '\r' ∉ after := fun h => hreturn (by rw [hopened, hmarked]; simp [h])
          have hbefore := take_append_indentation? fresh before
          have hend := lineEnd?_append_drop after
          -- the white space around the directive is cut off in the same places
          have hspace : Text.withReturns ((indentation? fresh before).getD []) =
              (indentation? fresh before).getD [] := by
            refine Text.withReturns_eq_self fun h => ?_
            have hcount := breaks_indentation? fresh before
            exact absurd (List.count_pos_iff.2 h) (by rw [Text.breaks] at hcount; omega)
          have htake : (Text.withReturns before).take ((Text.withReturns before).length -
              ((indentation? fresh before).getD []).length) = Text.withReturns
                (before.take (before.length - ((indentation? fresh before).getD []).length)) := by
            have hsplit := congrArg Text.withReturns hbefore
            rw [withReturns_append, hspace] at hsplit
            rw [← hsplit, List.length_append, Nat.add_sub_cancel, List.take_left]
          have hdrop : (Text.withReturns after).drop
              (((lineEnd? after).map Text.withReturns).getD []).length =
                Text.withReturns (after.drop ((lineEnd? after).getD []).length) := by
            have hsplit := congrArg Text.withReturns hend
            have hgetD : ((lineEnd? after).map Text.withReturns).getD [] =
                Text.withReturns ((lineEnd? after).getD []) := by
              cases lineEnd? after <;> rfl
            rw [withReturns_append] at hsplit
            rw [hgetD, hsplit, List.drop_left]
          simp only [Option.map_some, Option.bind_some, pure, indentation?_withReturns,
            lineEnd?_withReturns hafter, htake, hdrop]
          rfl

/-- The scan goes on in the same way, with fuel for each character. -/
theorem scanFrom_withReturns {fuel fuel' : Nat} {t : Text} (hreturn : '\r' ∉ t)
    (hfuel : t.length < fuel) (hfuel' : (Text.withReturns t).length < fuel') (fresh : Bool) (line : Int) :
    scanFrom fuel' fresh line (Text.withReturns t) = (scanFrom fuel fresh line t).map withReturns := by
  induction fuel generalizing fuel' t fresh line with
  | zero => exact absurd hfuel (Nat.not_lt_zero _)
  | succ fuel ih =>
      obtain ⟨fuel', rfl⟩ := Nat.exists_eq_add_of_le' (Nat.lt_of_le_of_lt (Nat.zero_le _) hfuel')
      rw [scanFrom, scanFrom, find?_withReturns fresh hreturn]
      cases hfind : find? fresh t with
      | none =>
          cases t with
          | nil => rfl
          | cons c t =>
              have hne : (Text.withReturns (c :: t)).isEmpty = false := by
                rw [List.isEmpty_eq_false_iff]
                exact mt Text.withReturns_eq_nil.1 (List.cons_ne_nil c t)
              simp [hne, withReturns]
      | some f =>
          have happend := find?_append hfind
          have hrest : '\r' ∉ f.rest := fun h => hreturn (by rw [happend]; simp [h])
          have htext : f.text ≠ [] := by simp [Found.text, openMark]
          -- the directive takes up characters of either text, so either scan has fuel for the rest
          have hlength := congrArg List.length happend
          have hlength' := congrArg (fun u => (Text.withReturns u).length) happend
          simp only [withReturns_append, List.length_append] at hlength hlength'
          have hpos := List.length_pos_iff.2 htext
          have hpos' := List.length_pos_iff.2 (mt Text.withReturns_eq_nil.1 htext)
          have hrec (fresh : Bool) (line : Int) : scanFrom fuel' fresh line (Text.withReturns f.rest) =
              (scanFrom fuel fresh line f.rest).map withReturns :=
            ih hrest (by omega) (by omega) fresh line
          have hempty : (Text.withReturns f.before).isEmpty = f.before.isEmpty := by
            rw [Bool.eq_iff_iff, List.isEmpty_iff, List.isEmpty_iff, Text.withReturns_eq_nil]
          have hbreaks : Found.breaks (Found.withReturns f) = f.breaks := by
            cases hspace : f.rspace <;> simp [Found.breaks, Found.withReturns, hspace]
          simp only [Option.map_some, hbreaks]
          simp only [Found.withReturns, Text.breaks_withReturns, codeOf_withReturns, Option.isSome_map,
            hempty, hrec]
          split <;> rfl

/-- A template gets a carriage return in front of each line break, and so do its segments. They stay on
the same lines. -/
theorem scan_withReturns {source : Text} (hreturn : '\r' ∉ source) (line : Int) :
    scan (Text.withReturns source) line = (scan source line).map withReturns :=
  scanFrom_withReturns hreturn (Nat.lt_succ_self _) (Nat.lt_succ_self _) true line

end Segment

end Stencil
