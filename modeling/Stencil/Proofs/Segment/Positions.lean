import Stencil.Proofs.Segment.Matching

/-!
# The scan described by places in the source

`Scans` describes the segments of a source by places in it: the least place at which a directive can
be opened, the first closing bracket behind its mark, and the texts between them. It determines the
segments (`scans_unique`), and both the scan and the leftmost matches of the directive pattern give
them (`scan_matches_description`).

A segment stands at a place of its source, and its line is the one of that place. The line breaks in the
code of a directive lead from the line of its opening bracket to the line of its closing bracket
(`stands_of_mem_scan`).
-/

namespace Stencil.Segment

/-- The text between two places of a source. -/
def between (source : Text) (p q : Nat) : Text :=
  (source.drop p).take (q - p)

/-- A directive can be opened at a place: `<%` stands there, and `%>` somewhere behind it. -/
def OpensAt (source : Text) (i : Nat) : Prop :=
  openMark <+: source.drop i ∧ ∃ j, i + openMark.length ≤ j ∧ closeMark <+: source.drop j

/-- The least place with a property, from a place on. -/
def FirstFrom (P : Nat → Prop) (p i : Nat) : Prop :=
  p ≤ i ∧ P i ∧ ∀ k, p ≤ k → k < i → ¬ P k

/-- The text from the start of a place's line to the place, when it holds only gaps. -/
def gapsBefore (source : Text) (i : Nat) : Option Text :=
  let line := lastLine (source.take i)
  if line.all Text.isGap then some line else none

/-- The segments of a source from place `p` on, which is on the given line. -/
inductive Scans (source : Text) : Nat → Int → List Segment → Prop where
  | rest {p line} (hnone : ∀ i, p ≤ i → ¬ OpensAt source i) :
      Scans source p line (literalOf (source.drop p) line)
  | directive {p i j line kind lspace rspace start next segments}
      (hopen : FirstFrom (OpensAt source) p i)
      (hkind : (takeKind (source.drop (i + openMark.length))).1 = kind)
      (hclose : FirstFrom (closeMark <+: source.drop ·) (i + openMark.length + kind.mark.length) j)
      (hlspace : gapsBefore source i = lspace)
      (hrspace : lineEnd? (source.drop (j + closeMark.length)) = rspace)
      (hstart : start + (lspace.getD []).length = i)
      (hnext : j + closeMark.length + (rspace.getD []).length = next)
      (hrest : Scans source next (line + Text.breaks (between source p next)) segments) :
      Scans source p line (literalOf (between source p start) line ++
        .directive ⟨kind, codeOf (between source (i + openMark.length + kind.mark.length) j),
          lspace, rspace, line + Text.breaks (between source p start)⟩ :: segments)

/-- The least place with a property is unique. -/
theorem firstFrom_unique {P : Nat → Prop} {p i k : Nat} (hi : FirstFrom P p i)
    (hk : FirstFrom P p k) : i = k := by
  obtain ⟨hpi, hPi, hleasti⟩ := hi
  obtain ⟨hpk, hPk, hleastk⟩ := hk
  rcases Nat.lt_trichotomy i k with hlt | heq | hgt
  · exact absurd hPi (hleastk i hpi hlt)
  · exact heq
  · exact absurd hPk (hleasti k hpk hgt)

/-- The description determines the segments. -/
theorem scans_unique {source : Text} {p : Nat} {line : Int} {segments others : List Segment}
    (h : Scans source p line segments) (hother : Scans source p line others) :
    segments = others := by
  induction h generalizing others with
  | rest hnone =>
      cases hother with
      | rest => rfl
      | directive hopen => exact absurd hopen.2.1 (hnone _ hopen.1)
  | directive hopen hkind hclose hlspace hrspace hstart hnext _ ih =>
      cases hother with
      | rest hnone => exact absurd hopen.2.1 (hnone _ hopen.1)
      | directive hopen' hkind' hclose' hlspace' hrspace' hstart' hnext' hrest' =>
          obtain rfl := firstFrom_unique hopen hopen'
          subst hkind hkind'
          obtain rfl := firstFrom_unique hclose hclose'
          subst hlspace hlspace' hrspace hrspace' hnext hnext'
          obtain rfl := Nat.add_right_cancel (hstart.trans hstart'.symm)
          rw [ih hrest']

/-- The place at which the scan goes on is behind a line break exactly when a line starts there, and
else behind a closing bracket. -/
def ResumesAt (source : Text) (p : Nat) (fresh : Bool) : Prop :=
  if fresh then lastLine (source.take p) = []
  else ∃ before, source.take p = before ++ ['>']

/-- Where the scan finds nothing no directive can be opened. -/
theorem not_opensAt {source : Text} {p : Nat} {fresh : Bool}
    (h : find? fresh (source.drop p) = none) {i : Nat} (hi : p ≤ i) : ¬ OpensAt source i := by
  rintro ⟨hopen, j, hj, hclose⟩
  obtain ⟨k, rfl⟩ := Nat.exists_eq_add_of_le hi
  rw [← List.drop_drop] at hopen
  rw [find?_eq] at h
  cases hcut : Text.cutAt? openMark (source.drop p) with
  | none => exact Text.cutAt?_eq_none hcut k hopen
  | some x =>
      obtain ⟨b, opened⟩ := x
      obtain ⟨hsplit, hfirst⟩ := Text.cutAt?_eq_some hcut
      have hb : bracketAt? (openMark ++ opened) = none := by simpa [hcut] using h
      have hgaps : ([] : Text).all Text.isGap := rfl
      have hnever := neverCloses_of_bracketAt? hgaps (List.prefix_append _ _) hb
      have hbk : b.length ≤ k := Nat.le_of_not_lt fun hlt => hfirst k hlt hopen
      have hdrop (n : Nat) : source.drop (p + b.length + n) = (openMark ++ opened).drop n := by
        rw [Nat.add_assoc, ← List.drop_drop, hsplit, ← List.drop_drop, List.drop_left]
      refine hnever (k - b.length) (j - (p + b.length)) ?_ (by omega) ?_
      · rw [List.nil_append, ← hdrop, show p + b.length + (k - b.length) = p + k by omega,
          ← List.drop_drop]
        exact hopen
      · rw [List.nil_append, ← hdrop, show p + b.length + (j - (p + b.length)) = j by omega]
        exact hclose

/-- The gaps before a directive on its line are those that the scan takes for its indentation. -/
theorem gapsBefore_eq {source b : Text} {p : Nat} {fresh : Bool} (hp : ResumesAt source p fresh)
    (hb : source.take (p + b.length) = source.take p ++ b) :
    gapsBefore source (p + b.length) = indentation? fresh b := by
  rw [gapsBefore, hb, indentation?]
  by_cases hbreak : '\n' ∈ b
  · simp [lastLine_append_of_mem hbreak, hbreak]
  · have hline : lastLine b = b := lastLine_append_of_not_mem hbreak []
    rw [lastLine_append_of_not_mem hbreak, hline]
    cases fresh with
    | true =>
        have hstart : lastLine (source.take p) = [] := by simpa [ResumesAt] using hp
        simp [hstart]
    | false =>
        obtain ⟨before, hbefore⟩ : ∃ before, source.take p = before ++ ['>'] := by
          simpa [ResumesAt] using hp
        have hmark : lastLine (before ++ ['>']) = lastLine before ++ ['>'] :=
          lastLine_append_of_not_mem (by simp) before
        simp [hbefore, hmark, hbreak, Text.isGap]

/-- The end of a line ends with a line break. -/
theorem lineEnd?_eq_some {t l : Text} (h : lineEnd? t = some l) : ∃ gaps, l = gaps ++ ['\n'] := by
  rw [lineEnd?] at h
  split at h
  · exact ⟨_, (Option.some.inj h).symm⟩
  · exact ⟨t.takeWhile Text.isGap ++ ['\r'], by simpa using (Option.some.inj h).symm⟩
  · simp at h

/-- The brackets of a directive: its kind is that of the mark, and its body runs to the first closing
bracket. -/
theorem bracketAt?_body {opened body after : Text} {kind : DirectiveKind}
    (h : bracketAt? (openMark ++ opened) = some (kind, body, after)) :
    (takeKind opened).1 = kind ∧ opened = kind.mark ++ (body ++ (closeMark ++ after)) ∧
      ∀ k < body.length, ¬ closeMark <+: (body ++ (closeMark ++ after)).drop k := by
  simp only [bracketAt?, List.prefix_append, ite_true, List.drop_left, Option.map_eq_some_iff,
    Prod.mk.injEq] at h
  obtain ⟨⟨b, a⟩, hcut, rfl, rfl, rfl⟩ := h
  obtain ⟨hsplit, hfirst⟩ := Text.cutAt?_eq_some hcut
  rw [← hsplit]
  exact ⟨rfl, takeKind_eq opened, hfirst⟩

/-- Behind a directive a line starts when the directive took the end of its line. -/
theorem resumesAt_next (before : Text) {source after : Text} {next : Nat}
    (h : source.take next = before ++ (closeMark ++ (lineEnd? after).getD [])) :
    ResumesAt source next (lineEnd? after).isSome := by
  cases hend : lineEnd? after with
  | none => exact ⟨before ++ ['%'], by simpa [hend, closeMark] using h⟩
  | some l =>
      obtain ⟨gaps, rfl⟩ := lineEnd?_eq_some hend
      rw [hend, Option.getD_some, ← List.append_assoc, ← List.append_assoc] at h
      have hline : lastLine (source.take next) = [] := by
        rw [h]
        exact lastLine_append_break _
      simpa [ResumesAt] using hline

/-! ## The places of a directive that is found -/

section Places

variable {source b body after : Text} {p : Nat} {kind : DirectiveKind}

/-- The place of the code of a directive that is opened behind `b`. -/
def codePlace (p : Nat) (b : Text) (kind : DirectiveKind) : Nat :=
  p + b.length + openMark.length + kind.mark.length

/-- The place behind a directive and the end of its line. -/
def nextPlace (p : Nat) (b : Text) (kind : DirectiveKind) (body after : Text) : Nat :=
  codePlace p b kind + body.length + closeMark.length + ((lineEnd? after).getD []).length

/-- Behind the opening bracket stands the mark. -/
theorem drop_mark (h : source.drop p = b ++ (openMark ++ (kind.mark ++ (body ++ (closeMark ++ after))))) :
    source.drop (p + b.length + openMark.length) = kind.mark ++ (body ++ (closeMark ++ after)) := by
  rw [← List.drop_drop, ← List.drop_drop, h, List.drop_left, List.drop_left]

/-- Behind the mark stands the body. -/
theorem drop_code (h : source.drop p = b ++ (openMark ++ (kind.mark ++ (body ++ (closeMark ++ after))))) :
    source.drop (codePlace p b kind) = body ++ (closeMark ++ after) := by
  rw [codePlace, ← List.drop_drop, drop_mark h, List.drop_left]

/-- Behind the body stands the closing bracket. -/
theorem drop_close (h : source.drop p = b ++ (openMark ++ (kind.mark ++ (body ++ (closeMark ++ after))))) :
    source.drop (codePlace p b kind + body.length) = closeMark ++ after := by
  rw [← List.drop_drop, drop_code h, List.drop_left]

/-- Behind the closing bracket the rest of the source stands. -/
theorem drop_after (h : source.drop p = b ++ (openMark ++ (kind.mark ++ (body ++ (closeMark ++ after))))) :
    source.drop (codePlace p b kind + body.length + closeMark.length) = after := by
  rw [← List.drop_drop, drop_close h, List.drop_left]

/-- The scan goes on behind the end of the line of the directive. -/
theorem drop_nextPlace
    (h : source.drop p = b ++ (openMark ++ (kind.mark ++ (body ++ (closeMark ++ after)))))
    (fresh : Bool) :
    source.drop (nextPlace p b kind body after) = (foundAt fresh b (kind, body, after)).rest := by
  rw [nextPlace, ← List.drop_drop, drop_after h]
  rfl

/-- The scan goes on with a shorter text. -/
theorem length_drop_nextPlace
    (h : source.drop p = b ++ (openMark ++ (kind.mark ++ (body ++ (closeMark ++ after))))) :
    (source.drop (nextPlace p b kind body after)).length < (source.drop p).length := by
  have hmarks : openMark.length = 2 := rfl
  have hlength := congrArg List.length h
  simp only [List.length_drop, List.length_append, nextPlace, codePlace] at hlength ⊢
  omega

/-- The opening bracket is the least place at which a directive can be opened. -/
theorem firstFrom_open
    (h : source.drop p = b ++ (openMark ++ (kind.mark ++ (body ++ (closeMark ++ after)))))
    (hfirst : ∀ k < b.length, ¬ openMark <+: (source.drop p).drop k) :
    FirstFrom (OpensAt source) p (p + b.length) := by
  have hopens : OpensAt source (p + b.length) := by
    refine ⟨?_, codePlace p b kind + body.length, ?_, ?_⟩
    · rw [← List.drop_drop, h, List.drop_left]
      exact List.prefix_append _ _
    · unfold codePlace
      omega
    · rw [drop_close h]
      exact List.prefix_append _ _
  refine ⟨Nat.le_add_right _ _, hopens, fun k hpk hk hopen => hfirst (k - p) (by omega) ?_⟩
  rw [List.drop_drop, Nat.add_sub_cancel' hpk]
  exact hopen.1

/-- The closing bracket is the first one behind the mark. -/
theorem firstFrom_close
    (h : source.drop p = b ++ (openMark ++ (kind.mark ++ (body ++ (closeMark ++ after)))))
    (hfirst : ∀ k < body.length, ¬ closeMark <+: (body ++ (closeMark ++ after)).drop k) :
    FirstFrom (closeMark <+: source.drop ·) (codePlace p b kind)
      (codePlace p b kind + body.length) := by
  have hcloses : closeMark <+: source.drop (codePlace p b kind + body.length) := by
    rw [drop_close h]
    exact List.prefix_append _ _
  refine ⟨Nat.le_add_right _ _, hcloses, fun k hpk hk hclose =>
    hfirst (k - codePlace p b kind) (by omega) ?_⟩
  rw [← drop_code h, List.drop_drop, Nat.add_sub_cancel' hpk]
  exact hclose

/-- The literal text ends where the indentation of the directive starts. -/
theorem between_before
    (h : source.drop p = b ++ (openMark ++ (kind.mark ++ (body ++ (closeMark ++ after)))))
    (fresh : Bool) :
    between source p (p + (b.length - ((indentation? fresh b).getD []).length)) =
      (foundAt fresh b (kind, body, after)).before := by
  rw [between, h, Nat.add_sub_cancel_left, List.take_append_of_le_length (Nat.sub_le _ _)]
  rfl

/-- The body stands between the mark and the closing bracket. -/
theorem between_code
    (h : source.drop p = b ++ (openMark ++ (kind.mark ++ (body ++ (closeMark ++ after))))) :
    between source (codePlace p b kind) (codePlace p b kind + body.length) = body := by
  rw [between, drop_code h, Nat.add_sub_cancel_left, List.take_left]

/-- What the scan passes over is the literal text and the directive. -/
theorem between_nextPlace {fresh : Bool}
    (h : source.drop p = (foundAt fresh b (kind, body, after)).before ++
      ((foundAt fresh b (kind, body, after)).text ++ (foundAt fresh b (kind, body, after)).rest)) :
    between source p (nextPlace p b kind body after) =
      (foundAt fresh b (kind, body, after)).before ++ (foundAt fresh b (kind, body, after)).text := by
  have hlen := indentation?_length fresh b
  rw [between, h, ← List.append_assoc]
  refine List.take_left' ?_
  simp only [nextPlace, codePlace, foundAt, Found.text, List.length_append, List.length_take]
  omega

/-- Where the scan goes on a line starts when the directive took the end of its line. -/
theorem resumesAt_nextPlace
    (h : source.drop p = b ++ (openMark ++ (kind.mark ++ (body ++ (closeMark ++ after))))) :
    ResumesAt source (nextPlace p b kind body after) (lineEnd? after).isSome := by
  have hprefix : (lineEnd? after).getD [] <+: after := ⟨_, (lineEnd?_append_drop after).symm⟩
  refine resumesAt_next (source.take (codePlace p b kind + body.length)) ?_
  rw [nextPlace, List.take_add, List.take_add, drop_after h, drop_close h, List.take_left,
    List.append_assoc, ← List.prefix_iff_eq_take.1 hprefix]

end Places

/-- The scan from a place on gives the segments of the description. -/
theorem scans_scanFrom {source : Text} {fuel p : Nat} {fresh : Bool} (hp : ResumesAt source p fresh)
    (hfuel : (source.drop p).length < fuel) (line : Int) :
    Scans source p line (scanFrom fuel fresh line (source.drop p)) := by
  induction fuel generalizing p fresh line with
  | zero => exact absurd hfuel (Nat.not_lt_zero _)
  | succ fuel ih =>
      rw [scanFrom]
      cases hfind : find? fresh (source.drop p) with
      | none => exact .rest fun i hi => not_opensAt hfind hi
      | some f =>
          have hbreaks := breaks_text hfind
          have happend := find?_append hfind
          rw [find?_eq, Option.bind_eq_some_iff] at hfind
          obtain ⟨⟨b, opened⟩, hcut, hfind⟩ := hfind
          obtain ⟨⟨kind, body, after⟩, hb, rfl⟩ := Option.map_eq_some_iff.1 hfind
          obtain ⟨hopened, hfirstOpen⟩ := Text.cutAt?_eq_some hcut
          obtain ⟨hkind, rfl, hfirstClose⟩ := bracketAt?_body hb
          have hlen := indentation?_length fresh b
          have hgaps : gapsBefore source (p + b.length) = indentation? fresh b :=
            gapsBefore_eq hp (by rw [List.take_add, hopened, List.take_left])
          have hstart : p + (b.length - ((indentation? fresh b).getD []).length) +
              ((indentation? fresh b).getD []).length = p + b.length := by omega
          -- the text behind the directive is shorter, so there is fuel enough to go on with it
          have hshorter := Nat.lt_of_lt_of_le (length_drop_nextPlace hopened) (Nat.le_of_lt_succ hfuel)
          have hscan : Scans source p line _ := .directive (firstFrom_open hopened hfirstOpen)
            ((drop_mark hopened).symm ▸ hkind) (firstFrom_close hopened hfirstClose) hgaps
            (congrArg lineEnd? (drop_after hopened)) hstart rfl
            (ih (resumesAt_nextPlace hopened) hshorter _)
          have hline : (Text.breaks ((foundAt fresh b (kind, body, after)).before ++
              (foundAt fresh b (kind, body, after)).text) : Int) =
              Text.breaks (foundAt fresh b (kind, body, after)).before +
                (foundAt fresh b (kind, body, after)).breaks := by
            rw [← hbreaks, Text.breaks, List.count_append, Int.natCast_add]
            rfl
          have hcode : between source (p + b.length + openMark.length + kind.mark.length)
              (codePlace p b kind + body.length) = body := between_code hopened
          have hnext : between source p (codePlace p b kind + body.length + closeMark.length +
              ((lineEnd? after).getD []).length) = _ := between_nextPlace happend
          rw [between_before hopened fresh, hcode, hnext, drop_nextPlace hopened fresh, hline,
            ← Int.add_assoc] at hscan
          -- a literal stands in front unless the directive comes at once
          unfold literalOf at hscan
          dsimp only
          split
          · next hempty =>
              rw [if_pos hempty] at hscan
              exact hscan
          · next hempty =>
              rw [if_neg hempty] at hscan
              exact hscan

/-- The segments of a source are those of its description by places, and those of the leftmost
matches of the directive pattern. -/
theorem scan_matches_description (source : Text) (line : Int) (segments : List Segment) :
    (scan source line = segments ↔ Scans source 0 line segments) ∧
      (matched source line = segments ↔ Scans source 0 line segments) := by
  have hstart : ResumesAt source 0 true := rfl
  have hscans : Scans source 0 line (scan source line) :=
    scans_scanFrom hstart (Nat.lt_succ_self _) line
  have hiff : scan source line = segments ↔ Scans source 0 line segments :=
    ⟨fun h => h ▸ hscans, fun h => scans_unique hscans h⟩
  exact ⟨hiff, scan_eq_matched source line ▸ hiff⟩

end Stencil.Segment

namespace Stencil

/-! ## The lines of segments -/

/-- The line of the closing bracket of a directive. -/
def Directive.closeLine (d : Directive) : Int :=
  d.line + Text.breaks d.code

namespace Segment

/-- The line of a place of a source whose first line has the given number. -/
def lineAt (source : Text) (line : Int) (p : Nat) : Int :=
  line + Text.breaks (source.take p)

/-- Whether a segment stands in a source with its line: a literal at some place, and a directive between
an opening and a closing bracket. -/
inductive Stands (source : Text) (line : Int) : Segment → Prop where
  | literal {p : Nat} {t : Text} (ht : t <+: source.drop p) :
      Stands source line (.literal t (lineAt source line p))
  | directive {d : Directive} {i j : Nat} (hopen : openMark <+: source.drop i) (hij : i ≤ j)
      (hclose : closeMark <+: source.drop j) (hline : d.line = lineAt source line i)
      (hcloseLine : d.closeLine = lineAt source line j) : Stands source line (.directive d)

variable {source : Text} {line : Int}

/-- The line of a place is one of the lines of the source. -/
theorem lineAt_bounds (source : Text) (line : Int) (p : Nat) :
    line ≤ lineAt source line p ∧ lineAt source line p ≤ line + Text.breaks source := by
  have hle : Text.breaks (source.take p) ≤ Text.breaks source :=
    (List.take_sublist p source).count_le _
  rw [lineAt]
  omega

/-- The line of a later place. -/
theorem lineAt_between (source : Text) (line : Int) {p q : Nat} (h : p ≤ q) :
    lineAt source line q = lineAt source line p + Text.breaks (between source p q) := by
  obtain ⟨n, rfl⟩ := Nat.exists_eq_add_of_le h
  rw [lineAt, lineAt, between, Nat.add_sub_cancel_left, List.take_add, Text.breaks, List.count_append]
  simp only [Text.breaks]
  omega

/-- The line of a later place is not an earlier one. -/
theorem lineAt_mono (source : Text) (line : Int) {p q : Nat} (h : p ≤ q) :
    lineAt source line p ≤ lineAt source line q := by
  rw [lineAt_between source line h]
  omega

/-- No line breaks stand in a text that a source goes on with. -/
theorem lineAt_add_length {t : Text} {p : Nat} (ht : t <+: source.drop p) (hbreaks : Text.breaks t = 0) :
    lineAt source line (p + t.length) = lineAt source line p := by
  rw [lineAt_between source line (Nat.le_add_right p t.length), between, Nat.add_sub_cancel_left,
    ← List.prefix_iff_eq_take.1 ht, hbreaks, Int.natCast_zero, Int.add_zero]

/-- The gaps in front of a directive are on its line. -/
theorem lineAt_gapsBefore {i start : Nat} {lspace : Option Text} (h : gapsBefore source i = lspace)
    (hstart : start + (lspace.getD []).length = i) :
    lineAt source line start = lineAt source line i := by
  cases lspace with
  | none => rw [← hstart, Option.getD_none, List.length_nil, Nat.add_zero]
  | some gaps =>
      rw [gapsBefore] at h
      split at h
      · next hgaps =>
          obtain rfl := Option.some.inj h
          have hbreaks : Text.breaks (lastLine (source.take i)) = 0 := by
            refine List.count_eq_zero.2 fun hmem => ?_
            exact absurd (List.all_eq_true.1 hgaps _ hmem) (by decide)
          obtain ⟨before, hbefore⟩ : lastLine (source.take i) <:+ source.take i := by
            rw [lastLine, ← List.reverse_prefix, List.reverse_reverse]
            exact List.takeWhile_prefix _
          -- what is before the gaps is part of what is before the start
          have hle : start ≤ i := hstart ▸ Nat.le_add_right _ _
          have hprefix : before <+: source.take start := by
            have htake : source.take start = (source.take i).take start := by
              rw [List.take_take, Nat.min_eq_left hle]
            have hlength := congrArg List.length hbefore
            rw [List.length_append, List.length_take] at hlength
            rw [Option.getD_some] at hstart
            rw [htake, List.prefix_take_iff]
            exact ⟨⟨_, hbefore⟩, by omega⟩
          have hcount : Text.breaks (source.take i) = Text.breaks before := by
            rw [← hbefore, Text.breaks, List.count_append, ← Text.breaks, ← Text.breaks, hbreaks,
              Nat.add_zero]
          have hlow : Text.breaks before ≤ Text.breaks (source.take start) :=
            hprefix.sublist.count_le _
          have hhigh : Text.breaks (source.take start) ≤ Text.breaks (source.take i) :=
            (List.take_sublist_take_left hle).count_le _
          rw [lineAt, lineAt]
          omega
      · cases h

/-- A space at each end is all that the code of a directive lacks. -/
theorem breaks_codeOf (body : Text) : Text.breaks (codeOf body) = Text.breaks body := by
  have hfront : Text.breaks (dropSpace body) = Text.breaks body := by
    fun_cases dropSpace body with
    | case1 r => simp [Text.breaks]
    | case2 => rfl
  have hend (t : Text) : Text.breaks (dropEndSpace t) = Text.breaks t := by
    rw [dropEndSpace]
    split
    · next hlast =>
        obtain ⟨init, rfl⟩ := List.getLast?_eq_some_iff.1 hlast
        simp [Text.breaks]
    · rfl
  rw [codeOf, hend, hfront]

/-- The segments of a description stand in the source. -/
theorem Scans.stands {p : Nat} {l : Int} {segments : List Segment} (h : Scans source p l segments)
    (hl : l = lineAt source line p) : ∀ s ∈ segments, Stands source line s := by
  have hliteral {p : Nat} {t : Text} (ht : t <+: source.drop p) :
      ∀ s ∈ literalOf t (lineAt source line p), Stands source line s := by
    intro s hs
    rw [literalOf] at hs
    split at hs
    · exact absurd hs List.not_mem_nil
    · rw [List.mem_singleton.1 hs]
      exact .literal ht
  induction h with
  | rest hnone =>
      subst hl
      exact hliteral List.prefix_rfl
  | @directive p i j l kind lspace rspace start next segments hopen hkind hclose hlspace hrspace hstart
      hnext hrest ih =>
      subst hl
      obtain ⟨hpi, ⟨hopens, -⟩, -⟩ := hopen
      obtain ⟨hij, hcloses, -⟩ := hclose
      have hmark : kind.mark <+: source.drop (i + openMark.length) := by
        rw [← hkind]
        exact ⟨_, (takeKind_eq _).symm⟩
      have hstartLine : lineAt source line start = lineAt source line i :=
        lineAt_gapsBefore hlspace hstart
      have hcodeLine : lineAt source line (i + openMark.length + kind.mark.length) =
          lineAt source line i := by
        rw [lineAt_add_length hmark (by cases kind <;> rfl), lineAt_add_length hopens rfl]
      have hline : lineAt source line p + Text.breaks (between source p start) =
          lineAt source line i := by
        rcases Nat.le_total p start with hps | hsp
        · rw [← lineAt_between source line hps, hstartLine]
        · -- the gaps reach back behind the place, and all of it is one line
          have hlow := lineAt_mono source line hsp
          have hhigh := lineAt_mono source line hpi
          rw [between, Nat.sub_eq_zero_of_le hsp, List.take_zero, Text.breaks, List.count_nil]
          omega
      have hcloseLine : lineAt source line i +
          Text.breaks (codeOf (between source (i + openMark.length + kind.mark.length) j)) =
          lineAt source line j := by
        rw [breaks_codeOf, ← hcodeLine, ← lineAt_between source line hij]
      have hpnext : p ≤ next := by
        rw [← hnext]
        omega
      intro s hs
      rw [hline, List.mem_append, List.mem_cons] at hs
      rcases hs with hs | rfl | hs
      · refine hliteral ?_ s hs
        exact List.take_prefix _ _
      · exact .directive hopens (by omega) hcloses rfl hcloseLine
      · exact ih (lineAt_between source line hpnext).symm s hs

/-- The segments of a source stand in it. -/
theorem stands_of_mem_scan {s : Segment} (hs : s ∈ scan source line) : Stands source line s := by
  have hstart : line = lineAt source line 0 := by simp [lineAt, Text.breaks]
  exact ((scan_matches_description source line _).1.1 rfl).stands hstart s hs

end Segment

end Stencil
