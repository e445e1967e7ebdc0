import Stencil.Proofs.Segment.Printing

/-!
# Templates in a row

A template that ends with a whole line, and in which no directive stays open, can be scanned apart from what
follows it: the segments of both in a row are the segments of the whole (`scan_append`). Only a literal at
the end of the first and one at the start of the second become one.
-/

namespace Stencil.Segment

/-- Segments in a row. Two literals that meet become one, which starts where the first one does. -/
def join : List Segment → List Segment → List Segment
  | [], others => others
  | [.literal t l], .literal t' _ :: others => .literal (t ++ t') l :: others
  | s :: segments, others => s :: join segments others

variable {a b t : Text} {line : Int}

/-! ## Joining -/

/-- Segments in front of a directive are not joined with anything. -/
theorem join_literalOf_directive (t : Text) (line : Int) (d : Directive) (segments others : List Segment) :
    join (literalOf t line ++ .directive d :: segments) others =
      literalOf t line ++ .directive d :: join segments others := by
  rw [literalOf]
  split <;> simp [join]

/-- A literal is joined with the literal that follows on its line. -/
theorem join_literalOf (t t' : Text) (line : Int) {others : List Segment}
    (h : ∀ u l rest, others ≠ .literal u l :: rest) :
    join (literalOf t line) (literalOf t' (line + Text.breaks t) ++ others) =
      literalOf (t ++ t') line ++ others := by
  cases t with
  | nil => simp [literalOf, join, Text.breaks]
  | cons c t =>
      cases t' with
      | cons c' t' => simp [literalOf, join]
      | nil =>
          cases others with
          | nil => simp [literalOf, join]
          | cons s others =>
              cases s with
              | literal u l => exact absurd rfl (h u l others)
              | directive d => simp [literalOf, join]

/-! ## Places of two texts in a row -/

/-- Places of the second text are places of the whole behind the first one. -/
theorem drop_length_add (a b : Text) (k : Nat) : (a ++ b).drop (a.length + k) = b.drop k := by
  rw [← List.drop_drop, List.drop_left]

/-- The text between two places of the second text. -/
theorem between_length_add (a b : Text) (p q : Nat) :
    between (a ++ b) (a.length + p) (a.length + q) = between b p q := by
  rw [between, between, drop_length_add, Nat.add_sub_add_left]

/-- The text between a place of the first text and one of the second. -/
theorem between_across {p : Nat} (hp : p ≤ a.length) (b : Text) (q : Nat) :
    between (a ++ b) p (a.length + q) = a.drop p ++ between b 0 q := by
  have hlength : (a.drop p).length ≤ a.length + q - p := by
    rw [List.length_drop]
    omega
  rw [between, between, List.drop_append_of_le_length hp, List.take_append, List.take_of_length_le hlength,
    List.length_drop, List.drop_zero]
  congr 2
  omega

/-- The text between two places of the first text. -/
theorem between_append_left {p q : Nat} (hq : q ≤ a.length) (b : Text) :
    between (a ++ b) p q = between a p q := by
  rcases Nat.le_total p a.length with hp | hp
  · rw [between, between, List.drop_append_of_le_length hp, List.take_append_of_le_length]
    rw [List.length_drop]
    omega
  · rw [between, between, Nat.sub_eq_zero_of_le (Nat.le_trans hq hp), List.take_zero, List.take_zero]

/-- A mark of two characters that starts in the first text of two, and not at its last character, stands in
it. -/
theorem prefix_drop_of_append {mark : Text} (hmark : mark.length = 2) {k : Nat} (hk : k + 2 ≤ a.length) :
    mark <+: (a ++ b).drop k ↔ mark <+: a.drop k := by
  have hle : k ≤ a.length := by omega
  rw [List.drop_append_of_le_length hle]
  refine ⟨fun h => ?_, fun h => h.trans (List.prefix_append _ _)⟩
  refine List.prefix_of_prefix_length_le h (List.prefix_append _ _) ?_
  rw [List.length_drop]
  omega

/-- A mark of two characters takes up two places. -/
theorem le_length_of_prefix_drop {mark : Text} (hmark : mark.length = 2) {k : Nat} (h : mark <+: a.drop k) :
    k + 2 ≤ a.length := by
  have hle := h.length_le
  rw [List.length_drop] at hle
  omega

/-- In the second text directives are opened where they are opened in the whole. -/
theorem opensAt_length_add (a b : Text) (k : Nat) : OpensAt (a ++ b) (a.length + k) ↔ OpensAt b k := by
  rw [OpensAt, OpensAt, drop_length_add]
  refine and_congr_right fun _ => ⟨?_, ?_⟩
  · rintro ⟨j, hj, hclose⟩
    obtain ⟨n, rfl⟩ := Nat.exists_eq_add_of_le (Nat.le_trans (Nat.le_add_right _ _)
      (Nat.le_trans (Nat.le_add_right _ _) hj))
    exact ⟨n, by omega, by rwa [drop_length_add] at hclose⟩
  · rintro ⟨j, hj, hclose⟩
    exact ⟨a.length + j, by omega, by rwa [drop_length_add]⟩

/-- What a directive of the first text is closed by closes it in the whole. -/
theorem OpensAt.append {i : Nat} (h : OpensAt a i) (b : Text) : OpensAt (a ++ b) i := by
  obtain ⟨hopen, j, hj, hclose⟩ := h
  have hi := le_length_of_prefix_drop rfl hopen
  have hj' := le_length_of_prefix_drop rfl hclose
  exact ⟨(prefix_drop_of_append rfl hi).2 hopen, j, hj, (prefix_drop_of_append rfl hj').2 hclose⟩

/-- The least place with a property of the second text is least in the whole. -/
theorem FirstFrom.length_add {P Q : Nat → Prop} {p i : Nat} (n : Nat)
    (hPQ : ∀ k, Q (n + k) ↔ P k) (h : FirstFrom P p i) : FirstFrom Q (n + p) (n + i) := by
  obtain ⟨hpi, hP, hleast⟩ := h
  refine ⟨by omega, (hPQ i).2 hP, fun k hk hki hQ => ?_⟩
  obtain ⟨m, rfl⟩ := Nat.exists_eq_add_of_le (Nat.le_trans (Nat.le_add_right _ _) hk)
  exact hleast m (by omega) (by omega) ((hPQ m).1 hQ)

/-! ## Behind a whole line -/

/-- Whether what follows a text starts a line. -/
def EndsLine (a : Text) : Prop :=
  a = [] ∨ ['\n'] <:+ a

/-- A part of a text at its end ends its last line too. -/
theorem EndsLine.drop (ha : EndsLine a) {p : Nat} (hp : p < a.length) : ∃ init, a.drop p = init ++ ['\n'] := by
  rcases ha with rfl | ⟨init, rfl⟩
  · exact absurd hp (Nat.not_lt_zero _)
  · rw [List.length_append, List.length_singleton] at hp
    exact ⟨init.drop p, List.drop_append_of_le_length (Nat.le_of_lt_succ hp)⟩

/-- The gaps before a directive behind whole lines are those before it without these lines. -/
theorem EndsLine.gapsBefore (ha : EndsLine a) (b : Text) (i : Nat) :
    gapsBefore (a ++ b) (a.length + i) = gapsBefore b i := by
  have hline : lastLine a = [] := lastLine_eq_nil_iff.2 ha
  have happend : lastLine (a ++ b.take i) = lastLine (b.take i) := by
    by_cases hbreak : '\n' ∈ b.take i
    · exact lastLine_append_of_mem hbreak a
    · rw [lastLine_append_of_not_mem hbreak, hline]
      exact (lastLine_append_of_not_mem hbreak []).symm
  rw [Segment.gapsBefore, Segment.gapsBefore, List.take_length_add_append, happend]

/-- Only in the second text can a directive be opened when none can be in the whole lines before it. -/
theorem EndsLine.not_opensAt (ha : EndsLine a) {p : Nat} (hopen : ¬ openMark <:+: a.drop p) (b : Text)
    {i : Nat} (hpi : p ≤ i) (hi : i < a.length) : ¬ OpensAt (a ++ b) i := by
  rintro ⟨hmark, -⟩
  obtain ⟨n, rfl⟩ := Nat.exists_eq_add_of_le hpi
  by_cases hlast : p + n + 2 ≤ a.length
  · rw [prefix_drop_of_append rfl hlast, ← List.drop_drop] at hmark
    exact hopen (hmark.isInfix.trans (List.drop_suffix n _).isInfix)
  · -- the last character of a line opens nothing
    obtain ⟨init, hdrop⟩ := ha.drop hi
    have hinit : init = [] := by
      have hlength := congrArg List.length hdrop
      rw [List.length_drop, List.length_append, List.length_singleton] at hlength
      exact List.length_eq_zero_iff.1 (by omega)
    rw [List.drop_append_of_le_length (Nat.le_of_lt hi), hdrop, hinit] at hmark
    exact absurd (List.cons_prefix_cons.1 hmark).1 (by decide)

/-- A whole line does not end with the bracket that closes a directive. -/
theorem EndsLine.lt_of_closeMark (ha : EndsLine a) {j : Nat} (h : closeMark <+: a.drop j) :
    j + closeMark.length < a.length := by
  have hj := le_length_of_prefix_drop rfl h
  refine Nat.lt_of_le_of_ne hj fun heq => ?_
  have hlength : closeMark.length = (a.drop j).length := by
    rw [List.length_drop, ← heq, Nat.add_sub_cancel_left]
  obtain ⟨init, hinit⟩ := ha.drop (p := j) (by omega)
  have hmark : ['%'] ++ ['>'] = init ++ ['\n'] := (h.eq_of_length hlength).trans hinit
  exact absurd (List.append_inj' hmark rfl).2 (by decide)

/-- The end of a line that stands in front of whole lines. -/
theorem lineEnd?_append_break (init b : Text) :
    lineEnd? (init ++ ['\n'] ++ b) = lineEnd? (init ++ ['\n']) := by
  cases hend : lineEnd? (init ++ ['\n']) with
  | some e =>
      obtain ⟨he, r, hr⟩ := isLineEnd_of_lineEnd? hend
      rw [← hr, List.append_assoc, lineEnd?_append he]
  | none =>
      rw [lineEnd?_eq_none_iff] at hend ⊢
      intro e he hprefix
      rcases Nat.le_total e.length (init ++ ['\n']).length with hle | hle
      · exact hend e he (List.prefix_of_prefix_length_le hprefix (List.prefix_append _ _) hle)
      · -- an end of a line holds no other line break, so it does not go on behind this one
        obtain ⟨u, rfl⟩ := List.prefix_of_prefix_length_le (List.prefix_append _ _) hprefix hle
        have hu : u = [] := by
          obtain ⟨gaps, hgaps, he⟩ := he
          have hno := break_not_mem_gaps hgaps
          rcases List.eq_nil_or_concat u with rfl | ⟨v, c, rfl⟩
          · rfl
          have hmem : '\n' ∈ init ++ ['\n'] ++ v := by simp
          rcases he with he | he
          · rw [List.concat_eq_append, ← List.append_assoc] at he
            obtain ⟨rfl, -⟩ := List.append_inj' he rfl
            exact absurd hmem hno
          · have he : (init ++ ['\n'] ++ v) ++ [c] = (gaps ++ ['\r']) ++ ['\n'] := by simpa using he
            obtain ⟨heq, -⟩ := List.append_inj' he rfl
            rw [heq] at hmem
            exact absurd hmem (by simp [hno])
        subst hu
        rw [List.append_nil] at he
        exact hend _ he List.prefix_rfl

/-- The mark of a directive is read off the two characters behind its opening bracket. -/
theorem takeKind_append (ht : 2 ≤ t.length) (b : Text) : (takeKind (t ++ b)).1 = (takeKind t).1 := by
  match t, ht with
  | c :: c' :: r, _ =>
      rw [List.cons_append, List.cons_append]
      by_cases hc : c = '='
      · subst hc
        by_cases hc' : c' = '='
        · subst hc'
          rfl
        · simp [takeKind, hc']
      · by_cases hc' : c = '#'
        · subst hc'
          rfl
        · simp [takeKind, hc, hc']

/-! ## Descriptions in a row -/

/-- Segments of the second text are segments of the whole, further on. -/
theorem Scans.length_add (ha : EndsLine a) {q : Nat} {segments : List Segment}
    (h : Scans b q line segments) : Scans (a ++ b) (a.length + q) line segments := by
  induction h with
  | @rest p line hnone =>
      rw [← drop_length_add a b p]
      refine .rest fun i hi => ?_
      obtain ⟨k, rfl⟩ := Nat.exists_eq_add_of_le (Nat.le_trans (Nat.le_add_right _ _) hi)
      rw [opensAt_length_add]
      exact hnone k (by omega)
  | @directive p i j line kind lspace rspace start next segments hopen hkind hclose hlspace hrspace hstart
      hnext hrest ih =>
      have hopen' := hopen.length_add a.length (opensAt_length_add a b)
      have hkind' : (takeKind ((a ++ b).drop (a.length + i + openMark.length))).1 = kind := by
        rw [Nat.add_assoc, drop_length_add, hkind]
      have hclose' : FirstFrom (closeMark <+: (a ++ b).drop ·)
          (a.length + i + openMark.length + kind.mark.length) (a.length + j) := by
        rw [Nat.add_assoc, Nat.add_assoc, ← Nat.add_assoc i]
        exact hclose.length_add a.length fun k => by rw [drop_length_add]
      have hrspace' : lineEnd? ((a ++ b).drop (a.length + j + closeMark.length)) = rspace := by
        rw [Nat.add_assoc, drop_length_add, hrspace]
      have hstart' : a.length + start + (lspace.getD []).length = a.length + i := by omega
      have hnext' : a.length + j + closeMark.length + (rspace.getD []).length = a.length + next := by omega
      rw [← between_length_add a b p next] at ih
      have hscan := Scans.directive hopen' hkind' hclose' ((ha.gapsBefore b i).trans hlspace) hrspace'
        hstart' hnext' ih
      rw [between_length_add, Nat.add_assoc a.length, Nat.add_assoc a.length, between_length_add] at hscan
      exact hscan

/-- Where a line starts the gaps in front of a later place do not reach back behind the start. -/
theorem length_gapsBefore_le {source : Text} {q i : Nat} (hline : lastLine (source.take q) = [])
    (hqi : q ≤ i) (hi : i ≤ source.length) : ((gapsBefore source i).getD []).length + q ≤ i := by
  have hlast : (lastLine (source.take i)).length + q ≤ i := by
    have htake : source.take i = source.take q ++ (source.drop q).take (i - q) := by
      rw [← List.take_add, Nat.add_sub_cancel' hqi]
    have hle (t : Text) : (lastLine t).length ≤ t.length := by
      rw [lastLine, List.length_reverse]
      exact Nat.le_trans (List.takeWhile_prefix _).length_le (Nat.le_of_eq List.length_reverse)
    have hlength := hle ((source.drop q).take (i - q))
    rw [List.length_take, List.length_drop] at hlength
    rw [htake]
    by_cases hbreak : '\n' ∈ (source.drop q).take (i - q)
    · rw [lastLine_append_of_mem hbreak]
      omega
    · rw [lastLine_append_of_not_mem hbreak, hline, List.nil_append, List.length_take, List.length_drop]
      omega
  rw [gapsBefore]
  split
  · exact hlast
  · simpa using hqi

/-- In front of segments that start on a new line, text in which no directive can be opened is joined with
them. -/
theorem Scans.prepend {source : Text} {p q : Nat} {segments : List Segment} (hpq : p ≤ q)
    (hline : lastLine (source.take q) = []) (hnone : ∀ i, p ≤ i → i < q → ¬ OpensAt source i)
    (h : Scans source q (line + Text.breaks (between source p q)) segments) :
    Scans source p line (join (literalOf (between source p q) line) segments) := by
  have hbetween {r : Nat} (hqr : q ≤ r) : between source p r = between source p q ++ between source q r := by
    have hq : (source.drop p).drop (q - p) = source.drop q := by
      rw [List.drop_drop, Nat.add_sub_cancel' hpq]
    rw [between, between, between, ← hq, ← List.take_add]
    congr 1
    omega
  cases h with
  | rest hrest =>
      have hdrop : source.drop p = between source p q ++ source.drop q := by
        rw [between, ← Nat.add_sub_cancel' hpq, ← List.drop_drop, Nat.add_sub_cancel_left,
          List.take_append_drop]
      have hjoin : join (literalOf (between source p q) line)
          (literalOf (source.drop q) (line + Text.breaks (between source p q)) ++ []) =
            literalOf (between source p q ++ source.drop q) line ++ [] :=
        join_literalOf _ _ line fun _ _ _ => by simp
      rw [List.append_nil, List.append_nil, ← hdrop] at hjoin
      rw [hjoin]
      refine .rest fun i hi => ?_
      rcases Nat.lt_or_ge i q with hlt | hge
      · exact hnone i hi hlt
      · exact hrest i hge
  | @directive _ i j _ kind lspace rspace start next segments hopens hkind hclose hlspace hrspace hstart
      hnext hrest =>
      have hopens' : FirstFrom (OpensAt source) p i := by
        obtain ⟨hqi, hi, hleast⟩ := hopens
        refine ⟨Nat.le_trans hpq hqi, hi, fun k hk hki => ?_⟩
        rcases Nat.lt_or_ge k q with hlt | hge
        · exact hnone k hk hlt
        · exact hleast k hge hki
      have hi := le_length_of_prefix_drop rfl hopens.2.1.1
      have hgaps := length_gapsBefore_le hline hopens.1 (by omega)
      rw [hlspace] at hgaps
      have hqstart : q ≤ start := by omega
      have hclosed := le_length_of_prefix_drop rfl hclose.2.1
      have hqnext : q ≤ next := by
        have hij := hclose.1
        have hqi := hopens.1
        omega
      have hbreaks {r : Nat} (hqr : q ≤ r) : line + (Text.breaks (between source p r) : Int) =
          line + Text.breaks (between source p q) + Text.breaks (between source q r) := by
        rw [hbetween hqr, Text.breaks, List.count_append, Int.natCast_add, Int.add_assoc]
        rfl
      have hrest' : Scans source next (line + Text.breaks (between source p next)) segments := by
        rwa [hbreaks hqnext]
      have hscan := Scans.directive hopens' hkind hclose hlspace hrspace hstart hnext hrest'
      rw [hbreaks hqstart, hbetween hqstart] at hscan
      rw [join_literalOf _ _ _ fun _ _ _ => by simp]
      exact hscan

/-- The segments of whole lines, joined with the segments of what follows them, are the segments of both. -/
theorem Scans.append (ha : EndsLine a) {p : Nat} {segments others : List Segment}
    (h : Scans a p line segments) (hp : p ≤ a.length)
    (hopen : ∀ t l, Segment.literal t l ∈ segments → ¬ openMark <:+: t)
    (hb : Scans b 0 (line + Text.breaks (a.drop p)) others) :
    Scans (a ++ b) p line (join segments others) := by
  induction h with
  | @rest p line hnone =>
      have hmark : ¬ openMark <:+: a.drop p := by
        by_cases hempty : a.drop p = []
        · rw [hempty]
          exact fun h => absurd (List.infix_nil.1 h) (by decide)
        · exact hopen _ line (by rw [literalOf, if_neg (by simpa using hempty)]; exact List.mem_cons_self)
      have hbetween : between (a ++ b) p a.length = a.drop p := by
        rw [between_append_left Nat.le.refl, between, List.take_of_length_le (List.length_drop ▸ Nat.le.refl)]
      have hline : lastLine ((a ++ b).take a.length) = [] := by
        rw [List.take_left]
        exact lastLine_eq_nil_iff.2 ha
      have hothers : Scans (a ++ b) a.length (line + Text.breaks (between (a ++ b) p a.length)) others := by
        rw [hbetween]
        exact hb.length_add ha
      have hprepend := hothers.prepend hp hline fun i => ha.not_opensAt hmark b
      rwa [hbetween] at hprepend
  | @directive p i j line kind lspace rspace start next segments hopens hkind hclose hlspace hrspace hstart
      hnext hrest ih =>
      have hi := le_length_of_prefix_drop rfl hopens.2.1.1
      have hj := le_length_of_prefix_drop rfl hclose.2.1
      have hij := hclose.1
      have hmark : openMark.length = 2 := rfl
      have hcloseMark : closeMark.length = 2 := rfl
      -- what opens or closes before the directive does so in the first text
      have hopens' : FirstFrom (OpensAt (a ++ b)) p i := by
        obtain ⟨hpi, hopens, hleast⟩ := hopens
        refine ⟨hpi, hopens.append b, fun k hk hki hopens' => hleast k hk hki ⟨?_, j, by omega, hclose.2.1⟩⟩
        exact (prefix_drop_of_append rfl (by omega)).1 hopens'.1
      have hclose' : FirstFrom (closeMark <+: (a ++ b).drop ·) (i + openMark.length + kind.mark.length) j := by
        obtain ⟨-, hcloses, hleast⟩ := hclose
        refine ⟨hij, (prefix_drop_of_append rfl hj).2 hcloses, fun k hk hkj hcloses' => hleast k hk hkj ?_⟩
        exact (prefix_drop_of_append rfl (by omega)).1 hcloses'
      have hkind' : (takeKind ((a ++ b).drop (i + openMark.length))).1 = kind := by
        rw [List.drop_append_of_le_length (by omega), takeKind_append, hkind]
        rw [List.length_drop]
        omega
      have hlspace' : gapsBefore (a ++ b) i = lspace := by
        rw [gapsBefore, List.take_append_of_le_length (by omega)]
        exact hlspace
      have hrspace' : lineEnd? ((a ++ b).drop (j + closeMark.length)) = rspace := by
        obtain ⟨init, hinit⟩ := ha.drop (ha.lt_of_closeMark hclose.2.1)
        rw [List.drop_append_of_le_length (by omega), ← hrspace, hinit, lineEnd?_append_break]
      have hnextle : next ≤ a.length := by
        have hlength : (rspace.getD []).length ≤ (a.drop (j + closeMark.length)).length := by
          cases rspace with
          | none => exact Nat.zero_le _
          | some e => exact (isLineEnd_of_lineEnd? hrspace).2.length_le
        rw [List.length_drop] at hlength
        omega
      have hpnext : p ≤ next := by
        have hpi := hopens.1
        omega
      have hrest' : Scans (a ++ b) next (line + Text.breaks (between (a ++ b) p next))
          (join segments others) := by
        have hsplit : a.drop p = between a p next ++ a.drop next := by
          rw [between, ← Nat.add_sub_cancel' hpnext, ← List.drop_drop, Nat.add_sub_cancel_left,
            List.take_append_drop]
        have hbreaks : (Text.breaks (a.drop p) : Int) =
            Text.breaks (between a p next) + Text.breaks (a.drop next) := by
          rw [hsplit, Text.breaks, List.count_append, Int.natCast_add]
          rfl
        rw [between_append_left hnextle]
        refine ih hnextle (fun t l hl => hopen t l ?_) (by rwa [Int.add_assoc, ← hbreaks])
        exact List.mem_append_right _ (List.mem_cons_of_mem _ hl)
      have hscan := Scans.directive hopens' hkind' hclose' hlspace' hrspace' hstart hnext hrest'
      rw [between_append_left (by omega), between_append_left (by omega)] at hscan
      rwa [join_literalOf_directive]

/-- When a text is empty or ends with a line break, and no directive is opened in its literals, the segments
of the text and of what follows it in a row are the segments of both. What follows starts on the line behind
the text, and two literals that meet become one, on the line of the first. -/
theorem scan_append (a b : Text) (line : Int) (ha : a = [] ∨ ['\n'] <:+ a)
    (hopen : ∀ t l, Segment.literal t l ∈ scan a line → ¬ openMark <:+: t) :
    scan (a ++ b) line = join (scan a line) (scan b (line + Text.breaks a)) := by
  have hscan (source : Text) (line : Int) : Scans source 0 line (scan source line) :=
    (scan_matches_description source line _).1.1 rfl
  exact (scan_matches_description _ _ _).1.2
    ((hscan a line).append ha (Nat.zero_le _) hopen (hscan b _))

/-- A directive on a line of its own, and a text on the next line that goes on with another directive. -/
theorem scan_append_twoLines :
    scan ("<% a %>\n x\n".toList ++ "y<%= b %>".toList) 5 =
      [.directive ⟨.statement, ['a'], some [], some ['\n'], 5⟩, .literal " x\ny".toList 6,
        .directive ⟨.escapedExpr, ['b'], none, none, 7⟩] := by
  have ha : ['\n'] <:+ "<% a %>\n x\n".toList := ⟨"<% a %>\n x".toList, rfl⟩
  have hscan : scan "<% a %>\n x\n".toList 5 =
      [.directive ⟨.statement, ['a'], some [], some ['\n'], 5⟩, .literal " x\n".toList 6] := by
    decide +kernel
  have hopen : ∀ t l, Segment.literal t l ∈ scan "<% a %>\n x\n".toList 5 → ¬ openMark <:+: t := by
    intro t l hmem
    rw [hscan] at hmem
    obtain ⟨rfl, -⟩ : t = " x\n".toList ∧ l = 6 := by simpa using hmem
    decide +kernel
  rw [scan_append _ _ 5 (.inr ha) hopen, hscan]
  decide +kernel

end Stencil.Segment
