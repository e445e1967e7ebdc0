import Stencil.Text.Basic

/-!
# Marks and patterns in texts

What `cutAt?` finds is the first occurrence of a mark (`cutAt?_eq_some`), and it finds one whenever there
is one (`cutAt?_eq_none`).

A small language of text patterns has the priorities of a backtracking matcher: an optional part is
tried before it is left out, a greedy run takes as much as it can, a lazy run as little, and whatever
comes later in the pattern decides whether a choice stands. `Pattern.run` hands each way of matching
to what comes next and keeps the first one that it accepts; `search` looks for the leftmost place.

The lemmas on patterns say what the two kinds of run amount to when the rest of the pattern can start in
one place only.
-/

namespace Stencil.Text

/-! ## Cutting a text at a mark -/

variable {mark : Text}

/-- Only the empty mark is found at the end of a text. -/
theorem cutAt?_nil (mark : Text) :
    cutAt? mark [] = if mark.isEmpty then some ([], []) else none := rfl

/-- A text is cut at its first character if the mark starts there, else behind it. -/
theorem cutAt?_step (mark : Text) (c : Char) (r : Text) :
    cutAt? mark (c :: r) =
      if mark.isPrefixOf (c :: r) then some ([], (c :: r).drop mark.length)
      else (cutAt? mark r).map fun x => (c :: x.1, x.2) := rfl

/-- A text that starts with the mark is cut there. -/
theorem cutAt?_of_starts {t : Text} (h : mark <+: t) :
    cutAt? mark t = some ([], t.drop mark.length) := by
  rcases t with _ | ⟨c, r⟩
  · simp [List.prefix_nil.1 h, cutAt?_nil]
  · simp [cutAt?_step, h]

/-- Where the mark does not start, the next place is looked at. -/
theorem cutAt?_cons {c : Char} {r : Text} (h : ¬ mark <+: c :: r) :
    cutAt? mark (c :: r) = (cutAt? mark r).map fun x => (c :: x.1, x.2) := by
  simp [cutAt?_step, h]

/-- A text is cut at the first occurrence of the mark. -/
theorem cutAt?_eq_some {t before after : Text} (h : cutAt? mark t = some (before, after)) :
    t = before ++ (mark ++ after) ∧ ∀ k < before.length, ¬ mark <+: t.drop k := by
  induction t generalizing before with
  | nil =>
      by_cases hm : mark = []
      · subst hm
        simp only [cutAt?_nil, List.isEmpty_nil, ite_true, Option.some.injEq, Prod.mk.injEq] at h
        obtain ⟨rfl, rfl⟩ := h
        simp
      · simp [cutAt?_nil, hm] at h
  | cons c r ih =>
      by_cases hp : mark <+: c :: r
      · rw [cutAt?_of_starts hp] at h
        obtain ⟨rest, hrest⟩ := hp
        simp only [Option.some.injEq, Prod.mk.injEq] at h
        obtain ⟨rfl, rfl⟩ := h
        simp [← hrest]
      · rw [cutAt?_cons hp] at h
        obtain ⟨⟨b, a⟩, hcut, hx⟩ := Option.map_eq_some_iff.1 h
        simp only [Prod.mk.injEq] at hx
        obtain ⟨rfl, rfl⟩ := hx
        obtain ⟨heq, hfirst⟩ := ih hcut
        refine ⟨by rw [heq, List.cons_append], fun k hk => ?_⟩
        cases k with
        | zero => exact hp
        | succ k => exact hfirst k (by simpa using hk)

/-- A text is cut at the mark behind a text within which no mark starts. -/
theorem cutAt?_append {a : Text} (r : Text) (h : ∀ k < a.length, ¬ mark <+: (a ++ (mark ++ r)).drop k) :
    cutAt? mark (a ++ (mark ++ r)) = some (a, r) := by
  induction a with
  | nil => rw [List.nil_append, cutAt?_of_starts (List.prefix_append _ _), List.drop_left]
  | cons c a ih =>
      have hfirst : ¬ mark <+: c :: (a ++ (mark ++ r)) := h 0 (Nat.succ_pos _)
      rw [List.cons_append, cutAt?_cons hfirst, ih fun k hk => h (k + 1) (Nat.succ_lt_succ hk)]
      rfl

/-- A mark of two characters that starts within a text stands in it, when what comes behind does not
start with the second one. -/
theorem infix_of_prefix_drop {a b : Char} {s r : Text} {k : Nat} (hk : k < s.length)
    (hr : r.head? ≠ some b) (h : [a, b] <+: (s ++ r).drop k) : [a, b] <:+: s := by
  rw [List.drop_append_of_le_length (Nat.le_of_lt hk)] at h
  have hsuffix := (List.drop_suffix k s).isInfix
  have hne : s.drop k ≠ [] := by simpa using hk
  rcases hs : s.drop k with _ | ⟨c, _ | ⟨d, rest⟩⟩
  · exact absurd hs hne
  · -- only the first character is left of the text
    rw [hs] at h
    obtain ⟨-, hb⟩ := List.cons_prefix_cons.1 h
    obtain ⟨r', hr'⟩ := hb
    exact absurd (by rw [← show [b] ++ r' = r from hr']; rfl) hr
  · rw [hs] at h hsuffix
    obtain ⟨rfl, hb⟩ := List.cons_prefix_cons.1 h
    obtain ⟨rfl, -⟩ := List.cons_prefix_cons.1 hb
    exact List.IsInfix.trans ⟨[], rest, rfl⟩ hsuffix

/-- A text that is not cut holds the mark nowhere. -/
theorem cutAt?_eq_none {t : Text} (h : cutAt? mark t = none) (k : Nat) : ¬ mark <+: t.drop k := by
  induction t generalizing k with
  | nil =>
      intro hp
      rw [List.drop_nil] at hp
      simp [cutAt?_nil, List.prefix_nil.1 hp] at h
  | cons c r ih =>
      by_cases hp : mark <+: c :: r
      · simp [cutAt?_of_starts hp] at h
      · cases k with
        | zero => exact hp
        | succ k => exact ih (by simpa [cutAt?_cons hp] using h) k

end Stencil.Text

namespace Stencil.Text

/-! ## Patterns and the order in which they match -/

/-- A place in a text: whether a line starts there, and the text ahead. -/
structure Spot where
  fresh : Bool
  rest : Text
  deriving Repr, DecidableEq

/-- The place behind one character. -/
def Spot.behind (c : Char) (rest : Text) : Spot := ⟨c = '\n', rest⟩

/-- The text between a place and a later one. -/
def Spot.upTo (start finish : Spot) : Text :=
  start.rest.take (start.rest.length - finish.rest.length)

/-- The texts that the numbered groups of a pattern have matched, the latest first. -/
abbrev Captures := List (Nat × Text)

/-- Patterns. Runs repeat a single class of characters. -/
inductive Pattern where
  /-- The start of a line. -/
  | lineStart
  /-- One character of a class. -/
  | one (p : Char → Bool)
  /-- As many characters of a class as possible. -/
  | greedy (p : Char → Bool)
  /-- As few characters of a class as possible. -/
  | lazy (p : Char → Bool)
  | seq (first second : Pattern)
  | either (first second : Pattern)
  | optional (part : Pattern)
  | group (number : Nat) (part : Pattern)

namespace Pattern

variable {β : Type}

/-- A greedy run: what comes next is tried behind the longest run first. -/
def runGreedy (p : Char → Bool) (next : Spot → Option β) : Bool → Text → Option β
  | fresh, [] => next ⟨fresh, []⟩
  | fresh, c :: r =>
    if p c then (runGreedy p next (c = '\n') r).or (next ⟨fresh, c :: r⟩)
    else next ⟨fresh, c :: r⟩

/-- A lazy run: what comes next is tried behind the shortest run first. -/
def runLazy (p : Char → Bool) (next : Spot → Option β) : Bool → Text → Option β
  | fresh, [] => next ⟨fresh, []⟩
  | fresh, c :: r =>
    (next ⟨fresh, c :: r⟩).or (if p c then runLazy p next (c = '\n') r else none)

/-- Matches a pattern at a place and hands each way of matching, in order of priority, to what comes
next; the first result stands. -/
def run : Pattern → Spot → Captures → (Spot → Captures → Option β) → Option β
  | lineStart, s, caught, next => if s.fresh then next s caught else none
  | one p, s, caught, next =>
    match s.rest with
    | [] => none
    | c :: r => if p c then next (.behind c r) caught else none
  | greedy p, s, caught, next => runGreedy p (next · caught) s.fresh s.rest
  | lazy p, s, caught, next => runLazy p (next · caught) s.fresh s.rest
  | seq a b, s, caught, next => a.run s caught fun s caught => b.run s caught next
  | either a b, s, caught, next => (a.run s caught next).or (b.run s caught next)
  | optional a, s, caught, next => (a.run s caught next).or (next s caught)
  | group n a, s, caught, next =>
    a.run s caught fun finish caught => next finish ((n, s.upTo finish) :: caught)

/-- The pattern of a single character. -/
def char (c : Char) : Pattern := one (· = c)

/-- A match: the text passed over before it, the place where it starts and the one behind it, and
what its groups have matched. -/
structure Match where
  before : Text
  start : Spot
  finish : Spot
  caught : Captures
  deriving Repr, DecidableEq

/-- The text of a match. -/
def Match.text (m : Match) : Text := m.start.upTo m.finish

/-- What a group has matched, if it took part in the match. -/
def Match.group? (m : Match) (number : Nat) : Option Text := m.caught.lookup number

/-- The match at a place that has the highest priority. -/
def match? (p : Pattern) (s : Spot) : Option Match :=
  p.run s [] fun finish caught => some ⟨[], s, finish, caught⟩

/-- The leftmost match in a text. -/
def search (p : Pattern) (fresh : Bool) : Text → Option Match
  | [] => p.match? ⟨fresh, []⟩
  | c :: r =>
    match p.match? ⟨fresh, c :: r⟩ with
    | some m => some m
    | none => (p.search (c = '\n') r).map fun m => { m with before := c :: m.before }

/-! ## Runs whose continuation can start in one place only -/

/-- When what comes next cannot start with a character of the class, a greedy run takes all of them. -/
theorem runGreedy_eq (p : Char → Bool) (next : Spot → Option β)
    (hstop : ∀ fresh c r, p c = true → next ⟨fresh, c :: r⟩ = none) (fresh : Bool) (t : Text) :
    ∃ fresh', runGreedy p next fresh t = next ⟨fresh', t.dropWhile p⟩ := by
  induction t generalizing fresh with
  | nil => exact ⟨fresh, rfl⟩
  | cons c r ih =>
      by_cases hc : p c = true
      · obtain ⟨fresh', h⟩ := ih (c = '\n')
        refine ⟨fresh', ?_⟩
        simp [runGreedy, hc, h, hstop fresh c r hc]
      · exact ⟨fresh, by simp [runGreedy, hc]⟩

/-- What comes next is tried in front of a character before the run takes it. -/
theorem runLazy_cons (p : Char → Bool) (next : Spot → Option β) (fresh : Bool) (c : Char) (r : Text) :
    runLazy p next fresh (c :: r) =
      (next ⟨fresh, c :: r⟩).or (if p c then runLazy p next (c = '\n') r else none) := rfl

/-- A run of all characters passes over a place where nothing can come next. -/
theorem runLazy_pass {next : Spot → Option β} {fresh : Bool} {c : Char} {r : Text}
    (h : next ⟨fresh, c :: r⟩ = none) :
    runLazy (fun _ => true) next fresh (c :: r) = runLazy (fun _ => true) next (c = '\n') r := by
  simp [runLazy_cons, h]

/-- A lazy run stops at a place where something can come next. -/
theorem runLazy_stop {p : Char → Bool} {next : Spot → Option β} {fresh : Bool} {t : Text} {x : β}
    (h : next ⟨fresh, t⟩ = some x) : runLazy p next fresh t = some x := by
  cases t with
  | nil => exact h
  | cons c r => rw [runLazy_cons, h, Option.some_or]

/-- An optional part in front of another pattern is tried first and then left out. -/
theorem run_optional_seq (a b : Pattern) (s : Spot) (caught : Captures)
    (next : Spot → Captures → Option β) :
    (seq (optional a) b).run s caught next =
      ((seq a b).run s caught next).or (b.run s caught next) := rfl

/-- A single character is matched where it stands and nowhere else. -/
theorem run_char_cons (x c : Char) (fresh : Bool) (r : Text) (caught : Captures)
    (next : Spot → Captures → Option β) :
    (char x).run ⟨fresh, c :: r⟩ caught next = if c = x then next (.behind c r) caught else none := by
  simp [char, run]

/-- A character in front of another pattern. -/
theorem run_char_seq (x c : Char) (b : Pattern) (fresh : Bool) (r : Text) (caught : Captures)
    (next : Spot → Captures → Option β) :
    (seq (char x) b).run ⟨fresh, c :: r⟩ caught next =
      if c = x then b.run (.behind c r) caught next else none :=
  run_char_cons x c fresh r caught fun s caught => b.run s caught next

/-- No character is matched at the end of a text. -/
theorem run_char_nil (x : Char) (fresh : Bool) (caught : Captures)
    (next : Spot → Captures → Option β) : (char x).run ⟨fresh, []⟩ caught next = none := rfl

end Pattern

/-- The text up to a place is what stands in front of the text ahead of it. -/
theorem Spot.upTo_append (fresh fresh' : Bool) (t rest : Text) :
    (Spot.mk fresh (t ++ rest)).upTo ⟨fresh', rest⟩ = t := by
  simp [Spot.upTo]

end Stencil.Text
