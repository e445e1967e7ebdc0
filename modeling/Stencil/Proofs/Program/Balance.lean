import Stencil.Text.Basic

/-!
# Balanced openings and closings

Statements open and close blocks. A sequence of openings and closings can be followed with a stack of
the blocks that are open (`runEvents`), or judged by counting: it is overdrawn where a prefix closes
more blocks than it opens, and balanced when it is nowhere overdrawn and closes all it opens. The two
agree (`exists_runEvents_iff`, `runEvents_of_firstOverdraw`, `runEvents_of_lastUnclosed`).
-/

namespace Stencil

/-- What a statement does to the open blocks. It closes the innermost one, or opens one. Each event
has the template line of the statement or of the header, and the words for it. -/
inductive BlockEvent where
  | closes (line : Int) (statement : Text)
  | opens (line : Int) (word : Text)
  deriving Repr, DecidableEq

namespace BlockEvent

/-- Whether a block is closed. -/
def isClosing : BlockEvent → Bool
  | closes .. => true
  | opens .. => false

/-- Whether a block is opened. -/
def isOpening : BlockEvent → Bool
  | closes .. => false
  | opens .. => true

end BlockEvent

/-! ## Counting -/

/-- The number of blocks closed. -/
def closings (events : List BlockEvent) : Nat := events.countP (·.isClosing)

/-- The number of blocks opened. -/
def openings (events : List BlockEvent) : Nat := events.countP (·.isOpening)

/-- No prefix closes more blocks than it opens, beyond a number of blocks that are open before. -/
def Affords (depth : Nat) (events : List BlockEvent) : Prop :=
  ∀ p, p <+: events → closings p ≤ depth + openings p

/-- No prefix closes more blocks than it opens. -/
def NeverOverdrawn (events : List BlockEvent) : Prop :=
  ∀ p, p <+: events → closings p ≤ openings p

/-- No prefix closes more blocks than it opens, and all blocks that are opened are closed. -/
def Balanced (events : List BlockEvent) : Prop :=
  NeverOverdrawn events ∧ closings events = openings events

/-- The shortest prefix that closes more blocks than it opens ends with this closing. -/
def FirstOverdraw (events : List BlockEvent) (line : Int) (statement : Text) : Prop :=
  ∃ p, p ++ [.closes line statement] <+: events ∧ NeverOverdrawn p ∧
    openings (p ++ [.closes line statement]) < closings (p ++ [.closes line statement])

/-- The last opening behind which no prefix closes more blocks than it opens, so that the block it
opens is never closed. -/
def LastUnclosed (events : List BlockEvent) (line : Int) (word : Text) : Prop :=
  ∃ before after, events = before ++ .opens line word :: after ∧ NeverOverdrawn after ∧
    ∀ middle line' word' rest, after = middle ++ .opens line' word' :: rest → ¬ NeverOverdrawn rest

@[simp] theorem closings_nil : closings [] = 0 := rfl

@[simp] theorem openings_nil : openings [] = 0 := rfl

@[simp] theorem closings_append (a b : List BlockEvent) :
    closings (a ++ b) = closings a + closings b := List.countP_append

@[simp] theorem openings_append (a b : List BlockEvent) :
    openings (a ++ b) = openings a + openings b := List.countP_append

@[simp] theorem closings_closes (line : Int) (statement : Text) (events : List BlockEvent) :
    closings (.closes line statement :: events) = closings events + 1 :=
  List.countP_cons_of_pos rfl

@[simp] theorem openings_closes (line : Int) (statement : Text) (events : List BlockEvent) :
    openings (.closes line statement :: events) = openings events :=
  List.countP_cons_of_neg (by simp [BlockEvent.isOpening])

@[simp] theorem closings_opens (line : Int) (word : Text) (events : List BlockEvent) :
    closings (.opens line word :: events) = closings events :=
  List.countP_cons_of_neg (by simp [BlockEvent.isClosing])

@[simp] theorem openings_opens (line : Int) (word : Text) (events : List BlockEvent) :
    openings (.opens line word :: events) = openings events + 1 :=
  List.countP_cons_of_pos rfl

/-- Without a block that is open before, what is afforded is never overdrawn. -/
theorem affords_zero {events : List BlockEvent} : Affords 0 events ↔ NeverOverdrawn events := by
  simp [Affords, NeverOverdrawn]

/-- A closing needs an open block. -/
theorem affords_closes {depth : Nat} {line : Int} {statement : Text} {events : List BlockEvent} :
    Affords depth (.closes line statement :: events) ↔ ∃ d, depth = d + 1 ∧ Affords d events := by
  constructor
  · intro h
    have hpos := h [.closes line statement] (List.prefix_append _ _)
    simp only [closings_closes, openings_closes, closings_nil, openings_nil] at hpos
    refine ⟨depth - 1, by omega, fun p hp => ?_⟩
    have hle := h (.closes line statement :: p) (List.prefix_cons_inj _ |>.2 hp)
    simp only [closings_closes, openings_closes] at hle
    omega
  · rintro ⟨d, rfl, h⟩ p hp
    rcases List.prefix_cons_iff.1 hp with rfl | ⟨q, rfl, hq⟩
    · simp
    · have hle := h q hq
      simp only [closings_closes, openings_closes]
      omega

/-- An opening adds an open block. -/
theorem affords_opens {depth : Nat} {line : Int} {word : Text} {events : List BlockEvent} :
    Affords depth (.opens line word :: events) ↔ Affords (depth + 1) events := by
  constructor
  · intro h p hp
    have hle := h (.opens line word :: p) (List.prefix_cons_inj _ |>.2 hp)
    simp only [closings_opens, openings_opens] at hle
    omega
  · intro h p hp
    rcases List.prefix_cons_iff.1 hp with rfl | ⟨q, rfl, hq⟩
    · simp
    · have hle := h q hq
      simp only [closings_opens, openings_opens]
      omega

/-! ## Following the open blocks -/

/-- The open blocks behind an event, the innermost first, or the closing that finds none. -/
def runEvent (stack : List (Int × Text)) : BlockEvent → Except (Int × Text) (List (Int × Text))
  | .opens line word => .ok ((line, word) :: stack)
  | .closes line statement =>
    match stack with
    | [] => .error (line, statement)
    | _ :: outer => .ok outer

/-- The open blocks behind events. -/
def runEvents (stack : List (Int × Text)) (events : List BlockEvent) :
    Except (Int × Text) (List (Int × Text)) :=
  events.foldlM runEvent stack

/-- Events are followed one by one. -/
theorem runEvents_cons (stack : List (Int × Text)) (e : BlockEvent) (events : List BlockEvent) :
    runEvents stack (e :: events) = (runEvent stack e).bind (runEvents · events) := rfl

/-- A single event is followed by itself. -/
theorem runEvents_singleton (stack : List (Int × Text)) (e : BlockEvent) :
    runEvents stack [e] = runEvent stack e := by
  rw [runEvents_cons]
  cases runEvent stack e <;> rfl

/-- Events are followed part by part. -/
theorem runEvents_append (stack : List (Int × Text)) (a b : List BlockEvent) :
    runEvents stack (a ++ b) = (runEvents stack a).bind (runEvents · b) :=
  List.foldlM_append

/-- Events can be followed to their end exactly when the blocks that are open before are enough. -/
theorem exists_runEvents_iff {stack : List (Int × Text)} {events : List BlockEvent} :
    (∃ s, runEvents stack events = .ok s) ↔ Affords stack.length events := by
  induction events generalizing stack with
  | nil =>
      refine ⟨fun _ p hp => ?_, fun _ => ⟨stack, rfl⟩⟩
      rw [List.prefix_nil.1 hp]
      exact Nat.zero_le _
  | cons e events ih =>
      rw [runEvents_cons]
      cases e with
      | opens line word =>
          rw [affords_opens]
          exact ih
      | closes line statement =>
          rw [affords_closes]
          cases stack with
          | nil => simp [runEvent, Except.bind]
          | cons top outer => simpa [runEvent, Except.bind] using ih

/-- Without open blocks before, events can be followed when they are never overdrawn. -/
theorem neverOverdrawn_iff {events : List BlockEvent} :
    NeverOverdrawn events ↔ ∃ s, runEvents [] events = .ok s := by
  rw [exists_runEvents_iff, List.length_nil, affords_zero]

/-- Behind events as many blocks are open as were opened and not closed. -/
theorem length_runEvents {stack s : List (Int × Text)} {events : List BlockEvent}
    (h : runEvents stack events = .ok s) :
    s.length + closings events = stack.length + openings events := by
  induction events generalizing stack with
  | nil =>
      obtain rfl : stack = s := Except.ok.inj h
      rfl
  | cons e events ih =>
      rw [runEvents_cons] at h
      cases e with
      | opens line word =>
          have hlen := ih h
          simp only [closings_opens, openings_opens, List.length_cons] at hlen ⊢
          omega
      | closes line statement =>
          cases stack with
          | nil => cases h
          | cons top outer =>
              have hlen := ih h
              simp only [closings_closes, openings_closes, List.length_cons] at hlen ⊢
              omega

/-- What can be followed by itself is followed in the same way within open blocks. -/
theorem runEvents_within {stack s : List (Int × Text)} {events : List BlockEvent}
    (h : runEvents stack events = .ok s) (outer : List (Int × Text)) :
    runEvents (stack ++ outer) events = .ok (s ++ outer) := by
  induction events generalizing stack with
  | nil =>
      obtain rfl : stack = s := Except.ok.inj h
      rfl
  | cons e events ih =>
      rw [runEvents_cons] at h ⊢
      cases e with
      | opens line word => exact ih h
      | closes line statement =>
          cases stack with
          | nil => cases h
          | cons top inner => exact ih h

/-- Events that cannot be followed to their end stop at a closing that finds no open block. -/
theorem exists_of_runEvents_error {stack : List (Int × Text)} {events : List BlockEvent} {x : Int × Text}
    (h : runEvents stack events = .error x) :
    ∃ p, p ++ [.closes x.1 x.2] <+: events ∧ runEvents stack p = .ok [] := by
  induction events generalizing stack with
  | nil => cases h
  | cons e events ih =>
      have hcons {s : List (Int × Text)} (he : runEvent stack e = .ok s)
          (h : runEvents s events = .error x) :
          ∃ p, p ++ [.closes x.1 x.2] <+: e :: events ∧ runEvents stack p = .ok [] := by
        obtain ⟨p, hp, hrun⟩ := ih h
        refine ⟨e :: p, (List.prefix_cons_inj _).2 hp, ?_⟩
        rw [runEvents_cons, he]
        exact hrun
      rw [runEvents_cons] at h
      cases e with
      | opens line word => exact hcons rfl h
      | closes line statement =>
          cases stack with
          | nil =>
              obtain rfl := Except.error.inj h
              exact ⟨[], ⟨events, rfl⟩, rfl⟩
          | cons top outer => exact hcons rfl h

/-! ## Where the counting fails -/

/-- The first closing that overdraws finds no open block. -/
theorem runEvents_of_firstOverdraw {events : List BlockEvent} {line : Int} {statement : Text}
    (h : FirstOverdraw events line statement) :
    runEvents [] events = .error (line, statement) := by
  obtain ⟨p, ⟨rest, rfl⟩, hnever, hlt⟩ := h
  obtain ⟨s, hs⟩ := neverOverdrawn_iff.1 hnever
  have hlen := length_runEvents hs
  simp only [openings_append, closings_append, openings_closes, closings_closes, openings_nil,
    closings_nil, List.length_nil] at hlt hlen
  obtain rfl : s = [] := List.length_eq_zero_iff.1 (by omega)
  rw [List.append_assoc, runEvents_append, hs]
  rfl

/-- A closing that finds no open block is the first that overdraws. -/
theorem firstOverdraw_of_runEvents {events : List BlockEvent} {x : Int × Text}
    (h : runEvents [] events = .error x) : FirstOverdraw events x.1 x.2 := by
  obtain ⟨p, hp, hrun⟩ := exists_of_runEvents_error h
  have hlen := length_runEvents hrun
  refine ⟨p, hp, neverOverdrawn_iff.2 ⟨_, hrun⟩, ?_⟩
  simp only [openings_append, closings_append, openings_closes, closings_closes, openings_nil,
    closings_nil, List.length_nil] at hlen ⊢
  omega

/-- What never closes in the rest of the events never closes in all of them. -/
theorem LastUnclosed.append {events : List BlockEvent} {line : Int} {word : Text}
    (h : LastUnclosed events line word) (before : List BlockEvent) :
    LastUnclosed (before ++ events) line word := by
  obtain ⟨b, after, rfl, hnever, hlast⟩ := h
  exact ⟨before ++ b, after, (List.append_assoc _ _ _).symm, hnever, hlast⟩

/-- Where more blocks are opened than closed, some block is never closed. -/
theorem exists_lastUnclosed {events : List BlockEvent} (h : closings events < openings events) :
    ∃ line word, LastUnclosed events line word := by
  match events with
  | [] => simp at h
  | .closes line statement :: events =>
      rw [closings_closes, openings_closes] at h
      have hlt : closings events < openings events := by omega
      obtain ⟨l, w, hlast⟩ := exists_lastUnclosed hlt
      exact ⟨l, w, hlast.append [_]⟩
  | .opens line word :: events =>
      rw [closings_opens, openings_opens] at h
      by_cases hlt : closings events < openings events
      · obtain ⟨l, w, hlast⟩ := exists_lastUnclosed hlt
        exact ⟨l, w, hlast.append [_]⟩
      by_cases hnever : NeverOverdrawn events
      · -- the other blocks are closed, so that the first one is the last that never is
        refine ⟨line, word, [], events, rfl, hnever, fun middle l w rest heq hrest => ?_⟩
        have hmiddle := hnever middle (heq ▸ List.prefix_append _ _)
        have htail := hrest rest List.prefix_rfl
        rw [heq] at hlt
        simp only [closings_append, openings_append, closings_opens, openings_opens] at hlt
        omega
      · -- behind a prefix that closes more than it opens more is opened than closed
        obtain ⟨p, hp⟩ := Classical.not_forall.1 hnever
        obtain ⟨⟨q, hq⟩, hlt'⟩ := Classical.not_imp.1 hp
        have hlen : q.length ≤ events.length := hq ▸ List.length_append ▸ Nat.le_add_left _ _
        have htail : closings q < openings q := by
          rw [← hq, closings_append, openings_append] at h
          omega
        obtain ⟨l, w, hlast⟩ := exists_lastUnclosed htail
        exact ⟨l, w, hq ▸ hlast.append (_ :: p)⟩
termination_by events.length

/-- The last block that is never closed is the innermost one in the end. -/
theorem runEvents_of_lastUnclosed {events : List BlockEvent} {line : Int} {word : Text}
    (hnever : NeverOverdrawn events) (h : LastUnclosed events line word) :
    ∃ outer, runEvents [] events = .ok ((line, word) :: outer) := by
  obtain ⟨before, after, rfl, hafter, hlast⟩ := h
  have hbefore : NeverOverdrawn before := fun p hp =>
    hnever p (hp.trans (List.prefix_append _ _))
  obtain ⟨outer, houter⟩ := neverOverdrawn_iff.1 hbefore
  obtain ⟨s, hs⟩ := neverOverdrawn_iff.1 hafter
  have hlen := length_runEvents hs
  have hnil : s = [] := by
    refine List.length_eq_zero_iff.1 (Nat.eq_zero_of_not_pos fun hpos => ?_)
    have hlt : closings after < openings after := by
      rw [List.length_nil] at hlen
      omega
    obtain ⟨l, w, middle, rest, heq, hrest, -⟩ := exists_lastUnclosed hlt
    exact hlast middle l w rest heq hrest
  have hwithin := runEvents_within hs ((line, word) :: outer)
  rw [hnil] at hwithin
  refine ⟨outer, ?_⟩
  rw [runEvents_append, houter]
  exact hwithin

end Stencil
