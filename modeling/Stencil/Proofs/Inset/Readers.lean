import Stencil.Proofs.Script.Rejection

/-!
# Readers before different ends

The tokens of an expression are the same whether it stands alone or in the brackets of a call, but other
tokens follow them. `Along` says that a reader that succeeds before one end succeeds before the other
with the same result. It is shown for a reader from its parts (`Along.bind`, `Along.loop`), and says
nothing where an expression is left in front of another one, which no reader takes up again (`Stray`).
-/

namespace Stencil.Script

open Parse

/-! ## Tokens before different ends -/

/-- Whether the tokens of an expression end before a token. -/
def Lexeme.isEnd : Lexeme → Bool
  | .newline | .finish | .fault _ => true
  | _ => false

/-- Two ends of tokens: the same one, or the second starts with a closing bracket. -/
inductive EndPair : List Token → List Token → Prop
  | same {t : Token} {ts : List Token} : t.lexeme.isEnd → EndPair (t :: ts) (t :: ts)
  | closed {t u : Token} {ts us : List Token} : t.lexeme.isEnd → u.lexeme = .op ")" →
      EndPair (t :: ts) (u :: us)

/-- The same tokens before the one end and the other. Only the depth of brackets and the line on which a
token ends may differ. -/
inductive Aligned (left right : List Token) : List Token → List Token → Prop
  | ends : Aligned left right left right
  | cons {x : Lexeme} {l e e' d d' : Nat} {s r : List Token} : x.isEnd = false →
      Aligned left right s r → Aligned left right (⟨x, l, e, d⟩ :: s) (⟨x, l, e', d'⟩ :: r)

/-- An expression that nothing separates from the one before it is next. -/
def Stray (ts : List Token) : Prop :=
  ∃ t rest, ts = t :: rest ∧ t.lexeme.startsStrayExpression

/-- Where a first reader succeeds before one end, a second one succeeds before the other: with the same
result, which together with the number of tokens left is as `Q` says. In the open case an expression may
be left instead. -/
def Along {α : Type} (left right : List Token) (isOpen : Bool) (Q : α → Nat → Prop) (p q : Parse α)
    (s r : List Token) : Prop :=
  ∀ a s', p s = .ok (a, s') → isOpen = true ∧ Stray s' ∨
    ∃ r', q r = .ok (a, r') ∧ Aligned left right s' r' ∧ Q a s'.length

/-- A reader that is met by an expression it cannot take fails, or in the open case leaves it. -/
def Stalls {α : Type} (isOpen : Bool) (p : Parse α) : Prop :=
  ∀ s, Stray s → ∀ a s', p s = .ok (a, s') → isOpen = true ∧ Stray s'

/-- A reader succeeds along with another one wherever the tokens are aligned, and takes a token where its
result calls for one. -/
def Follows {α : Type} (isOpen : Bool) (c : α → Bool) (p q : Parse α) : Prop :=
  ∀ ⦃left right⦄, EndPair left right → ∀ s r, Aligned left right s r →
    Along left right isOpen (fun a n => n + (c a).toNat ≤ s.length) p q s r

/-- A reader goes along with another one. -/
abbrev Goes {α : Type} (isOpen : Bool) (p q : Parse α) : Prop :=
  Follows isOpen (fun _ => false) p q

/-- A reader goes along with another one and takes a token. -/
abbrev Takes {α : Type} (isOpen : Bool) (p q : Parse α) : Prop :=
  Follows isOpen (fun _ => true) p q

/-- A step of a loop goes along with another one. It takes a token unless it is the last one. -/
abbrev Steps {α : Type} (isOpen : Bool) (p q : Parse (Option α)) : Prop :=
  Follows isOpen Option.isSome p q

/-- A reader goes along with another one where a certain token is next. -/
def FollowsAt {α : Type} (x : Lexeme) (isOpen : Bool) (c : α → Bool) (p q : Parse α) : Prop :=
  ∀ ⦃left right⦄, EndPair left right → ∀ l e e' d d' s r, Aligned left right s r →
    Along left right isOpen (fun a n => n + (c a).toNat ≤ s.length + 1) p q (⟨x, l, e, d⟩ :: s)
      (⟨x, l, e', d'⟩ :: r)

/-- A reader goes along with another one where two certain tokens are next. -/
def FollowsAtTwo {α : Type} (x y : Lexeme) (isOpen : Bool) (c : α → Bool) (p q : Parse α) : Prop :=
  ∀ ⦃left right⦄, EndPair left right → ∀ l e e' d d' l₁ e₁ e₁' d₁ d₁' s r, Aligned left right s r →
    Along left right isOpen (fun a n => n + (c a).toNat ≤ s.length + 2) p q
      (⟨x, l, e, d⟩ :: ⟨y, l₁, e₁, d₁⟩ :: s) (⟨x, l, e', d'⟩ :: ⟨y, l₁, e₁', d₁'⟩ :: r)

/-- No expression goes on, and a reader fails. -/
def Bars {α : Type} (p : Parse α) : Prop :=
  ∀ t ts, t.lexeme.isEnd → Fails p (t :: ts)

section

variable {left right : List Token} {α β : Type} {isOpen : Bool} {Q : α → Nat → Prop}
  {R : β → Nat → Prop} {p q : Parse α} {f g : α → Parse β} {s r : List Token}

/-- The tokens before an end are not fewer than those of the end. -/
theorem Aligned.length_le (h : Aligned left right s r) : left.length ≤ s.length := by
  induction h with
  | ends => exact Nat.le_refl _
  | cons _ _ ih => exact Nat.le_succ_of_le ih

/-- As many tokens stand before the one end as before the other. -/
theorem Aligned.length_add (h : Aligned left right s r) :
    s.length + right.length = r.length + left.length := by
  induction h with
  | ends => exact Nat.add_comm _ _
  | cons _ _ ih =>
      simp only [List.length_cons]
      omega

namespace Along

/-- A result that is given at once. -/
theorem pure {a : α} (h : Aligned left right s r) (hQ : Q a s.length) :
    Along left right isOpen Q (Pure.pure a) (Pure.pure a) s r := by
  intro b s' hp
  obtain ⟨rfl, rfl⟩ : a = b ∧ s = s' := by
    simpa [pure_apply] using hp
  exact .inr ⟨r, rfl, h, hQ⟩

/-- A reader that fails. -/
theorem fails (h : Fails p s) : Along left right isOpen Q p q s r := by
  obtain ⟨e, h⟩ := h
  intro a s' hp
  rw [h] at hp
  cases hp

/-- A weaker condition on the result. -/
theorem mono {Q' : α → Nat → Prop} (h : Along left right isOpen Q p q s r)
    (hQ : ∀ a n, Q a n → Q' a n) : Along left right isOpen Q' p q s r := by
  intro a s' hp
  obtain hstray | ⟨r', hq, ha, hn⟩ := h a s' hp
  · exact .inl hstray
  · exact .inr ⟨r', hq, ha, hQ _ _ hn⟩

/-- A reader that leaves no expression is one that may leave one. -/
theorem opened (h : Along left right false Q p q s r) : Along left right isOpen Q p q s r := by
  intro a s' hp
  obtain ⟨hfalse, -⟩ | h := h a s' hp
  · exact Bool.noConfusion hfalse
  · exact .inr h

/-- Readers that are known to succeed are followed by the next ones. -/
theorem next {a b : α} {t u : List Token} (hp : p s = .ok (a, t)) (hq : q r = .ok (b, u))
    (h : Along left right isOpen R (f a) (g b) t u) :
    Along left right isOpen R (p >>= f) (q >>= g) s r := by
  intro c s'' hc
  rw [bind_ok hp] at hc
  rw [bind_ok hq]
  exact h c s'' hc

/-- A reader is followed by the next one, which stalls before an expression that the first one may
leave. -/
theorem bindWith {leaves : Bool} (hp : Along left right leaves Q p q s r)
    (h : ∀ a s' r', Aligned left right s' r' → Q a s'.length →
      Along left right isOpen R (f a) (g a) s' r')
    (hstalls : leaves = true → ∀ a, Stalls isOpen (f a)) :
    Along left right isOpen R (p >>= f) (q >>= g) s r := by
  intro b s'' hb
  rw [bind_apply] at hb
  cases hx : p s with
  | error e => rw [hx] at hb; cases hb
  | ok x =>
      rw [hx] at hb
      obtain ⟨hleaves, hstray⟩ | ⟨r', hq, ha, hQ⟩ := hp x.1 x.2 hx
      · exact .inl (hstalls hleaves x.1 x.2 hstray b s'' hb)
      · rw [bind_ok hq]
        exact h x.1 x.2 r' ha hQ b s'' hb

/-- A reader that leaves no expression is followed by the next one. -/
theorem bind (hp : Along left right false Q p q s r)
    (h : ∀ a s' r', Aligned left right s' r' → Q a s'.length →
      Along left right isOpen R (f a) (g a) s' r') :
    Along left right isOpen R (p >>= f) (q >>= g) s r :=
  hp.bindWith h fun h => Bool.noConfusion h

/-- A reader that may leave an expression is followed by one that stalls before it. -/
theorem bindOpen (hp : Along left right true Q p q s r)
    (h : ∀ a s' r', Aligned left right s' r' → Q a s'.length →
      Along left right isOpen R (f a) (g a) s' r') (hstalls : ∀ a, Stalls isOpen (f a)) :
    Along left right isOpen R (p >>= f) (q >>= g) s r :=
  hp.bindWith h fun _ => hstalls

end Along

/-! ## At the ends -/

/-- What holds for the three kinds of tokens at which an expression ends. -/
theorem Lexeme.forall_isEnd {P : Lexeme → Prop} (hnewline : P .newline) (hfinish : P .finish)
    (hfault : ∀ f, P (.fault f)) : ∀ x : Lexeme, x.isEnd → P x := by
  intro x hx
  cases x <;> first | assumption | exact hfault _ | cases hx

/-- A token is a mark when it is that very mark. -/
theorem Lexeme.isOp_iff {x : Lexeme} {m : String} : x.isOp m = true ↔ x = .op m := by
  cases x with
  | op m' => exact ⟨fun h => by rw [beq_iff_eq.1 h], fun h => by cases h; exact beq_self_eq_true _⟩
  | _ => exact ⟨fun h => Bool.noConfusion h, fun h => by cases h⟩

/-- A token is a keyword when it is that very keyword. -/
theorem Lexeme.isWord_iff {x : Lexeme} {w : String} : x.isWord w = true ↔ x = .keyword w := by
  cases x with
  | keyword w' => exact ⟨fun h => by rw [beq_iff_eq.1 h], fun h => by cases h; exact beq_self_eq_true _⟩
  | _ => exact ⟨fun h => Bool.noConfusion h, fun h => by cases h⟩

/-- A token at which an expression ends is no mark. -/
theorem Lexeme.isOp_of_isEnd {x : Lexeme} (h : x.isEnd) (m : String) : x.isOp m = false := by
  cases x <;> first | rfl | cases h

/-- A token at which an expression ends is no keyword. -/
theorem Lexeme.isWord_of_isEnd {x : Lexeme} (h : x.isEnd) (w : String) : x.isWord w = false := by
  cases x <;> first | rfl | cases h

/-- Neither end starts with a keyword, or with a mark other than the closing bracket. -/
theorem EndPair.exists_eq (h : EndPair left right) : ∃ t ts u us, left = t :: ts ∧ right = u :: us ∧
    t.lexeme.isEnd ∧ (u.lexeme.isEnd ∨ u.lexeme = .op ")") ∧ (∀ w, u.lexeme.isWord w = false) ∧
      ∀ m, m ≠ ")" → u.lexeme.isOp m = false := by
  cases h with
  | same ht =>
      exact ⟨_, _, _, _, rfl, rfl, ht, .inl ht, Lexeme.isWord_of_isEnd ht,
        fun m _ => Lexeme.isOp_of_isEnd ht m⟩
  | closed ht hu =>
      refine ⟨_, _, _, _, rfl, rfl, ht, .inr hu, fun w => ?_, fun m hm => ?_⟩
      · rw [hu]
        rfl
      · rw [hu]
        exact beq_false_of_ne hm

section

variable {m w : String} {h h' : Bool → Parse β} {c : α → Bool} {z : β → Bool}

/-- What fails wherever it starts fails behind any reader. -/
theorem Fails.behind (hf : ∀ a s, Fails (f a) s) (s : List Token) : Fails (p >>= f) s := by
  cases hp : p s with
  | error e => exact .bind ⟨e, hp⟩ f
  | ok x => exact .after hp (hf x.1 x.2)

/-! ## Readers that no expression goes on with -/

namespace Bars

/-- A reader that always fails. -/
theorem fails (h : ∀ s, Fails p s) : Bars p :=
  fun _ _ _ => h _

/-- What follows a reader that fails is not read. -/
theorem bind (hp : Bars p) : Bars (p >>= f) :=
  fun t ts ht => (hp t ts ht).bind f

/-- The line of the next token. -/
theorem line {k : Nat → Parse β} (hk : ∀ l, Bars (k l)) : Bars (Parse.line >>= k) :=
  fun t ts ht => .after (line_cons t ts) (hk _ t ts ht)

/-- The next token. -/
theorem peek {k : Lexeme → Parse β} (hk : ∀ x, x.isEnd → Bars (k x)) : Bars (Parse.peek >>= k) :=
  fun t ts ht => .after (peek_cons t ts) (hk _ ht t ts ht)

/-- The token behind the next one. -/
theorem peekSecond {k : Lexeme → Parse β} (hk : ∀ x, Bars (k x)) : Bars (Parse.peekSecond >>= k) := by
  intro t ts ht
  cases ts with
  | nil => exact hk _ t _ ht
  | cons u ts => exact hk _ t _ ht

/-- A mark is not next. -/
theorem atOp (hf : Bars (h false)) : Bars (Parse.atOp m >>= h) :=
  fun t ts ht => .after (atOp_cons t ts m) (by rw [Lexeme.isOp_of_isEnd ht]; exact hf t ts ht)

/-- A keyword is not next. -/
theorem atWord (hf : Bars (h false)) : Bars (Parse.atWord w >>= h) :=
  fun t ts ht => .after (atWord_cons t ts w) (by rw [Lexeme.isWord_of_isEnd ht]; exact hf t ts ht)

/-- A mark is not taken. -/
theorem takeOp (hf : Bars (h false)) : Bars (Parse.takeOp m >>= h) :=
  fun t ts ht => .after (takeOp_cons t ts m) (by rw [Lexeme.isOp_of_isEnd ht]; exact hf t ts ht)

/-- A keyword is not taken. -/
theorem takeWord (hf : Bars (h false)) : Bars (Parse.takeWord w >>= h) :=
  fun t ts ht => .after (takeWord_cons t ts w) (by rw [Lexeme.isWord_of_isEnd ht]; exact hf t ts ht)

/-- A mark that has to be next is missing. -/
theorem expectOp : Bars (Parse.expectOp m) :=
  takeOp (fails fun _ => ⟨_, rfl⟩)

/-- A keyword that has to be next is missing. -/
theorem expectWord : Bars (Parse.expectWord w) :=
  takeWord (fails fun _ => ⟨_, rfl⟩)

/-- A name that has to be next is missing. -/
theorem name : Bars Parse.name :=
  peek fun x hx => fails fun s => by
    cases x <;> first | exact ⟨_, rfl⟩ | cases hx

end Bars

/-! ## Readers that go along with others -/

namespace Follows

/-- A result that is given at once. -/
theorem pure {a : α} (hc : c a = false) : Follows isOpen c (Pure.pure a) (Pure.pure a) :=
  fun _ _ _ _ _ ha => .pure ha (by rw [hc]; exact Nat.le_refl _)

/-- A reader that always fails. -/
theorem fails (h : ∀ s, Fails p s) : Follows isOpen c p q :=
  fun _ _ _ _ _ _ => .fails (h _)

/-- A reader that leaves no expression is one that may leave one. -/
theorem opened (h : Follows false c p q) : Follows isOpen c p q :=
  fun _ _ he _ _ ha => (h he _ _ ha).opened

/-- A reader may take a token where none is called for. -/
theorem goes (h : Follows isOpen c p q) : Goes isOpen p q :=
  fun _ _ he _ _ ha => (h he _ _ ha).mono fun _ _ hn => Nat.le_of_add_right_le hn

/-- A reader is followed by the next one, which stalls before an expression that the first one may
leave. Both take tokens. -/
theorem bindWith {leaves : Bool} {c₁ : β → Bool} (hp : Follows leaves c p q)
    (hf : ∀ a, Follows isOpen c₁ (f a) (g a)) (hstalls : leaves = true → ∀ a, Stalls isOpen (f a))
    (hc : ∀ a b, (z b).toNat ≤ (c a).toNat + (c₁ b).toNat) :
    Follows isOpen z (p >>= f) (q >>= g) :=
  fun _ _ he _ _ ha => (hp he _ _ ha).bindWith
    (fun a _ _ ha' hn => (hf a he _ _ ha').mono fun b n hn' => by have := hc a b; omega) hstalls

/-- A reader that leaves no expression is followed by the next one. -/
theorem bind (hp : Goes false p q) (hf : ∀ a, Follows isOpen z (f a) (g a)) :
    Follows isOpen z (p >>= f) (q >>= g) :=
  hp.bindWith hf (fun h => Bool.noConfusion h) fun _ _ => Nat.le_add_left _ _

/-- A reader that may leave an expression is followed by one that stalls before it. -/
theorem bindOpen (hp : Goes true p q) (hf : ∀ a, Follows isOpen z (f a) (g a))
    (hstalls : ∀ a, Stalls isOpen (f a)) : Follows isOpen z (p >>= f) (q >>= g) :=
  hp.bindWith hf (fun _ => hstalls) fun _ _ => Nat.le_add_left _ _

/-- A reader that takes a token is followed by the next one. -/
theorem bindTaking (hp : Takes false p q) (hf : ∀ a, Goes isOpen (f a) (g a)) :
    Follows isOpen z (p >>= f) (q >>= g) :=
  hp.bindWith hf (fun h => Bool.noConfusion h) fun _ b => Bool.toNat_le (z b)

/-- A step that takes a token is followed by the next reader, and so is one that takes nothing. -/
theorem bindStep {γ : Type} {p q : Parse (Option γ)} {f g : Option γ → Parse β} (hp : Steps false p q)
    (hsome : ∀ a, Goes isOpen (f (some a)) (g (some a))) (hnone : Follows isOpen z (f none) (g none)) :
    Follows isOpen z (p >>= f) (q >>= g) := by
  intro left right he s r ha
  refine (hp he s r ha).bind fun b s' r' ha' hless => ?_
  cases b with
  | none => exact (hnone he _ _ ha').mono fun _ _ hn => Nat.le_trans hn hless
  | some b =>
      have hless : s'.length + 1 ≤ s.length := hless
      exact (hsome b he _ _ ha').mono fun d n hn => by
        have hn : n ≤ s'.length := hn
        have := Bool.toNat_le (z d)
        omega

/-- The line of a token. No reader goes on at the end, where the lines differ. -/
theorem line {k k' : Nat → Parse β} (hk : ∀ l, Follows isOpen z (k l) (k' l))
    (hbars : ∀ l, Bars (k l)) : Follows isOpen z (Parse.line >>= k) (Parse.line >>= k') := by
  intro left right he s r ha
  cases ha with
  | ends =>
      obtain ⟨t, ts, u, us, rfl, rfl, ht, -⟩ := he.exists_eq
      exact .fails (.after (line_cons t ts) (hbars _ t ts ht))
  | cons hx ha => exact .next (line_cons _ _) (line_cons _ _) (hk _ he _ _ (.cons hx ha))

/-- The line of a token, which does not matter at the end. -/
theorem lineAny {k k' : Nat → Parse β} (hk : ∀ l l', Follows isOpen z (k l) (k' l')) :
    Follows isOpen z (Parse.line >>= k) (Parse.line >>= k') := by
  intro left right he s r ha
  obtain ⟨t, ts, u, us, hl, hr, -⟩ := he.exists_eq
  have hleft := ha.length_le
  have hadd := ha.length_add
  cases s with
  | nil => simp [hl] at hleft
  | cons t s =>
      cases r with
      | nil => simp [hl, hr] at hadd hleft; omega
      | cons u r => exact .next (line_cons _ _) (line_cons _ _) (hk _ _ he _ _ ha)

/-- Reading something for each item of a list. -/
theorem mapM {γ δ : Type} {f f' : γ → Parse δ} (hf : ∀ a, Goes false (f a) (f' a)) (as : List γ) :
    Goes false (as.mapM f) (as.mapM f') := by
  induction as with
  | nil => exact .pure rfl
  | cons a as ih =>
      rw [List.mapM_cons, List.mapM_cons]
      exact (hf a).bind fun b => ih.bind fun bs => .pure rfl

/-- Looking for a mark. Without the closing bracket no reader goes on at the end. -/
theorem atOp (htrue : FollowsAt (.op m) isOpen z (h true) (h' true))
    (hfalse : Follows isOpen z (h false) (h' false)) (hm : m ≠ ")" ∨ Bars (h false)) :
    Follows isOpen z (Parse.atOp m >>= h) (Parse.atOp m >>= h') := by
  intro left right he s r ha
  cases ha with
  | ends =>
      obtain ⟨t, ts, u, us, rfl, rfl, ht, -, -, hu⟩ := he.exists_eq
      have hlook : Parse.atOp m (t :: ts) = .ok (false, t :: ts) := by
        rw [atOp_cons, Lexeme.isOp_of_isEnd ht]
      obtain hm | hbars := hm
      · exact .next hlook (by rw [atOp_cons, hu m hm]) (hfalse he _ _ .ends)
      · exact .fails (.after hlook (hbars t ts ht))
  | @cons x l e e' d d' s r hx ha =>
      refine .next (atOp_cons _ _ _) (atOp_cons _ _ _) ?_
      cases hop : x.isOp m with
      | false => exact hfalse he _ _ (.cons hx ha)
      | true =>
          obtain rfl := Lexeme.isOp_iff.1 hop
          exact htrue he _ _ _ _ _ _ _ ha

/-- Looking for a keyword. -/
theorem atWord (htrue : FollowsAt (.keyword w) isOpen z (h true) (h' true))
    (hfalse : Follows isOpen z (h false) (h' false)) :
    Follows isOpen z (Parse.atWord w >>= h) (Parse.atWord w >>= h') := by
  intro left right he s r ha
  cases ha with
  | ends =>
      obtain ⟨t, ts, u, us, rfl, rfl, ht, -, hu, -⟩ := he.exists_eq
      refine .next (a := false) ?_ ?_ (hfalse he _ _ .ends)
      · rw [atWord_cons, Lexeme.isWord_of_isEnd ht]
      · rw [atWord_cons, hu]
  | @cons x l e e' d d' s r hx ha =>
      refine .next (atWord_cons _ _ _) (atWord_cons _ _ _) ?_
      cases hword : x.isWord w with
      | false => exact hfalse he _ _ (.cons hx ha)
      | true =>
          obtain rfl := Lexeme.isWord_iff.1 hword
          exact htrue he _ _ _ _ _ _ _ ha

/-- Taking a mark if it is next. Without the closing bracket no reader goes on at the end. -/
theorem takeOp (htrue : Goes isOpen (h true) (h' true)) (hfalse : Follows isOpen z (h false) (h' false))
    (hm : m ≠ ")" ∨ Bars (h false)) :
    Follows isOpen z (Parse.takeOp m >>= h) (Parse.takeOp m >>= h') := by
  intro left right he s r ha
  cases ha with
  | ends =>
      obtain ⟨t, ts, u, us, rfl, rfl, ht, -, -, hu⟩ := he.exists_eq
      have htake : Parse.takeOp m (t :: ts) = .ok (false, t :: ts) := by
        rw [takeOp_cons, Lexeme.isOp_of_isEnd ht]
        rfl
      obtain hm | hbars := hm
      · refine .next htake ?_ (hfalse he _ _ .ends)
        rw [takeOp_cons, hu m hm]
        rfl
      · exact .fails (.after htake (hbars t ts ht))
  | @cons x l e e' d d' s r hx ha =>
      by_cases hop : x.isOp m
      · refine .next (t := s) (u := r) (a := true) ?_ ?_ ((htrue he _ _ ha).mono fun b n hn => ?_)
        · simp [takeOp_cons, hop]
        · simp [takeOp_cons, hop]
        · have := Bool.toNat_le (z b)
          simp only [List.length_cons]
          omega
      · refine .next (a := false) (u := ⟨x, l, e', d'⟩ :: r) ?_ ?_ (hfalse he _ _ (.cons hx ha)) <;>
          simp [takeOp_cons, hop]

/-- Taking a keyword if it is next. -/
theorem takeWord (htrue : Goes isOpen (h true) (h' true))
    (hfalse : Follows isOpen z (h false) (h' false)) :
    Follows isOpen z (Parse.takeWord w >>= h) (Parse.takeWord w >>= h') := by
  intro left right he s r ha
  cases ha with
  | ends =>
      obtain ⟨t, ts, u, us, rfl, rfl, ht, -, hu, -⟩ := he.exists_eq
      refine .next (a := false) ?_ ?_ (hfalse he _ _ .ends)
      · rw [takeWord_cons, Lexeme.isWord_of_isEnd ht]
        rfl
      · rw [takeWord_cons, hu]
        rfl
  | @cons x l e e' d d' s r hx ha =>
      by_cases hop : x.isWord w
      · refine .next (t := s) (u := r) (a := true) ?_ ?_ ((htrue he _ _ ha).mono fun b n hn => ?_)
        · simp [takeWord_cons, hop]
        · simp [takeWord_cons, hop]
        · have := Bool.toNat_le (z b)
          simp only [List.length_cons]
          omega
      · refine .next (a := false) (u := ⟨x, l, e', d'⟩ :: r) ?_ ?_ (hfalse he _ _ (.cons hx ha)) <;>
          simp [takeWord_cons, hop]

/-- Taking a mark that has to be next. -/
theorem expectOp : Takes isOpen (Parse.expectOp m) (Parse.expectOp m) := by
  intro left right he s r ha
  cases ha with
  | ends =>
      obtain ⟨t, ts, u, us, rfl, rfl, ht, -⟩ := he.exists_eq
      exact .fails (Bars.expectOp t ts ht)
  | @cons x l e e' d d' s r hx ha =>
      by_cases hop : x.isOp m
      · exact .next (takeOp_cons _ _ _) (takeOp_cons _ _ _) (by
          simp only [hop, if_true]
          exact .pure ha (Nat.le_refl _))
      · refine .fails (.after (takeOp_cons _ _ _) ?_)
        simp only [hop]
        exact ⟨_, rfl⟩

/-- Taking a keyword that has to be next. -/
theorem expectWord : Takes isOpen (Parse.expectWord w) (Parse.expectWord w) := by
  intro left right he s r ha
  cases ha with
  | ends =>
      obtain ⟨t, ts, u, us, rfl, rfl, ht, -⟩ := he.exists_eq
      exact .fails (Bars.expectWord t ts ht)
  | @cons x l e e' d d' s r hx ha =>
      by_cases hop : x.isWord w
      · exact .next (takeWord_cons _ _ _) (takeWord_cons _ _ _) (by
          simp only [hop, if_true]
          exact .pure ha (Nat.le_refl _))
      · refine .fails (.after (takeWord_cons _ _ _) ?_)
        simp only [hop]
        exact ⟨_, rfl⟩

/-- The next token. At the end it is one with which no expression goes on, or the closing bracket. -/
theorem peek {k k' : Lexeme → Parse β}
    (hcons : ∀ x, x.isEnd = false → FollowsAt x isOpen z (k x) (k' x))
    (hk : ∀ x, x.isEnd → k x = k .newline ∧ k' x = k' (.op ")"))
    (hends : Follows isOpen z (k .newline) (k' (.op ")"))) :
    Follows isOpen z (Parse.peek >>= k) (Parse.peek >>= k') := by
  intro left right he s r ha
  cases ha with
  | ends =>
      obtain ⟨t, ts, u, us, rfl, rfl, ht, hu, -⟩ := he.exists_eq
      refine .next (peek_cons _ _) (peek_cons _ _) ?_
      have hu : k' u.lexeme = k' (.op ")") := by
        obtain hu | hu := hu
        · exact (hk _ hu).2
        · rw [hu]
      rw [(hk _ ht).1, hu]
      exact hends he _ _ .ends
  | cons hx ha => exact .next (peek_cons _ _) (peek_cons _ _) (hcons _ hx he _ _ _ _ _ _ _ ha)

/-- The next token, where no reader goes on at the end. -/
theorem peekBars {k k' : Lexeme → Parse β}
    (hcons : ∀ x, x.isEnd = false → FollowsAt x isOpen z (k x) (k' x))
    (hbars : ∀ x, x.isEnd → Bars (k x)) :
    Follows isOpen z (Parse.peek >>= k) (Parse.peek >>= k') := by
  intro left right he s r ha
  cases ha with
  | ends =>
      obtain ⟨t, ts, u, us, rfl, rfl, ht, -⟩ := he.exists_eq
      exact .fails (.after (peek_cons t ts) (hbars _ ht t ts ht))
  | cons hx ha => exact .next (peek_cons _ _) (peek_cons _ _) (hcons _ hx he _ _ _ _ _ _ _ ha)

/-- The token behind the next one does not matter. -/
theorem peekSecond {k k' : Lexeme → Parse β} (hk : ∀ x y, Follows isOpen z (k x) (k' y)) :
    Follows isOpen z (Parse.peekSecond >>= k) (Parse.peekSecond >>= k') := by
  intro left right he s r ha
  have hlook (s : List Token) : ∃ x, Parse.peekSecond s = .ok (x, s) := by
    match s with
    | [] | [_] => exact ⟨_, rfl⟩
    | _ :: t :: _ => exact ⟨t.lexeme, rfl⟩
  obtain ⟨x, hx⟩ := hlook s
  obtain ⟨y, hy⟩ := hlook r
  exact .next hx hy (hk x y he s r ha)

/-- Taking a name. -/
theorem name : Takes isOpen Parse.name Parse.name := by
  intro left right he s r ha
  cases ha with
  | ends =>
      obtain ⟨t, ts, u, us, rfl, rfl, ht, -⟩ := he.exists_eq
      exact .fails (Bars.name t ts ht)
  | @cons x l e e' d d' s r hx ha =>
      refine .next (peek_cons _ _) (peek_cons _ _) ?_
      cases x with
      | name id => exact .next (advance_cons _ _) (advance_cons _ _) (.pure ha (Nat.le_refl _))
      | _ => exact .fails ⟨_, rfl⟩

end Follows

namespace FollowsAt

variable {x : Lexeme}

/-- A reader that goes along with another one wherever it starts. -/
theorem of_follows (h : Follows isOpen c p q) (hx : x.isEnd = false) : FollowsAt x isOpen c p q :=
  fun _ _ he _ _ _ _ _ _ _ ha => h he _ _ (.cons hx ha)

/-- Taking the token. -/
theorem advance {k k' : Unit → Parse β} (hk : Goes isOpen (k ()) (k' ())) :
    FollowsAt x isOpen z (Parse.advance >>= k) (Parse.advance >>= k') :=
  fun _ _ he _ _ _ _ _ _ _ ha => .next (advance_cons _ _) (advance_cons _ _)
    ((hk he _ _ ha).mono fun b _ hn => Nat.add_le_add hn (Bool.toNat_le (z b)))

/-- The line of the token. -/
theorem line {k k' : Nat → Parse β} (hk : ∀ l, FollowsAt x isOpen z (k l) (k' l)) :
    FollowsAt x isOpen z (Parse.line >>= k) (Parse.line >>= k') :=
  fun _ _ he _ _ _ _ _ _ _ ha => .next (line_cons _ _) (line_cons _ _) (hk _ he _ _ _ _ _ _ _ ha)

/-- The token behind the next one. At the end it is one with which no expression goes on, or the closing
bracket. -/
theorem peekSecond {k k' : Lexeme → Parse β}
    (hcons : ∀ y, y.isEnd = false → FollowsAtTwo x y isOpen z (k y) (k' y))
    (hk : ∀ y, y.isEnd → k y = k .newline ∧ k' y = k' (.op ")"))
    (hends : FollowsAt x isOpen z (k .newline) (k' (.op ")"))) :
    FollowsAt x isOpen z (Parse.peekSecond >>= k) (Parse.peekSecond >>= k') := by
  intro left right he l e e' d d' s r ha
  cases ha with
  | ends =>
      obtain ⟨t, ts, u, us, rfl, rfl, ht, hu, -⟩ := he.exists_eq
      refine .next (peekSecond_cons _ _ _) (peekSecond_cons _ _ _) ?_
      have hu : k' u.lexeme = k' (.op ")") := by
        obtain hu | hu := hu
        · exact (hk _ hu).2
        · rw [hu]
      rw [(hk _ ht).1, hu]
      exact hends he _ _ _ _ _ _ _ .ends
  | cons hy ha =>
      exact .next (peekSecond_cons _ _ _) (peekSecond_cons _ _ _)
        (hcons _ hy he _ _ _ _ _ _ _ _ _ _ _ _ ha)

/-- The token behind the next one does not matter. -/
theorem peekSecondAny {k k' : Lexeme → Parse β} (hk : ∀ y y', FollowsAt x isOpen z (k y) (k' y')) :
    FollowsAt x isOpen z (Parse.peekSecond >>= k) (Parse.peekSecond >>= k') := by
  intro left right he l e e' d d' s r ha
  have hlook (t : Token) (s : List Token) : ∃ y, Parse.peekSecond (t :: s) = .ok (y, t :: s) := by
    cases s <;> exact ⟨_, rfl⟩
  obtain ⟨y, hy⟩ := hlook ⟨x, l, e, d⟩ s
  obtain ⟨y', hy'⟩ := hlook ⟨x, l, e', d'⟩ r
  exact .next hy hy' (hk y y' he _ _ _ _ _ _ _ ha)

end FollowsAt

namespace FollowsAtTwo

variable {x y : Lexeme}

/-- A reader that goes along with another one where the first token is next. -/
theorem of_followsAt (h : FollowsAt x isOpen c p q) (hy : y.isEnd = false) :
    FollowsAtTwo x y isOpen c p q :=
  fun _ _ he _ _ _ _ _ _ _ _ _ _ _ _ ha => h he _ _ _ _ _ _ _ (.cons hy ha)

/-- Taking the first token. -/
theorem advance {k k' : Unit → Parse β} (hk : FollowsAt y isOpen (fun _ => false) (k ()) (k' ())) :
    FollowsAtTwo x y isOpen z (Parse.advance >>= k) (Parse.advance >>= k') :=
  fun _ _ he _ _ _ _ _ _ _ _ _ _ _ _ ha => .next (advance_cons _ _) (advance_cons _ _)
    ((hk he _ _ _ _ _ _ _ ha).mono fun b n hn => by
      have hn : n ≤ _ + 1 := hn
      have := Bool.toNat_le (z b)
      omega)

end FollowsAtTwo

/-- A reader that starts an expression: it goes along with another one, and fails where no expression goes
on. -/
structure Starts {α : Type} (isOpen : Bool) (p q : Parse α) : Prop where
  bars : Bars p
  goes : Goes isOpen p q

namespace Starts

/-- The reader is followed by another one. -/
theorem bind (hp : Starts false p q) (hf : ∀ a, Goes isOpen (f a) (g a)) :
    Starts isOpen (p >>= f) (q >>= g) :=
  ⟨hp.bars.bind, hp.goes.bind hf⟩

/-- The reader is followed by another one, which stalls before an expression that the first one may
leave. -/
theorem bindOpen (hp : Starts true p q) (hf : ∀ a, Goes isOpen (f a) (g a))
    (hstalls : ∀ a, Stalls isOpen (f a)) : Starts isOpen (p >>= f) (q >>= g) :=
  ⟨hp.bars.bind, hp.goes.bindOpen hf hstalls⟩

/-- The line of the first token comes before the reader. -/
theorem line {k k' : Nat → Parse β} (hk : ∀ l, Starts isOpen (k l) (k' l)) :
    Starts isOpen (Parse.line >>= k) (Parse.line >>= k') :=
  ⟨.line fun l => (hk l).bars, .line (fun l => (hk l).goes) fun l => (hk l).bars⟩

/-- A mark comes before the reader, or does not. -/
theorem takeOp (hm : m ≠ ")") (htrue : Goes isOpen (h true) (h' true))
    (hfalse : Starts isOpen (h false) (h' false)) :
    Starts isOpen (Parse.takeOp m >>= h) (Parse.takeOp m >>= h') :=
  ⟨.takeOp hfalse.bars, .takeOp htrue hfalse.goes (.inl hm)⟩

/-- A keyword comes before the reader, or does not. -/
theorem takeWord (htrue : Goes isOpen (h true) (h' true))
    (hfalse : Starts isOpen (h false) (h' false)) :
    Starts isOpen (Parse.takeWord w >>= h) (Parse.takeWord w >>= h') :=
  ⟨.takeWord hfalse.bars, .takeWord htrue hfalse.goes⟩

/-- A keyword is looked for before the reader. -/
theorem atWord (htrue : FollowsAt (.keyword w) isOpen (fun _ => false) (h true) (h' true))
    (hfalse : Starts isOpen (h false) (h' false)) :
    Starts isOpen (Parse.atWord w >>= h) (Parse.atWord w >>= h') :=
  ⟨.atWord hfalse.bars, .atWord htrue hfalse.goes⟩

/-- A mark that has to be next comes before the rest. -/
theorem expectOp {k k' : Unit → Parse β} (hk : Goes isOpen (k ()) (k' ())) :
    Starts isOpen (Parse.expectOp m >>= k) (Parse.expectOp m >>= k') :=
  ⟨Bars.expectOp.bind, Follows.bindTaking .expectOp fun _ => hk⟩

/-- A keyword that has to be next comes before the rest. -/
theorem expectWord {k k' : Unit → Parse β} (hk : Goes isOpen (k ()) (k' ())) :
    Starts isOpen (Parse.expectWord w >>= k) (Parse.expectWord w >>= k') :=
  ⟨Bars.expectWord.bind, Follows.bindTaking .expectWord fun _ => hk⟩

end Starts

/-! ## Before a stray expression -/

/-- The marks with which an expression may start where no expression is expected. -/
theorem Lexeme.isOp_of_stray {x : Lexeme} (h : x.startsStrayExpression)
    (hm : m ∉ ["\x7b", "~", "..."]) : x.isOp m = false := by
  cases x with
  | op m' =>
      have hm' : m' ∈ ["\x7b", "~", "..."] := List.contains_iff_mem.1 h
      exact beq_false_of_ne fun heq => hm (heq ▸ hm')
  | _ => rfl

/-- The keywords with which an expression may start where no expression is expected. -/
theorem Lexeme.isWord_of_stray {x : Lexeme} (h : x.startsStrayExpression)
    (hw : w ∉ ["None", "True", "False", "not", "lambda", "await"]) : x.isWord w = false := by
  cases x with
  | keyword w' =>
      have hw' : w' ∈ ["None", "True", "False", "not", "lambda", "await"] := List.contains_iff_mem.1 h
      exact beq_false_of_ne fun heq => hw (heq ▸ hw')
  | _ => rfl

namespace Stalls

/-- A result that is given at once. -/
theorem pure (a : α) : Stalls true (Pure.pure a : Parse α) := by
  intro s hs b s' h
  obtain ⟨rfl, rfl⟩ : a = b ∧ s = s' := by
    simpa [pure_apply] using h
  exact ⟨rfl, hs⟩

/-- A reader that fails. -/
theorem fails (h : ∀ s, Stray s → Fails p s) : Stalls isOpen p := by
  intro s hs a s' hp
  obtain ⟨e, h⟩ := h s hs
  rw [h] at hp
  cases hp

/-- A reader that leaves the expression is followed by the next one. -/
theorem bind (hp : Stalls true p) (hf : ∀ a, Stalls isOpen (f a)) : Stalls isOpen (p >>= f) := by
  intro s hs b s' h
  rw [bind_apply] at h
  cases hx : p s with
  | error e => rw [hx] at h; cases h
  | ok x =>
      rw [hx] at h
      exact hf x.1 x.2 (hp s hs _ _ hx).2 b s' h

/-- A reader that fails is followed by nothing. -/
theorem ends (hp : Stalls false p) : Stalls isOpen (p >>= f) := by
  intro s hs b s' h
  rw [bind_apply] at h
  cases hx : p s with
  | error e => rw [hx] at h; cases h
  | ok x => exact Bool.noConfusion (hp s hs _ _ hx).1

/-- A reader that takes nothing from stray expressions and gives a fixed result is followed by the next
one. -/
theorem next {a : α} (hp : ∀ s, Stray s → p s = .ok (a, s)) (hf : Stalls isOpen (f a)) :
    Stalls isOpen (p >>= f) := by
  intro s hs b s' h
  rw [bind_ok (hp s hs)] at h
  exact hf s hs b s' h

/-- The line of the next token. -/
theorem line {k : Nat → Parse β} (hk : ∀ l, Stalls isOpen (k l)) :
    Stalls isOpen (Parse.line >>= k) := by
  rintro s ⟨t, ts, rfl, ht⟩ b s' h
  rw [bind_ok (line_cons t ts)] at h
  exact hk _ _ ⟨t, ts, rfl, ht⟩ b s' h

/-- A mark is not next. -/
theorem atOp (hm : m ∉ ["\x7b", "~", "..."]) (hf : Stalls isOpen (h false)) :
    Stalls isOpen (Parse.atOp m >>= h) :=
  next (fun _ ⟨t, ts, hs, ht⟩ => by rw [hs, atOp_cons, Lexeme.isOp_of_stray ht hm]) hf

/-- A keyword is not next. -/
theorem atWord (hw : w ∉ ["None", "True", "False", "not", "lambda", "await"])
    (hf : Stalls isOpen (h false)) : Stalls isOpen (Parse.atWord w >>= h) :=
  next (fun _ ⟨t, ts, hs, ht⟩ => by rw [hs, atWord_cons, Lexeme.isWord_of_stray ht hw]) hf

/-- A mark is not taken. -/
theorem takeOp (hm : m ∉ ["\x7b", "~", "..."]) (hf : Stalls isOpen (h false)) :
    Stalls isOpen (Parse.takeOp m >>= h) :=
  next (fun _ ⟨t, ts, hs, ht⟩ => by rw [hs, takeOp_cons, Lexeme.isOp_of_stray ht hm]; rfl) hf

/-- A keyword is not taken. -/
theorem takeWord (hw : w ∉ ["None", "True", "False", "not", "lambda", "await"])
    (hf : Stalls isOpen (h false)) : Stalls isOpen (Parse.takeWord w >>= h) :=
  next (fun _ ⟨t, ts, hs, ht⟩ => by rw [hs, takeWord_cons, Lexeme.isWord_of_stray ht hw]; rfl) hf

/-- A mark that has to be next is missing. -/
theorem expectOp (hm : m ∉ ["\x7b", "~", "..."]) : Stalls isOpen (Parse.expectOp m) :=
  takeOp hm (fails fun _ _ => ⟨_, rfl⟩)

/-- The next token. -/
theorem peek {k : Lexeme → Parse β} (hk : ∀ x, x.startsStrayExpression → Stalls isOpen (k x)) :
    Stalls isOpen (Parse.peek >>= k) := by
  rintro s ⟨t, ts, rfl, ht⟩ b s' h
  rw [bind_ok (peek_cons t ts)] at h
  exact hk _ ht _ ⟨t, ts, rfl, ht⟩ b s' h

/-- The token behind the next one. -/
theorem peekSecond {k : Lexeme → Parse β} (hk : ∀ x, Stalls isOpen (k x)) :
    Stalls isOpen (Parse.peekSecond >>= k) := by
  rintro s ⟨t, ts, rfl, ht⟩ b s' h
  cases ts with
  | nil => exact hk _ _ ⟨t, [], rfl, ht⟩ b s' h
  | cons u ts => exact hk _ _ ⟨t, u :: ts, rfl, ht⟩ b s' h

/-- A keyword that has to be next is missing. -/
theorem expectWord (hw : w ∉ ["None", "True", "False", "not", "lambda", "await"]) :
    Stalls isOpen (Parse.expectWord w) :=
  takeWord hw (fails fun _ _ => ⟨_, rfl⟩)

/-- A step that gives nothing more ends the loop. -/
theorem iterate {step : α → Parse (Option α)} (hstep : ∀ a, Stalls true (step a)) :
    ∀ (fuel : List Token) (a : α), Stalls true (Parse.iterate step fuel a)
  | [], a => pure a
  | _ :: fuel, a => (hstep a).bind fun b => by
      cases b with
      | none => exact pure a
      | some b => exact iterate hstep fuel b

/-- A loop leaves the expression where its steps do. -/
theorem loop {step : α → Parse (Option α)} (hstep : ∀ a, Stalls true (step a)) (a : α) :
    Stalls true (Parse.loop step a) :=
  fun s hs => iterate hstep s a s hs

end Stalls

/-! ## Loops -/

/-- Steps that go along with others make loops that do, as long as either has as many tokens to bound its
steps as stand before its end. -/
theorem Along.iterate {step step' : α → Parse (Option α)} (he : EndPair left right)
    (hstep : ∀ a, Steps isOpen (step a) (step' a)) (hstalls : isOpen = true → ∀ a, Stalls true (step a))
    (fuel fuel' : List Token) (a : α) (s r : List Token) (ha : Aligned left right s r)
    (hfuel : s.length < fuel.length + left.length) (hfuel' : s.length < fuel'.length + left.length) :
    Along left right isOpen (fun _ n => n ≤ s.length) (Parse.iterate step fuel a)
      (Parse.iterate step' fuel' a) s r := by
  have hle := ha.length_le
  induction fuel generalizing fuel' a s r with
  | nil => simp only [List.length_nil] at hfuel; omega
  | cons t fuel ih =>
      cases fuel' with
      | nil => simp only [List.length_nil] at hfuel'; omega
      | cons t' fuel' =>
          simp only [List.length_cons] at hfuel hfuel'
          refine (hstep a he s r ha).bindWith (fun b s' r' ha' hless => ?_) fun hopen b => ?_
          · cases b with
            | none => exact .pure ha' (by simpa using hless)
            | some b =>
                have hless : s'.length + 1 ≤ s.length := hless
                exact (ih fuel' b s' r' ha' (by omega) (by omega) ha'.length_le).mono
                  fun _ n hn => by omega
          · subst hopen
            cases b with
            | none => exact .pure a
            | some b => exact .iterate (hstalls rfl) fuel b

/-- Loops go along with others where their steps do. -/
theorem Follows.loopWith {step step' : α → Parse (Option α)} (hstep : ∀ a, Steps isOpen (step a) (step' a))
    (hstalls : isOpen = true → ∀ a, Stalls true (step a)) (a : α) :
    Goes isOpen (Parse.loop step a) (Parse.loop step' a) := by
  intro left right he s r ha
  obtain ⟨t, ts, u, us, hl, hr, -⟩ := he.exists_eq
  have hadd := ha.length_add
  have hleft : 0 < left.length := by simp [hl]
  have hright : 0 < right.length := by simp [hr]
  exact Along.iterate he hstep hstalls s r a s r ha (by omega) (by omega)

/-- Loops whose steps leave no expression. -/
theorem Follows.loop {step step' : α → Parse (Option α)} (hstep : ∀ a, Steps false (step a) (step' a))
    (a : α) : Goes false (Parse.loop step a) (Parse.loop step' a) :=
  loopWith hstep (fun h => Bool.noConfusion h) a

/-- Loops whose steps may leave an expression. -/
theorem Follows.loopOpen {step step' : α → Parse (Option α)} (hstep : ∀ a, Steps true (step a) (step' a))
    (hstalls : ∀ a, Stalls true (step a)) (a : α) :
    Goes true (Parse.loop step a) (Parse.loop step' a) :=
  loopWith hstep (fun _ => hstalls) a

end

end

end Stencil.Script
