import Stencil.Proofs.Located.Tokens
import Stencil.Proofs.Inset.Readers

/-!
# Readers of tokens that stand on lines of a kind

`ReadsAt` says what a reader makes of tokens that stand on lines of a kind where a certain token is next: the
tokens that it leaves stand on such lines too, and its result is as a predicate says. A reader that begins a
node succeeds only where a node may start, so the line on which it was called is one of the kind
(`ReadsAt.line`, `ReadsAt.bind`).
-/

namespace Stencil.Script

open Parse

/-- What the next token is; behind the last one it is the end. -/
def nextLexeme : List Token → Lexeme
  | t :: _ => t.lexeme
  | [] => .finish

/-- A reader that succeeds before tokens that stand on lines of a kind, the next of which is a certain one,
leaves such tokens and gives what `Q` says. If it begins a node, then one may start with the next token. -/
def ReadsAt {α : Type} (P : Nat → Prop) (begins : Bool) (x : Lexeme) (p : Parse α) (Q : α → Prop) : Prop :=
  ∀ ts, Tokens.Within P ts → nextLexeme ts = x → ∀ a rest, p ts = .ok (a, rest) →
    (begins = true → x.isIdle = false) ∧ Tokens.Within P rest ∧ Q a

/-- A reader leaves tokens on lines of a kind and gives what `Q` says, whatever is next. -/
abbrev ReadsWithin {α : Type} (P : Nat → Prop) (p : Parse α) (Q : α → Prop) : Prop :=
  ∀ x, ReadsAt P false x p Q

/-- A reader begins a node, leaves tokens on lines of a kind and gives what `Q` says. -/
abbrev Begins {α : Type} (P : Nat → Prop) (p : Parse α) (Q : α → Prop) : Prop :=
  ∀ x, ReadsAt P true x p Q

/-- The steps of a loop keep an invariant. -/
abbrev StepsWithin {α : Type} (P : Nat → Prop) (I : α → Prop) (p : Parse (Option α)) : Prop :=
  ReadsWithin P p fun b => ∀ a ∈ b, I a

section

variable {P : Nat → Prop} {α β : Type} {begins : Bool} {x : Lexeme} {m w : String} {p : Parse α}
  {f : α → Parse β} {h : Bool → Parse β} {k : Unit → Parse β} {Q : α → Prop} {R : β → Prop} {t : Token}
  {ts : List Token}

namespace Tokens.Within

/-- The next token stands on a line of the kind if a node may start with it. -/
theorem line (hts : Tokens.Within P (t :: ts)) (ht : t.lexeme.isIdle = false) : P t.line :=
  (hts t List.mem_cons_self).line ht

theorem tail (hts : Tokens.Within P ts) : Tokens.Within P ts.tail :=
  fun t ht => hts t (List.mem_of_mem_tail ht)

end Tokens.Within

/-- A mark other than a closing round bracket may start a node. -/
theorem Lexeme.isIdle_of_isOp (hx : x.isOp m) (hm : (Lexeme.op m).isIdle = false) : x.isIdle = false := by
  rw [isOp_iff.1 hx]
  exact hm

/-- A keyword may start a node. -/
theorem Lexeme.isIdle_of_isWord (hx : x.isWord w) : x.isIdle = false := by
  rw [isWord_iff.1 hx]
  rfl

/-! ## The next token -/

/-- Looking for a mark, at the end of the tokens too. -/
theorem atOp_eq (ts : List Token) (m : String) : Parse.atOp m ts = .ok ((nextLexeme ts).isOp m, ts) := by
  cases ts with
  | nil => rfl
  | cons t ts => exact atOp_cons t ts m

/-- Looking for a keyword, at the end of the tokens too. -/
theorem atWord_eq (ts : List Token) (w : String) :
    Parse.atWord w ts = .ok ((nextLexeme ts).isWord w, ts) := by
  cases ts with
  | nil => rfl
  | cons t ts => exact atWord_cons t ts w

/-- Taking a mark, at the end of the tokens too. -/
theorem takeOp_eq (m : String) (ts : List Token) : Parse.takeOp m ts =
    .ok ((nextLexeme ts).isOp m, if (nextLexeme ts).isOp m then ts.tail else ts) := by
  cases ts with
  | nil => rfl
  | cons t ts => exact takeOp_cons t ts m

/-- Taking a keyword, at the end of the tokens too. -/
theorem takeWord_eq (w : String) (ts : List Token) : Parse.takeWord w ts =
    .ok ((nextLexeme ts).isWord w, if (nextLexeme ts).isWord w then ts.tail else ts) := by
  cases ts with
  | nil => rfl
  | cons t ts => exact takeWord_cons t ts w

namespace ReadsAt

/-! ## Results and failures -/

/-- A result that is given at once. -/
theorem pure {a : α} (ha : Q a) : ReadsAt P false x (Pure.pure a) Q := by
  rintro ts hts - b rest ⟨⟩
  exact ⟨nofun, hts, ha⟩

/-- A result of which nothing is said. -/
theorem any {a : α} : ReadsAt P false x (Pure.pure a) fun _ => True :=
  .pure trivial

/-- The last step of a loop. -/
theorem done {I : α → Prop} : ReadsAt P false x (Pure.pure none) fun b => ∀ a ∈ b, I a :=
  .pure nofun

/-- A step of a loop behind which there may be more. -/
theorem more {I : α → Prop} {a : α} (ha : I a) :
    ReadsAt P false x (Pure.pure (some a)) fun b => ∀ a ∈ b, I a :=
  .pure fun _ hb => Option.mem_some.1 hb ▸ ha

/-- A reader that fails. -/
theorem fails (hp : ∀ ts, Fails p ts) : ReadsAt P begins x p Q := by
  intro ts _ _ a rest hok
  obtain ⟨e, he⟩ := hp ts
  rw [he] at hok
  cases hok

/-- A node may start with the next token. -/
theorem node (hx : x.isIdle = false) (hp : ReadsAt P false x p Q) : ReadsAt P begins x p Q :=
  fun ts hts hnext a rest hok => ⟨fun _ => hx, (hp ts hts hnext a rest hok).2⟩

/-- A reader that begins a node is one. -/
theorem reads (hp : ReadsAt P begins x p Q) : ReadsAt P false x p Q :=
  fun ts hts hnext a rest hok => ⟨nofun, (hp ts hts hnext a rest hok).2⟩

/-! ## Readers in a row -/

/-- A reader is followed by the next one. -/
theorem next (hp : ReadsAt P false x p Q) (hf : ∀ a, Q a → ReadsWithin P (f a) R) :
    ReadsAt P false x (p >>= f) R := by
  intro ts hts hnext b rest hok
  rw [bind_apply] at hok
  cases hx : p ts with
  | error e => rw [hx] at hok; cases hok
  | ok r =>
      rw [hx] at hok
      obtain ⟨-, hrest, ha⟩ := hp ts hts hnext _ _ hx
      exact ⟨nofun, (hf r.1 ha _ r.2 hrest rfl b rest hok).2⟩

/-- A reader that begins a node is followed by the next one. -/
theorem bind (hp : ReadsAt P true x p Q) (hf : x.isIdle = false → ∀ a, Q a → ReadsWithin P (f a) R) :
    ReadsAt P begins x (p >>= f) R := by
  intro ts hts hnext b rest hok
  rw [bind_apply] at hok
  cases heq : p ts with
  | error e => rw [heq] at hok; cases hok
  | ok r =>
      rw [heq] at hok
      obtain ⟨hidle, hrest, ha⟩ := hp ts hts hnext _ _ heq
      have hx := hidle rfl
      exact ⟨fun _ => hx, (hf hx r.1 ha _ r.2 hrest rfl b rest hok).2⟩

/-- A reader that takes nothing is followed by the next one. -/
theorem after (hp : ∀ ts, nextLexeme ts = x → ∃ a, p ts = .ok (a, ts) ∧ Q a)
    (hf : ∀ a, Q a → ReadsAt P begins x (f a) R) : ReadsAt P begins x (p >>= f) R := by
  intro ts hts hnext b rest hok
  obtain ⟨a, ha, hQ⟩ := hp ts hnext
  rw [bind_ok ha] at hok
  exact hf a hQ ts hts hnext b rest hok

/-- What a reader gives does not matter. -/
theorem discard (hp : ReadsAt P begins x p Q) : ReadsAt P begins x (discard p) fun _ => True := by
  intro ts hts hnext b rest hok
  change ((p ts).bind fun r => _) = _ at hok
  cases heq : p ts with
  | error e => rw [heq] at hok; cases hok
  | ok r =>
      rw [heq] at hok
      cases hok
      obtain ⟨hidle, hrest, -⟩ := hp ts hts hnext _ _ heq
      exact ⟨hidle, hrest, trivial⟩

/-! ## Looking at tokens -/

/-- The line of the next token is one of the kind if a node may start with it. -/
theorem line {k : Nat → Parse β} (hk : ∀ l, (x.isIdle = false → P l) → ReadsAt P begins x (k l) R) :
    ReadsAt P begins x (Parse.line >>= k) R := by
  intro ts hts hnext b rest hok
  cases ts with
  | nil =>
      refine hk 0 (fun hx => ?_) [] hts hnext b rest hok
      rw [← hnext] at hx
      cases hx
  | cons t ts =>
      rw [bind_ok (line_cons t ts)] at hok
      exact hk t.line (fun hx => hts.line (by rwa [← hnext] at hx)) _ hts hnext b rest hok

/-- The line of a string literal is one of the kind, and what the literal holds stands on such lines. -/
theorem stringLine {s : StringLit} {k : Nat → Parse β}
    (hk : ∀ l, P l → Located P l s.body → ReadsAt P begins (.string s) (k l) R) :
    ReadsAt P begins (.string s) (Parse.line >>= k) R := by
  intro ts hts hnext b rest hok
  cases ts with
  | nil => cases hnext
  | cons t ts =>
      have ht := hts t List.mem_cons_self
      rw [bind_ok (line_cons t ts)] at hok
      exact hk t.line (ht.line (by rw [show t.lexeme = _ from hnext]; rfl)) (ht.body s hnext) _ hts hnext b
        rest hok

/-- What the next token is. -/
theorem peek {k : Lexeme → Parse β} (hk : ReadsAt P begins x (k x) R) :
    ReadsAt P begins x (Parse.peek >>= k) R := by
  intro ts hts hnext b rest hok
  subst hnext
  cases ts with
  | nil => exact hk [] hts rfl b rest hok
  | cons t ts => exact hk (t :: ts) hts rfl b rest hok

/-- What the token behind the next one is. -/
theorem peekSecond {k : Lexeme → Parse β} (hk : ∀ y, ReadsAt P begins x (k y) R) :
    ReadsAt P begins x (Parse.peekSecond >>= k) R := by
  intro ts hts hnext b rest hok
  match ts, hok with
  | [], hok => exact hk _ _ hts hnext b rest hok
  | [_], hok => exact hk _ _ hts hnext b rest hok
  | _ :: u :: _, hok => exact hk u.lexeme _ hts hnext b rest hok

/-- The tokens that are left. -/
theorem get {k : List Token → Parse β} (hk : ∀ ts, ReadsAt P begins x (k ts) R) :
    ReadsAt P begins x (MonadState.get >>= k) R :=
  fun ts hts hnext b rest hok => hk ts ts hts hnext b rest hok

/-- Looking for a mark. -/
theorem atOp (htrue : x.isOp m → ReadsAt P begins x (h true) R)
    (hfalse : ReadsAt P begins x (h false) R) : ReadsAt P begins x (Parse.atOp m >>= h) R := by
  refine .after (Q := (· = x.isOp m)) (fun ts hnext => ⟨_, atOp_eq ts m, by rw [hnext]⟩) fun b hb => ?_
  cases b with
  | true => exact htrue hb.symm
  | false => exact hfalse

/-- Looking for a keyword. -/
theorem atWord (htrue : x.isWord w → ReadsAt P begins x (h true) R)
    (hfalse : ReadsAt P begins x (h false) R) : ReadsAt P begins x (Parse.atWord w >>= h) R := by
  refine .after (Q := (· = x.isWord w)) (fun ts hnext => ⟨_, atWord_eq ts w, by rw [hnext]⟩) fun b hb => ?_
  cases b with
  | true => exact htrue hb.symm
  | false => exact hfalse

/-- Whether a mark is next makes no difference to what the rest gives. -/
theorem atOrNot (hh : ∀ b, ReadsAt P begins x (h b) R) : ReadsAt P begins x (Parse.atOp m >>= h) R :=
  .atOp (fun _ => hh true) (hh false)

/-! ## Taking tokens -/

/-- Taking the next token. -/
theorem advance (hk : ReadsWithin P (k ()) R) : ReadsAt P false x (Parse.advance >>= k) R :=
  fun ts hts _ b rest hok => ⟨nofun, (hk _ ts.tail hts.tail rfl b rest hok).2⟩

/-- The next token is taken if it is of a kind. -/
theorem takeIf (test : Lexeme → Bool) {p : Parse Bool}
    (hp : ∀ ts, p ts = .ok (test (nextLexeme ts), if test (nextLexeme ts) then ts.tail else ts))
    (htrue : test x → ReadsWithin P (h true) R) (hfalse : ReadsAt P begins x (h false) R)
    (hx : begins = true → test x → x.isIdle = false) : ReadsAt P begins x (p >>= h) R := by
  intro ts hts hnext b rest hok
  rw [bind_ok (hp ts), hnext] at hok
  cases htest : test x with
  | true =>
      rw [htest] at hok
      exact ⟨fun hbegins => hx hbegins htest, (htrue htest _ ts.tail hts.tail rfl b rest hok).2⟩
  | false =>
      rw [htest] at hok
      exact hfalse ts hts hnext b rest hok

/-- A mark other than a closing round bracket is taken or not. -/
theorem takeOp (hm : (Lexeme.op m).isIdle = false) (htrue : x.isIdle = false → ReadsWithin P (h true) R)
    (hfalse : ReadsAt P begins x (h false) R) : ReadsAt P begins x (Parse.takeOp m >>= h) R :=
  .takeIf (·.isOp m) (takeOp_eq m) (fun hx => htrue (Lexeme.isIdle_of_isOp hx hm)) hfalse
    fun _ hx => Lexeme.isIdle_of_isOp hx hm

/-- Whether a mark other than a closing round bracket is taken makes no difference to what the rest gives. -/
theorem takeOrNot (hm : (Lexeme.op m).isIdle = false)
    (hh : ∀ b y, (y.isIdle = false → x.isIdle = false) → ReadsAt P begins y (h b) R) :
    ReadsAt P begins x (Parse.takeOp m >>= h) R :=
  .takeOp hm (fun hx y => (hh true y fun _ => hx).reads) (hh false x id)

/-- A closing round bracket is taken or not. -/
theorem takeClosing (htrue : ReadsWithin P (h true) R) (hfalse : ReadsAt P false x (h false) R) :
    ReadsAt P false x (Parse.takeOp ")" >>= h) R :=
  .takeIf (·.isOp ")") (takeOp_eq ")") (fun _ => htrue) hfalse nofun

/-- A keyword is taken or not. -/
theorem takeWord (htrue : x.isIdle = false → ReadsWithin P (h true) R)
    (hfalse : ReadsAt P begins x (h false) R) : ReadsAt P begins x (Parse.takeWord w >>= h) R :=
  .takeIf (·.isWord w) (takeWord_eq w) (fun hx => htrue (Lexeme.isIdle_of_isWord hx)) hfalse
    fun _ hx => Lexeme.isIdle_of_isWord hx

/-- Whether a keyword is taken makes no difference to what the rest gives. -/
theorem takeWordOrNot (hh : ∀ b y, (y.isIdle = false → x.isIdle = false) → ReadsAt P begins y (h b) R) :
    ReadsAt P begins x (Parse.takeWord w >>= h) R :=
  .takeWord (fun hx y => (hh true y fun _ => hx).reads) (hh false x id)

theorem expectOp_bind :
    Parse.expectOp m >>= k = Parse.takeOp m >>= fun b => (if b then Pure.pure () else Parse.unexpected) >>= k :=
  bind_assoc ..

theorem expectWord_bind :
    Parse.expectWord w >>= k =
      Parse.takeWord w >>= fun b => (if b then Pure.pure () else Parse.unexpected) >>= k :=
  bind_assoc ..

/-- A mark other than a closing round bracket has to be next. -/
theorem expectOp (hm : (Lexeme.op m).isIdle = false) (hk : x.isIdle = false → ReadsWithin P (k ()) R) :
    ReadsAt P begins x (Parse.expectOp m >>= k) R := by
  rw [expectOp_bind]
  exact .takeOp hm hk (.fails fun _ => ⟨_, rfl⟩)

/-- A closing round bracket has to be next. -/
theorem expectClosing (hk : ReadsWithin P (k ()) R) : ReadsAt P false x (Parse.expectOp ")" >>= k) R := by
  rw [expectOp_bind]
  exact .takeClosing hk (.fails fun _ => ⟨_, rfl⟩)

/-- A keyword has to be next. -/
theorem expectWord (hk : x.isIdle = false → ReadsWithin P (k ()) R) :
    ReadsAt P begins x (Parse.expectWord w >>= k) R := by
  rw [expectWord_bind]
  exact .takeWord hk (.fails fun _ => ⟨_, rfl⟩)

/-- A name has to be next. -/
theorem name : ReadsAt P begins x Parse.name fun _ => True := by
  refine .peek ?_
  cases x with
  | name id => exact .node rfl (.advance fun _ => .pure trivial)
  | _ => exact .fails fun _ => ⟨_, rfl⟩

/-! ## Steps and alternatives -/

/-- A loop whose steps keep an invariant. -/
theorem loop {step : α → Parse (Option α)} (I : α → Prop) {a : α} (ha : I a)
    (hstep : ∀ a, I a → StepsWithin P I (step a)) : ReadsAt P false x (Parse.loop step a) I := by
  refine .get fun fuel => ?_
  -- the tokens that are left when the loop starts bound its steps
  induction fuel generalizing a x with
  | nil => exact .pure ha
  | cons t fuel ih =>
      refine .next (hstep a ha x) fun b hb y => ?_
      cases b with
      | none => exact .pure ha
      | some b => exact ih (hb b rfl)

/-- The first reader that succeeds. -/
theorem either {q : Parse α} (hp : ReadsAt P begins x p Q) (hq : ReadsAt P begins x q Q) :
    ReadsAt P begins x (Parse.either p q) Q := by
  intro ts hts hnext a rest hok
  unfold Parse.either at hok
  split at hok
  · next heq =>
      cases hok
      exact hp ts hts hnext _ _ heq
  · split at hok
    · next heq =>
        cases hok
        exact hq ts hts hnext _ _ heq
    · cases hok

/-- Readers for the items of a list. -/
theorem mapM {γ : Type} {read : γ → Parse α} {items : List γ}
    (hread : ∀ c ∈ items, ReadsWithin P (read c) Q) :
    ReadsAt P false x (items.mapM read) fun as => ∀ a ∈ as, Q a := by
  induction items generalizing x with
  | nil =>
      rw [List.mapM_nil]
      exact .pure fun _ ha => absurd ha List.not_mem_nil
  | cons c items ih =>
      rw [List.mapM_cons]
      refine .next (hread c List.mem_cons_self x) fun a ha y => ?_
      refine .next (ih fun c hc => hread c (List.mem_cons_of_mem _ hc)) fun as has _ => .pure ?_
      simpa [ha] using has

end ReadsAt

end

end Stencil.Script
