import Mathlib
import Stencil.Proofs.Reach.Values
import Stencil.Script.Format.Percent

/-!
# Failures within limits

Operations on numbers, numerals and format specifications fail with messages: what such a failure carries
is within any limits, and so is the number that an operation gives.
-/

namespace Stencil.Script

variable {L : Limits} {α β : Type}

/-- A failure, if there is one, carries only what is within limits. -/
def FailsWithin (L : Limits) (x : Except Failure α) : Prop :=
  ∀ f, x = .error f → Value.AllWithin L f.args

namespace FailsWithin

variable {x y : Except Failure α} {f : α → Except Failure β}

@[simp, grind .] theorem ok {a : α} : FailsWithin L (.ok a : Except Failure α) :=
  nofun

@[simp, grind .] theorem pure {a : α} : FailsWithin L (Pure.pure a : Except Failure α) :=
  nofun

theorem error {f : Failure} (h : Value.AllWithin L f.args) :
    FailsWithin L (.error f : Except Failure α) := by
  rintro _ ⟨⟩
  exact h

@[simp, grind .] theorem failWith {kind : ExceptionKind} {message : String} :
    FailsWithin L (Script.failWith kind message : Except Failure α) :=
  error ⟨trivial, trivial⟩

@[simp, grind .] theorem valueError {message : String} :
    FailsWithin L (Script.valueError message : Except Failure α) :=
  failWith

@[simp, grind .] theorem typeError {message : String} :
    FailsWithin L (Script.typeError message : Except Failure α) :=
  failWith

@[simp, grind .] theorem checkRoom {n : Nat} : FailsWithin L (Script.checkRoom n) := by
  rw [Script.checkRoom]
  split
  · exact error trivial
  · exact ok

@[grind ←] theorem bind (h : FailsWithin L x) (hf : ∀ a, FailsWithin L (f a)) :
    FailsWithin L (x >>= f) := by
  cases x with
  | ok a => exact hf a
  | error e => exact error (h e rfl)

@[grind ←] theorem map {g : α → β} (h : FailsWithin L x) : FailsWithin L (x.map g) := by
  cases x with
  | ok a => exact ok
  | error e =>
    rintro _ ⟨⟩
    exact h e rfl

end FailsWithin

/-! ## Numbers -/

section Numbers

@[grind .] theorem Numeral.failsWithin_readInt {base : Nat} {s : String} :
    FailsWithin L (readInt base s) := by
  unfold readInt
  grind

@[grind .] theorem Numeral.failsWithin_readFloat {s : String} : FailsWithin L (readFloat s) := by
  unfold readFloat
  grind

@[grind .] theorem Numeral.failsWithin_decimal {i : Int} : FailsWithin L (decimal i) := by
  unfold decimal
  grind

namespace Number

@[grind .] theorem failsWithin_floatOfInt {i : Int} : FailsWithin L (floatOfInt i) := by
  unfold floatOfInt
  grind

@[grind .] theorem failsWithin_toFloat {n : Number} : FailsWithin L n.toFloat := by
  cases n <;> grind [toFloat]

@[grind .] theorem failsWithin_wholeOf {f : Decimal.Binary → Int} {x : Float} :
    FailsWithin L (wholeOf f x) := by
  unfold wholeOf
  grind

@[simp, grind .] theorem within_toValue {n : Number} : n.toValue.Within L := by
  cases n <;> trivial

end Number

/-- An operation on numbers fails with a message, or it gives a value that is within any limits. -/
def GivesNumber (x : Except Failure Value) : Prop :=
  ∀ L, FailsWithin L x ∧ ∀ v, x = .ok v → v.Within L

namespace GivesNumber

@[grind ←] theorem failsWithin {x : Except Failure Value} (h : GivesNumber x) : FailsWithin L x :=
  (h L).1

theorem within {x : Except Failure Value} {v : Value} (h : GivesNumber x) (hv : x = .ok v) :
    v.Within L :=
  (h L).2 v hv

theorem ok {v : Value} (h : ∀ L, v.Within L) : GivesNumber (.ok v) :=
  fun L => ⟨.ok, by rintro _ ⟨⟩; exact h L⟩

theorem error {f : Failure} (h : ∀ L, Value.AllWithin L f.args) : GivesNumber (.error f) :=
  fun L => ⟨.error (h L), nofun⟩

theorem failWith {kind : ExceptionKind} {message : String} :
    GivesNumber (Script.failWith kind message) :=
  error fun _ => ⟨trivial, trivial⟩

theorem bind {x : Except Failure α} {f : α → Except Failure Value} (h : ∀ L, FailsWithin L x)
    (hf : ∀ a, GivesNumber (f a)) : GivesNumber (x >>= f) := by
  cases x with
  | ok a => exact hf a
  | error e => exact error fun L => h L e rfl

attribute [local grind .] failWith
attribute [local grind ←] ok error bind

theorem quotient {a b : Int} : GivesNumber (Number.quotient a b) := by
  unfold Number.quotient
  grind

theorem floatPower {x y : Float} : GivesNumber (Number.floatPower x y) := by
  unfold Number.floatPower
  grind [Number.complexPower]

theorem shift {up : Bool} {a n : Int} : GivesNumber (Number.shift up a n) := by
  unfold Number.shift Script.valueError
  grind

attribute [local grind .] quotient floatPower shift

theorem floatOp {op : BinaryOp} {x y : Float} : GivesNumber (Number.floatOp op x y) := by
  unfold Number.floatOp
  grind

theorem intOp {op : BinaryOp} {a b : Int} {x : Except Failure Value}
    (h : Number.intOp op a b = some x) : GivesNumber x := by
  unfold Number.intOp at h
  grind

attribute [local grind .] floatOp
attribute [local grind →] intOp

theorem binary? {op : BinaryOp} {a b : Number} {x : Except Failure Value}
    (h : Number.binary? op a b = some x) : GivesNumber x := by
  unfold Number.binary? at h
  grind

attribute [local grind →] binary?

@[grind →] theorem arithmetic? {op : BinaryOp} {a b : Value} {x : Except Failure Value}
    (h : a.arithmetic? op b = some x) : GivesNumber x := by
  unfold Value.arithmetic? at h
  grind

end GivesNumber

end Numbers

/-! ## Formats -/

namespace FormatSpec

@[grind .] theorem failsWithin_readNumber {t : Text} : FailsWithin L (readNumber t) := by
  unfold readNumber
  grind

@[grind .] theorem failsWithin_readGrouping {t : Text} : FailsWithin L (readGrouping t) := by
  unfold readGrouping
  grind

@[grind .] theorem failsWithin_readPrecision {t : Text} : FailsWithin L (readPrecision t) := by
  unfold readPrecision
  grind

@[grind .] theorem failsWithin_unknownCode {code : Char} {kind : String} :
    FailsWithin L (unknownCode code kind : Except Failure α) := by
  unfold unknownCode
  grind

@[grind .] theorem failsWithin_read {kind : String} {defaultCode defaultAlign : Char} {spec : Text} :
    FailsWithin L (read kind defaultCode defaultAlign spec) := by
  unfold read
  iterate 5 split
  refine .bind failsWithin_readNumber fun width => ?_
  refine .bind failsWithin_readGrouping fun grouping => ?_
  refine .bind failsWithin_readPrecision fun precision => ?_
  grind

variable {s : FormatSpec}

@[grind .] theorem failsWithin_writeString {t : Text} : FailsWithin L (s.writeString t) := by
  unfold writeString
  grind

@[grind .] theorem failsWithin_floatParts {x : Float} : FailsWithin L (s.floatParts x) := by
  unfold floatParts
  grind

@[grind .] theorem failsWithin_writeFloat {x : Float} : FailsWithin L (s.writeFloat x) := by
  unfold writeFloat
  grind

@[grind .] theorem failsWithin_writeCharacter {i : Int} : FailsWithin L (s.writeCharacter i) := by
  unfold writeCharacter
  grind

@[grind .] theorem failsWithin_writeInt {kind : String} {i : Int} :
    FailsWithin L (s.writeInt kind i) := by
  unfold writeInt
  grind

end FormatSpec

@[grind .] theorem Value.failsWithin_formatted {kind : String} {v : Value} {spec : Text} :
    FailsWithin L (v.formatted kind spec) := by
  unfold Value.formatted
  grind

namespace Fields

@[grind .] theorem failsWithin_readName {inside : Bool} {t : Text} :
    FailsWithin L (readName inside t) := by
  induction t generalizing inside with
  | nil => exact .valueError
  | cons c r ih =>
    unfold readName
    grind

@[grind .] theorem failsWithin_readFormat {depth : Nat} {t : Text} :
    FailsWithin L (readFormat depth t) := by
  induction t generalizing depth with
  | nil => exact .valueError
  | cons c r ih =>
    unfold readFormat
    grind

@[grind .] theorem failsWithin_readField {t : Text} : FailsWithin L (readField t) := by
  unfold readField
  grind

end Fields

end Stencil.Script
