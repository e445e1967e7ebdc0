import Stencil.Bindings.Json
import Stencil.Bindings.Yaml.Token
import Stencil.Decimal.Notation
import Stencil.Text.Letter

/-!
# Points in time

A point in time is written as a date, or as a date and a time of day with a fraction of a second and the
distance of the time zone. It is kept as data of a kind of its own, known by how it is shown.
-/

namespace Stencil.Yaml

/-- A time of day: hour, minute, second, millionth of a second, and the distance of the time zone in
minutes, if one is given. -/
structure Clock where
  hour : Nat
  minute : Nat
  second : Nat
  fraction : Nat
  zone : Option Int
  deriving Repr, DecidableEq

/-- A date, perhaps with a time of day. -/
structure Time where
  year : Nat
  month : Nat
  day : Nat
  clock : Option Clock
  deriving Repr, DecidableEq

namespace Time

/-- A number with at least one and at most two digits. -/
def shortNumber? : Text → Option (Nat × Text)
  | a :: b :: r =>
    if !Text.isAsciiDigit a then none
    else if Text.isAsciiDigit b then some (Decimal.ofDigits [a, b], r)
    else some (Decimal.ofDigits [a], b :: r)
  | [a] => if Text.isAsciiDigit a then some (Decimal.ofDigits [a], []) else none
  | [] => none

/-- A number with two digits. -/
def longNumber? : Text → Option (Nat × Text)
  | a :: b :: r =>
    if Text.isAsciiDigit a && Text.isAsciiDigit b then some (Decimal.ofDigits [a, b], r) else none
  | _ => none

/-- The text behind a character. -/
def behind? (c : Char) : Text → Option Text
  | d :: r => if c = d then some r else none
  | [] => none

/-- The millionths of a second that digits behind the point give. -/
def millionths (digits : Text) : Nat :=
  let kept := digits.take 6
  Decimal.ofDigits (kept ++ List.replicate (6 - kept.length) '0')

/-- The distance of a time zone at the end of a text. -/
def zone? (t : Text) : Option (Option Int) := do
  match t.dropWhile fun c => c == ' ' || c == '\t' with
  | [] => if t.isEmpty then some none else none
  | ['Z'] => some (some 0)
  | sign :: r =>
    if sign != '+' && sign != '-' then none
    else
      let (hours, r) ← shortNumber? r
      let minutes ← match r with
        | [] => some 0
        | ':' :: r =>
          match longNumber? r with
          | some (n, []) => some n
          | _ => none
        | _ => none
      let n : Int := 60 * hours + minutes
      some (some (if sign == '-' then -n else n))

/-- The time of day that a text gives. -/
def clock? (t : Text) : Option Clock := do
  let (hour, t) ← shortNumber? t
  let (minute, t) ← longNumber? (← behind? ':' t)
  let (second, t) ← longNumber? (← behind? ':' t)
  let (digits, t) := match t with
    | '.' :: r => r.span Text.isAsciiDigit
    | _ => ([], t)
  return ⟨hour, minute, second, millionths digits, ← zone? t⟩

/-- The time of day behind a date: nothing, or a time of day behind a letter or a gap. -/
def rest? : Text → Option (Option Clock)
  | [] => some none
  | c :: r =>
    if c == 'T' || c == 't' then (clock? r).map some
    else if c == ' ' || c == '\t' then
      (clock? (r.dropWhile fun c => c == ' ' || c == '\t')).map some
    else none

/-- The point in time that a text gives. -/
def read? (t : Text) : Option Time := do
  let (century, t) ← longNumber? t
  let (years, t) ← longNumber? t
  let (month, t) ← shortNumber? (← behind? '-' t)
  let (day, t) ← shortNumber? (← behind? '-' t)
  return ⟨100 * century + years, month, day, ← rest? t⟩

/-- Whether a plain scalar is a point in time. A date alone has two digits for month and day. -/
def isPlain (t : Text) : Bool :=
  match read? t with
  | some ⟨_, _, _, none⟩ => t.length == 10
  | some _ => true
  | none => false

/-- The number of days of a month. -/
def daysOf (year month : Nat) : Nat :=
  if month = 2 then
    if year % 4 = 0 && (year % 100 ≠ 0 || year % 400 = 0) then 29 else 28
  else if [4, 6, 9, 11].contains month then 30
  else 31

/-- A span of minutes, as it is shown: days and seconds, the latter never negative. -/
def spanShown (minutes : Int) : String :=
  let days := minutes.fdiv 1440
  let seconds := minutes.fmod 1440 * 60
  let parts := (if days = 0 then [] else [s!"days={days}"]) ++
    (if seconds = 0 then [] else [s!"seconds={seconds}"])
  "datetime.timedelta(" ++ (if parts.isEmpty then "0" else String.intercalate ", " parts) ++ ")"

/-- Why a point in time does not exist. -/
def fault? (t : Time) : Option String :=
  let zoneFault := match t.clock.bind Clock.zone with
    | some z =>
      if z.natAbs < 1440 then none
      else some ("offset must be a timedelta strictly between -timedelta(hours=24) and " ++
        s!"timedelta(hours=24), not {spanShown z}.")
    | none => none
  let dateFault :=
    if t.year = 0 then some "year 0 is out of range"
    else if t.month = 0 || 12 < t.month then some "month must be in 1..12"
    else if t.day = 0 || daysOf t.year t.month < t.day then some "day is out of range for month"
    else none
  let clockFault := match t.clock with
    | some c =>
      if 24 ≤ c.hour then some "hour must be in 0..23"
      else if 60 ≤ c.minute then some "minute must be in 0..59"
      else if 60 ≤ c.second then some "second must be in 0..59"
      else none
    | none => none
  zoneFault <|> dateFault <|> clockFault

/-- A number with zeros in front. -/
def padded (width n : Nat) : String :=
  String.ofList (Decimal.padZeros width (Decimal.digits n))

/-- The distance of a time zone, as it is written. -/
def zonePlain (minutes : Int) : String :=
  let n := minutes.natAbs
  (if minutes < 0 then "-" else "+") ++ padded 2 (n / 60) ++ ":" ++ padded 2 (n % 60)

/-- A point in time in plain text. -/
def plain (t : Time) : String :=
  let date := s!"{padded 4 t.year}-{padded 2 t.month}-{padded 2 t.day}"
  match t.clock with
  | none => date
  | some c =>
    let fraction := if c.fraction = 0 then "" else "." ++ padded 6 c.fraction
    let zone := match c.zone with
      | none => ""
      | some z => zonePlain z
    s!"{date} {padded 2 c.hour}:{padded 2 c.minute}:{padded 2 c.second}{fraction}{zone}"

/-- The time zone in a point in time as it is shown. -/
def zoneShown (minutes : Int) : String :=
  if minutes = 0 then "datetime.timezone.utc"
  else s!"datetime.timezone({spanShown minutes})"

/-- The names of the two kinds of points in time. -/
def kind (t : Time) : String :=
  if t.clock.isSome then "datetime" else "date"

/-- A point in time as it is shown inside containers. -/
def shown (t : Time) : String :=
  match t.clock with
  | none => s!"datetime.date({t.year}, {t.month}, {t.day})"
  | some c =>
    let small := if c.fraction = 0 then (if c.second = 0 then "" else s!", {c.second}")
      else s!", {c.second}, {c.fraction}"
    let zone := match c.zone with
      | none => ""
      | some z => ", tzinfo=" ++ zoneShown z
    s!"datetime.datetime({t.year}, {t.month}, {t.day}, {c.hour}, {c.minute}{small}{zone})"

/-- A point in time as data. -/
def toData (t : Time) : Except Fault Data :=
  match t.fault? with
  | some message => .error (.noSuchTime message)
  | none => .ok (.other t.kind t.plain t.shown)

end Time

end Stencil.Yaml
