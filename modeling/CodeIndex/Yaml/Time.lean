import CodeIndex.Text.Basic

/-!
# Dates and times in YAML

`Time.parse?` reads a date, perhaps with a time of the day and an offset, and `Time.fault?` gives
the reason in words why there is no such date or time.
-/

namespace CodeIndex.Yaml

/-- The time of a day, and the offset from universal time in minutes. -/
structure Clock where
  hour : Nat
  minute : Nat
  second : Nat
  offset : Option Int
  deriving DecidableEq, Repr

/-- A date, perhaps with the time of the day. -/
structure Time where
  year : Nat
  month : Nat
  day : Nat
  clock : Option Clock
  deriving DecidableEq, Repr

namespace Time

/-- A number of between `least` and `most` digits at the start of a text, as many as there are. -/
def number? (least most : Nat) (t : Text) : Option (Nat × Text) :=
  let ds := (t.take most).takeWhile (·.isDigit)
  if ds.length < least then none
  else some (ds.foldl (fun n c => 10 * n + (c.toNat - 48)) 0, t.drop ds.length)

/-- The rest of a text after a character. -/
def after? (c : Char) : Text → Option Text
  | d :: t => if c = d then some t else none
  | [] => none

/-- A text without blanks at its start. -/
def skipBlanks (t : Text) : Text := t.dropWhile fun c => c = ' ' || c = '\t'

/-- The offset after a sign: hours, and perhaps minutes. -/
def offset? (sign : Int) (t : Text) : Option Int := do
  let (hours, t) ← number? 1 2 t
  match t with
  | [] => return sign * (60 * hours : Nat)
  | t =>
    let (minutes, t) ← number? 2 2 (← after? ':' t)
    guard t.isEmpty
    return sign * (60 * hours + minutes : Nat)

/-- What follows the seconds: a fraction, and the offset. -/
def zone? (t : Text) : Option (Option Int) :=
  let t := match t with
    | '.' :: t => t.dropWhile (·.isDigit)
    | t => t
  match t, skipBlanks t with
  | [], _ => some none
  | _, ['Z'] => some (some 0)
  | _, '+' :: t => (offset? 1 t).map some
  | _, '-' :: t => (offset? (-1) t).map some
  | _, _ => none

/-- The time of the day. -/
def clock? (t : Text) : Option Clock := do
  let (hour, t) ← number? 1 2 t
  let (minute, t) ← number? 2 2 (← after? ':' t)
  let (second, t) ← number? 2 2 (← after? ':' t)
  return { hour, minute, second, offset := ← zone? t }

/-- A date, perhaps with the time of the day. -/
def parse? (t : Text) : Option Time := do
  let (year, t) ← number? 4 4 t
  let (month, t) ← number? 1 2 (← after? '-' t)
  let (day, t) ← number? 1 2 (← after? '-' t)
  match t with
  | [] => return { year, month, day, clock := none }
  | c :: r =>
    let r ← if c = 'T' || c = 't' then some r
      else if c = ' ' || c = '\t' then some (skipBlanks r)
      else none
    return { year, month, day, clock := some (← clock? r) }

/-- A text that is a date or a time by its form: a date alone has all of its digits. -/
def isTime (t : Text) : Bool :=
  match parse? t with
  | some time => time.clock.isSome || t.length = 10
  | none => false

/-- The year has a 29th of February. -/
def isLeap (year : Nat) : Bool := year % 4 = 0 && (year % 100 ≠ 0 || year % 400 = 0)

/-- The number of days of a month. -/
def daysIn (year month : Nat) : Nat :=
  if month = 2 then if isLeap year then 29 else 28
  else if month = 4 || month = 6 || month = 9 || month = 11 then 30
  else 31

/-- A length of time in minutes, in words: days and seconds that are not zero. -/
def durationText (minutes : Int) : Text :=
  let days := minutes.fdiv (24 * 60)
  let seconds := 60 * minutes.fmod (24 * 60)
  let part (name : String) (n : Int) : List Text :=
    if n = 0 then [] else [name.toList ++ '=' :: Text.ofInt n]
  "datetime.timedelta(".toList ++
    Text.join ", ".toList (part "days" days ++ part "seconds" seconds) ++ [')']

/-- Why there is no such date or time. An offset that is too large comes first. -/
def fault? (t : Time) : Option Text :=
  let offset := (t.clock.bind (·.offset)).getD 0
  if offset.natAbs ≥ 24 * 60 then
    some (("offset must be a timedelta strictly between -timedelta(hours=24) and "
      ++ "timedelta(hours=24), not ").toList ++ durationText offset ++ ['.'])
  else if t.year = 0 then some "year 0 is out of range".toList
  else if t.month = 0 || t.month > 12 then some "month must be in 1..12".toList
  else if t.day = 0 || t.day > daysIn t.year t.month then
    some "day is out of range for month".toList
  else match t.clock with
    | none => none
    | some c =>
      if c.hour > 23 then some "hour must be in 0..23".toList
      else if c.minute > 59 then some "minute must be in 0..59".toList
      else if c.second > 59 then some "second must be in 0..59".toList
      else none

end Time

end CodeIndex.Yaml
