import CodeIndex.Text.Basic

/-!
# Timestamps

The time of a report, in the calendar and in universal time.
-/

namespace CodeIndex.Timestamp

/-- The year, month and day of a number of days since the first day of 1970. Years are counted from
March, so that the leap day comes last. -/
def date (days : Int) : Int × Nat × Nat :=
  let z := days + 719468
  let era := z.fdiv 146097
  let dayOfEra := (z - era * 146097).toNat
  let yearOfEra := (dayOfEra - dayOfEra / 1460 + dayOfEra / 36524 - dayOfEra / 146096) / 365
  let dayOfYear := dayOfEra - (365 * yearOfEra + yearOfEra / 4 - yearOfEra / 100)
  let march := (5 * dayOfYear + 2) / 153
  let day := dayOfYear - (153 * march + 2) / 5 + 1
  let month := if march < 10 then march + 3 else march - 9
  (yearOfEra + era * 400 + (if month ≤ 2 then 1 else 0), month, day)

/-- A number in at least `width` digits. -/
def padded (width n : Nat) : Text :=
  let digits := Text.ofNat n
  List.replicate (width - digits.length) '0' ++ digits

/-- The time that lies some seconds and microseconds after the start of 1970. -/
def text (seconds : Int) (micros : Nat) : Text :=
  let (year, month, day) := date (seconds.fdiv 86400)
  let second := (seconds - 86400 * seconds.fdiv 86400).toNat
  padded 4 year.toNat ++ '-' :: padded 2 month ++ '-' :: padded 2 day ++
    'T' :: padded 2 (second / 3600) ++ ':' :: padded 2 (second / 60 % 60) ++
    ':' :: padded 2 (second % 60) ++
    (if micros = 0 then [] else '.' :: padded 6 micros) ++ "+00:00".toList

end CodeIndex.Timestamp
