import OperandLifecycle.Failure
import OperandLifecycle.Text.Literal
/-!
# Time stamps

The manager stamps objects with wall-clock times. A `Stamp` is a calendar date, a time of day
with microseconds, and an optional offset from UTC. `Stamp.iso` writes it in the extended ISO
8601 form (`2024-01-01T00:00:03`, microseconds only when not zero, the offset as `+HH:MM`),
`Stamp.zulu` in the UTC form with a `Z` and no fraction, and `Stamp.read` reads the ISO forms
back.

The clock of a run is explicit: `Stamp.ofSeconds` counts whole seconds from the epoch
2024-01-01T00:00:00.
-/
namespace OperandLifecycle

/-- An offset from UTC: its sign and size. -/
structure UtcOffset where
  negative : Bool
  hours : Nat
  minutes : Nat
  seconds : Nat
  micros : Nat
  deriving DecidableEq, Repr

/-- A calendar date and time of day, with an optional offset from UTC. -/
structure Stamp where
  year : Nat
  month : Nat
  day : Nat
  hour : Nat
  minute : Nat
  second : Nat
  micros : Nat
  offset : Option UtcOffset
  deriving DecidableEq, Repr

namespace Stamp

/-- Whether a year is a leap year of the Gregorian calendar. -/
def isLeap (y : Nat) : Bool := (y % 4 == 0 && y % 100 != 0) || y % 400 == 0

/-- The number of days of a month. -/
def monthDays (y m : Nat) : Nat :=
  match m with
  | 2 => if isLeap y then 29 else 28
  | 4 | 6 | 9 | 11 => 30
  | _ => 31

/-- A number written with at least `width` digits. -/
def padded (width n : Nat) : String :=
  let ds := Nat.toDigits 10 n
  String.ofList (List.replicate (width - ds.length) '0' ++ ds)

/-- The date and time of day, `YYYY-MM-DDTHH:MM:SS`. -/
def dateTime (s : Stamp) : String :=
  padded 4 s.year ++ "-" ++ padded 2 s.month ++ "-" ++ padded 2 s.day ++ "T" ++
    padded 2 s.hour ++ ":" ++ padded 2 s.minute ++ ":" ++ padded 2 s.second

/-- The extended ISO form: microseconds only when not zero, then the offset if any. -/
def iso (s : Stamp) : String :=
  let frac := if s.micros == 0 then "" else "." ++ padded 6 s.micros
  let off := match s.offset with
    | none => ""
    | some o =>
      (if o.negative then "-" else "+") ++ padded 2 o.hours ++ ":" ++ padded 2 o.minutes ++
        (if o.seconds == 0 && o.micros == 0 then ""
         else ":" ++ padded 2 o.seconds ++ (if o.micros == 0 then "" else "." ++ padded 6 o.micros))
  s.dateTime ++ frac ++ off

/-- The UTC form with a trailing `Z` and whole seconds. -/
def zulu (s : Stamp) : String := s.dateTime ++ "Z"

/-- The date `days` days after 2024-01-01, walking month by month. -/
def dateAfter (days : Nat) : Nat × Nat × Nat :=
  let rec go (y m : Nat) (left : Nat) (fuel : Nat) : Nat × Nat × Nat :=
    match fuel with
    | 0 => (y, m, left + 1)
    | fuel + 1 =>
      let md := monthDays y m
      if left < md then (y, m, left + 1)
      else if m == 12 then go (y + 1) 1 (left - md) fuel
      else go y (m + 1) (left - md) fuel
  go 2024 1 days (days + 1)

/-- The time `secs` whole seconds after 2024-01-01T00:00:00, without offset. -/
def ofSeconds (secs : Nat) : Stamp :=
  let (y, m, d) := dateAfter (secs / 86400)
  let r := secs % 86400
  ⟨y, m, d, r / 3600, r % 3600 / 60, r % 60, 0, none⟩

/-! ## Reading ISO 8601 text

A stamp is read from the UTF-8 bytes of its text, as a zero-terminated buffer: a read past
the end sees a zero byte. The date comes first, in one of the forms `YYYY-MM-DD`, `YYYYMMDD`,
`YYYY-Www`, `YYYYWww`, `YYYY-Www-D` or `YYYYWwwD` (an ISO week and weekday); where it ends is
told by its first characters (`separatorAt`). Any one character may follow it, and then a
time of day `HH[:MM[:SS[.fff…]]]` (the colons may all be left out, a comma may stand for the
point, digits past the sixth are dropped), and last an offset: `Z`, or a sign and a time.

Text that fits none of these is unreadable. A date or time that fits but names no real
moment fails on its first field out of range, after the offset has been checked.
-/

/-- The byte at position `i` of a buffer, zero past its end. -/
def byteAt (buf : List UInt8) (i : Nat) : UInt8 := buf.getD i 0

/-- Whether a byte is an ASCII digit. -/
def isDigitByte (b : UInt8) : Bool := 48 ≤ b.toNat && b.toNat ≤ 57

/-- Reads `n` digits from position `i`: their value and the position after them. -/
def readDigits (buf : List UInt8) (i n : Nat) : Option (Nat × Nat) :=
  go i n 0
where
  /-- Reads `k` more digits from `i`, with `acc` the value so far. -/
  go : Nat → Nat → Nat → Option (Nat × Nat)
    | i, 0, acc => some (acc, i)
    | i, k + 1, acc =>
      let b := byteAt buf i
      if isDigitByte b then go (i + 1) k (10 * acc + (b.toNat - 48)) else none

/-- The byte values of the characters the reader looks for. -/
def hyphenByte : UInt8 := 45
/-- The week marker `W`. -/
def weekByte : UInt8 := 87
/-- The colon. -/
def colonByte : UInt8 := 58
/-- The decimal point. -/
def pointByte : UInt8 := 46
/-- The comma. -/
def commaByte : UInt8 := 44
/-- The UTC marker `Z`. -/
def zuluByte : UInt8 := 90
/-- The plus sign. -/
def plusByte : UInt8 := 43

/-- Where the date ends, told by its first characters; none when it cannot end anywhere. -/
def separatorAt (buf : List UInt8) : Option Nat :=
  let len := buf.length
  if len == 7 then some 7
  else if byteAt buf 4 == hyphenByte then
    if byteAt buf 5 == weekByte then
      if len < 8 then none
      else if len > 8 && byteAt buf 8 == hyphenByte then
        if len == 9 then none
        else if len > 10 && isDigitByte (byteAt buf 10) then some 8
        else some 10
      else some 8
    else some 10
  else if byteAt buf 4 == weekByte then
    let idx := 7 + ((buf.drop 7).takeWhile isDigitByte).length
    if idx < 9 then some idx
    else if idx % 2 == 0 then some 7 else some 8
  else some 8

/-- The number of days before January 1 of year `y`, counted from January 1 of year 1. -/
def daysBeforeYear (y : Nat) : Nat :=
  let p := y - 1
  p * 365 + p / 4 - p / 100 + p / 400

/-- The number of days of year `y` before month `m`. -/
def daysBeforeMonth (y m : Nat) : Nat :=
  (List.range (m - 1)).foldl (fun days i => days + monthDays y (i + 1)) 0

/-- The day number of a date, January 1 of year 1 being day 1. -/
def ordinalOf (y m d : Nat) : Nat := daysBeforeYear y + daysBeforeMonth y m + d

/-- The month and day of the date `n` days after January 1 of year `y`. -/
def monthAndDay (y n : Nat) : Nat × Nat :=
  go 1 n ((List.range 12).map (fun i => monthDays y (i + 1)))
where
  /-- Walks the month lengths from month `m` with `n` days left. -/
  go : Nat → Nat → List Nat → Nat × Nat
    | m, n, [] => (m, n + 1)
    | m, n, md :: rest => if n < md then (m, n + 1) else go (m + 1) (n - md) rest

/-- The date of a day number (day 1 is January 1 of year 1), by whole cycles of 400, 100, 4
and 1 years. -/
def ofOrdinal (ordinal : Nat) : Nat × Nat × Nat :=
  let n0 := ordinal - 1
  let n400 := n0 / 146097
  let r400 := n0 % 146097
  let n100 := r400 / 36524
  let r100 := r400 % 36524
  let n4 := r100 / 1461
  let r4 := r100 % 1461
  let n1 := r4 / 365
  let r1 := r4 % 365
  let year := n400 * 400 + 1 + n100 * 100 + n4 * 4 + n1
  if n1 == 4 || n100 == 4 then (year - 1, 12, 31)
  else
    let (m, d) := monthAndDay year r1
    (year, m, d)

/-- The day number of the Monday of ISO week 1 of year `y`. -/
def weekOneMonday (y : Nat) : Nat :=
  let first := ordinalOf y 1 1
  let weekday := (first + 6) % 7
  if weekday > 3 then first - weekday + 7 else first - weekday

/-- Whether ISO year `y` has 53 weeks: it starts on a Thursday, or on a Wednesday in a leap
year. -/
def hasWeek53 (y : Nat) : Bool :=
  let weekday := (ordinalOf y 1 1 + 6) % 7
  weekday == 3 || (weekday == 2 && isLeap y)

/-- The date of an ISO week date. Year 0 has no such dates: each reads as a month that does
not exist. -/
def ofWeekDate (y w d : Nat) : Option (Nat × Nat × Nat) :=
  if w == 0 || w > 53 || (w == 53 && (y == 0 || !hasWeek53 y)) then none
  else if d == 0 || d ≥ 8 then none
  else if y == 0 then some (1, 0, 1)
  else some (ofOrdinal (weekOneMonday y + (w - 1) * 7 + (d - 1)))

/-- Reads the date that ends at `stop`: year, month and day, not yet checked for range. -/
def readDate (buf : List UInt8) (stop : Nat) : Option (Nat × Nat × Nat) := do
  let (year, p0) ← readDigits buf 0 4
  let hyphens := byteAt buf p0 == hyphenByte
  let p1 := if hyphens then p0 + 1 else p0
  if byteAt buf p1 == weekByte then
    let (week, p2) ← readDigits buf (p1 + 1) 2
    let day ← if p2 < stop then do
        let p3 ← if hyphens then
            (if byteAt buf p2 == hyphenByte then some (p2 + 1) else none)
          else some p2
        let (d, _) ← readDigits buf p3 1
        pure d
      else pure 1
    ofWeekDate year week day
  else
    let (month, p2) ← readDigits buf p1 2
    let p3 ← if hyphens then
        (if byteAt buf p2 == hyphenByte then some (p2 + 1) else none)
      else some p2
    let (day, _) ← readDigits buf p3 2
    pure (year, month, day)

/-- How reading the fields of a time of day ended: at the end of its text (with whether
something other than the end of the buffer follows), or at a fraction. -/
inductive FieldsEnd where
  | stop (more : Bool)
  | fraction (p : Nat)

/-- Reads up to `k` more two-digit fields from `p`, the text ending at `pend`; `colons` tells
whether the fields are separated by colons, as the first separator decides. -/
def readFields (buf : List UInt8) (pend : Nat) :
    Nat → Bool → Nat → List Nat → Option (List Nat × FieldsEnd)
  | 0, _, p, vals => some (vals, .fraction p)
  | k + 1, colons, p, vals => do
    let (v, p1) ← readDigits buf p 2
    let c := byteAt buf p1
    let colons := if vals.isEmpty then c == colonByte else colons
    let vals := vals ++ [v]
    if p1 + 1 ≥ pend then some (vals, .stop (c != 0))
    else if colons && c == colonByte then readFields buf pend k colons (p1 + 1) vals
    else if c == pointByte || c == commaByte then some (vals, .fraction (p1 + 1))
    else if !colons then readFields buf pend k colons p1 vals
    else none

/-- Reads `HH[:MM[:SS[.fff…]]]` from `p`, the text ending at `pend`: whether something other
than the end of the buffer follows, then hours, minutes, seconds and microseconds. -/
def readClock (buf : List UInt8) (p pend : Nat) : Option (Bool × Nat × Nat × Nat × Nat) := do
  let (vals, e) ← readFields buf pend 3 true p []
  let h := vals.getD 0 0
  let m := vals.getD 1 0
  let s := vals.getD 2 0
  match e with
  | .stop more => some (more, h, m, s, 0)
  | .fraction q =>
    let n := min (pend - q) 6
    let (us, q1) ← readDigits buf q n
    let q2 := q1 + ((buf.drop q1).takeWhile isDigitByte).length
    some (byteAt buf q2 != 0, h, m, s, us * Nat.pow 10 (6 - n))

/-- Whether a byte starts an offset. -/
def isOffsetByte (b : UInt8) : Bool := b == zuluByte || b == plusByte || b == hyphenByte

/-- Reads the time of day from `start` to the end `stop` of the text: hours, minutes, seconds,
microseconds, and the offset if one is given, as signed seconds and microseconds. -/
def readTime (buf : List UInt8) (start stop : Nat) :
    Option (Nat × Nat × Nat × Nat × Option (Int × Int)) := do
  let at? := (List.range (stop - start)).find? (fun i => isOffsetByte (byteAt buf (start + i)))
  let tz := match at? with
    | some i => start + i
    | none => if stop > start then stop else start + 1
  let (more, h, m, s, us) ← readClock buf start tz
  if tz == stop then
    if more then none else some (h, m, s, us, none)
  else if byteAt buf tz == zuluByte then
    if byteAt buf (tz + 1) != 0 then none else some (h, m, s, us, some (0, 0))
  else
    let sign : Int := if byteAt buf tz == hyphenByte then -1 else 1
    let (more', th, tm, ts, tus) ← readClock buf (tz + 1) stop
    if more' then none
    else some (h, m, s, us, some (sign * ((th * 3600 + tm * 60 + ts : Nat) : Int), sign * tus))

/-- The number of bytes of the UTF-8 character that starts with byte `b`. -/
def leadWidth (b : UInt8) : Nat :=
  if b.toNat < 0x80 then 1
  else if b.toNat / 16 == 0xE then 3
  else if b.toNat / 16 == 0xF then 4
  else 2

/-- A span of `total` microseconds as a time difference is written: days, seconds and
microseconds, each only when not zero, the days rounded down. -/
def deltaText (total : Int) : String :=
  let days := total / 86400000000
  let rest := total - days * 86400000000
  let secs := rest / 1000000
  let micros := rest % 1000000
  let parts := (if days != 0 then ["days=" ++ toString days] else []) ++
    (if secs != 0 then ["seconds=" ++ toString secs] else []) ++
    (if micros != 0 then ["microseconds=" ++ toString micros] else [])
  "datetime.timedelta(" ++ (if parts.isEmpty then "0" else ", ".intercalate parts) ++ ")"

/-- The first field of a stamp that is out of range, as it is reported. -/
def rangeFailure (y mo d h mi s : Nat) : Option String :=
  if y < 1 || y > 9999 then some ("year " ++ toString y ++ " is out of range")
  else if mo < 1 || mo > 12 then some "month must be in 1..12"
  else if d < 1 || d > monthDays y mo then some "day is out of range for month"
  else if h > 23 then some "hour must be in 0..23"
  else if mi > 59 then some "minute must be in 0..59"
  else if s > 59 then some "second must be in 0..59"
  else none

end Stamp

/-- An offset of `total` microseconds from UTC, its size split into fields. -/
def UtcOffset.ofMicros (total : Int) : UtcOffset :=
  let a := total.natAbs
  ⟨total < 0, a / 3600000000, a / 60000000 % 60, a / 1000000 % 60, a % 1000000⟩

/-- Reads a time stamp from ISO 8601 text, failing as an unreadable or impossible one is
reported. -/
def Stamp.read (text : String) : Except Failure Stamp := do
  let unreadable : Failure :=
    .raised .valueError ("Invalid isoformat string: " ++ Text.quoteLiteral text)
  if text.length < 7 then throw unreadable
  let buf := text.toUTF8.toList
  let len := buf.length
  let some stop := Stamp.separatorAt buf | throw unreadable
  let some (y, mo, d) := Stamp.readDate buf stop | throw unreadable
  let (h, mi, s, us, tz) ← if len > stop then
      match Stamp.readTime buf (stop + Stamp.leadWidth (Stamp.byteAt buf stop)) len with
      | some r => pure r
      | none => throw unreadable
    else pure (0, 0, 0, 0, none)
  let offset ← match tz with
    | none => pure none
    | some (secs, micros) =>
      if secs == 0 then pure (some (UtcOffset.ofMicros 0))
      else
        let total := secs * 1000000 + micros
        if total ≥ 86400000000 || total ≤ -86400000000 then
          throw (.raised .valueError ("offset must be a timedelta strictly between " ++
            "-timedelta(hours=24) and timedelta(hours=24), not " ++ Stamp.deltaText total ++ "."))
        else pure (some (UtcOffset.ofMicros total))
  match Stamp.rangeFailure y mo d h mi s with
  | some msg => throw (.raised .valueError msg)
  | none => pure ⟨y, mo, d, h, mi, s, us, offset⟩

end OperandLifecycle
