import ModelPlaybook.Text.Digits

/-!
# Dates, times of day and durations

The proleptic Gregorian calendar from year 1 to 9999, times of day to the microsecond with an
optional offset from universal time, and durations as whole numbers of microseconds.
-/

namespace ModelPlaybook

structure Date where
  year : Nat
  month : Nat
  day : Nat
deriving DecidableEq, Repr, Inhabited

/-- A moment on the calendar; `offset` is the distance from universal time in microseconds. -/
structure DateTime where
  date : Date
  hour : Nat
  minute : Nat
  second : Nat
  microsecond : Nat
  offset : Option Int
deriving DecidableEq, Repr, Inhabited

/-- A span of time in microseconds. -/
structure Duration where
  microseconds : Int
deriving DecidableEq, Repr, Inhabited

/-- A number with zeros in front up to a width. -/
def padded (width n : Nat) : String :=
  let ds := Text.digitsOfNat n
  String.ofList (List.replicate (width - ds.length) '0' ++ ds)

def isLeapYear (y : Nat) : Bool :=
  y % 4 == 0 && (y % 100 != 0 || y % 400 == 0)

def daysInMonth (y m : Nat) : Nat :=
  if m = 2 then (if isLeapYear y then 29 else 28)
  else if m = 4 ∨ m = 6 ∨ m = 9 ∨ m = 11 then 30
  else 31

/-- The days before a year, counted from the first of January of year 1. -/
def daysBeforeYear (y : Nat) : Nat :=
  let p := y - 1
  p * 365 + p / 4 - p / 100 + p / 400

namespace Date

/-- Why no date has these numbers. -/
inductive Fault where
  | year (y : Int)
  | month
  | day
deriving DecidableEq, Repr

def Fault.text : Fault → String
  | .year y => "year " ++ toString y ++ " is out of range"
  | .month => "month must be in 1..12"
  | .day => "day is out of range for month"

/-- The date with the given numbers, if the calendar has it. -/
def make (y m d : Int) : Except Fault Date :=
  if y < 1 ∨ 9999 < y then .error (.year y)
  else if m < 1 ∨ 12 < m then .error .month
  else if d < 1 ∨ (daysInMonth y.toNat m.toNat : Int) < d then .error .day
  else .ok ⟨y.toNat, m.toNat, d.toNat⟩

/-- The number of a day; the first of January of year 1 has number 1. -/
def ordinal (d : Date) : Nat :=
  daysBeforeYear d.year +
    ((List.range (d.month - 1)).foldl (fun n i => n + daysInMonth d.year (i + 1)) 0) + d.day

/-- Walks the months of a year to the one that holds a day of the year. -/
def monthOfDay (y : Nat) : Nat → Nat → Nat → Nat × Nat
  | 0, m, rest => (m, rest + 1)
  | fuel + 1, m, rest =>
    if rest < daysInMonth y m then (m, rest + 1)
    else monthOfDay y fuel (m + 1) (rest - daysInMonth y m)

/-- The day with a given number. -/
def ofOrdinal? (n : Int) : Option Date :=
  if n < 1 ∨ 3652059 < n then none
  else
    let days := n.toNat - 1
    let guess := days / 366 + 1
    let year := (List.range 30).foldl
      (fun y _ => if daysBeforeYear (y + 1) ≤ days then y + 1 else y) guess
    let (month, day) := monthOfDay year 12 1 (days - daysBeforeYear year)
    some ⟨year, month, day⟩

def iso (d : Date) : String :=
  padded 4 d.year ++ "-" ++ padded 2 d.month ++ "-" ++ padded 2 d.day

/-- Monday is zero. -/
def weekday (d : Date) : Nat :=
  (d.ordinal + 6) % 7

/-- A date as it is shown inside a message. -/
def shown (d : Date) : String :=
  "datetime.date(" ++ toString d.year ++ ", " ++ toString d.month ++ ", " ++ toString d.day ++ ")"

end Date

namespace Duration

def microsPerSecond : Int := 1000000

def microsPerDay : Int := 86400 * microsPerSecond

/-- The greatest number of days of a duration, in either direction. -/
def dayLimit : Int := 999999999

def ofParts (days seconds microseconds : Int) : Duration :=
  ⟨days * microsPerDay + seconds * microsPerSecond + microseconds⟩

def days (d : Duration) : Int :=
  d.microseconds.fdiv microsPerDay

def seconds (d : Duration) : Int :=
  (d.microseconds.fmod microsPerDay).fdiv microsPerSecond

def micros (d : Duration) : Int :=
  d.microseconds.fmod microsPerSecond

def inRange (d : Duration) : Bool :=
  -dayLimit ≤ d.days && d.days ≤ dayLimit

def text (d : Duration) : String :=
  let s := d.seconds.toNat
  let clock := toString (s / 3600) ++ ":" ++ padded 2 (s / 60 % 60) ++ ":" ++ padded 2 (s % 60)
  let dayPart :=
    if d.days = 0 then ""
    else toString d.days ++ (if d.days.natAbs = 1 then " day, " else " days, ")
  dayPart ++ clock ++ (if d.micros = 0 then "" else "." ++ padded 6 d.micros.toNat)

/-- A duration as it is shown inside a message: its parts that are not zero. -/
def shown (d : Duration) : String :=
  let part (name : String) (n : Int) : List String :=
    if n = 0 then [] else [name ++ "=" ++ toString n]
  let parts := part "days" d.days ++ part "seconds" d.seconds ++ part "microseconds" d.micros
  "datetime.timedelta(" ++ (if parts.isEmpty then "0" else ", ".intercalate parts) ++ ")"

end Duration

/-- How exactly a time of day is written. -/
inductive Exactness where
  /-- Microseconds are written if there are any. -/
  | asNeeded
  | hours | minutes | seconds | milliseconds | microseconds
deriving DecidableEq, Repr

def Exactness.ofName? : String → Option Exactness
  | "auto" => some .asNeeded
  | "hours" => some .hours
  | "minutes" => some .minutes
  | "seconds" => some .seconds
  | "milliseconds" => some .milliseconds
  | "microseconds" => some .microseconds
  | _ => none

namespace DateTime

/-- Why no moment has these numbers. -/
inductive Fault where
  | date (cause : Date.Fault)
  | hour
  | minute
  | second
  | microsecond
deriving DecidableEq, Repr

def Fault.text : Fault → String
  | .date cause => cause.text
  | .hour => "hour must be in 0..23"
  | .minute => "minute must be in 0..59"
  | .second => "second must be in 0..59"
  | .microsecond => "microsecond must be in 0..999999"

/-- The moment with the given numbers, if the calendar and the clock have it. -/
def make (y m d hour minute second microsecond : Int) (offset : Option Int) :
    Except Fault DateTime :=
  match Date.make y m d with
  | .error cause => .error (.date cause)
  | .ok date =>
    if hour < 0 ∨ 23 < hour then .error .hour
    else if minute < 0 ∨ 59 < minute then .error .minute
    else if second < 0 ∨ 59 < second then .error .second
    else if microsecond < 0 ∨ 999999 < microsecond then .error .microsecond
    else .ok ⟨date, hour.toNat, minute.toNat, second.toNat, microsecond.toNat, offset⟩

/-- Microseconds since midnight. -/
def clock (t : DateTime) : Int :=
  (((t.hour * 60 + t.minute) * 60 + t.second : Nat) : Int) * 1000000 + t.microsecond

/-- Microseconds on the calendar, without regard to the offset. -/
def localMicros (t : DateTime) : Int :=
  (t.date.ordinal : Int) * Duration.microsPerDay + t.clock

/-- Microseconds on the calendar of universal time. -/
def instant (t : DateTime) : Int :=
  t.localMicros - t.offset.getD 0

def ofLocalMicros? (micros : Int) (offset : Option Int) : Option DateTime :=
  let days := micros.fdiv Duration.microsPerDay
  let rest := (micros.fmod Duration.microsPerDay).toNat
  (Date.ofOrdinal? days).map fun date =>
    let s := rest / 1000000
    ⟨date, s / 3600, s / 60 % 60, s % 60, rest % 1000000, offset⟩

def offsetText (offset : Int) : String :=
  let sign := if offset < 0 then "-" else "+"
  let s := offset.natAbs / 1000000
  let micros := offset.natAbs % 1000000
  sign ++ padded 2 (s / 3600) ++ ":" ++ padded 2 (s / 60 % 60) ++
    (if s % 60 = 0 ∧ micros = 0 then "" else ":" ++ padded 2 (s % 60)) ++
    (if micros = 0 then "" else "." ++ padded 6 micros)

/-- The time of day, as exactly as asked for. -/
def clockText (e : Exactness) (t : DateTime) : String :=
  let hours := padded 2 t.hour
  let minutes := hours ++ ":" ++ padded 2 t.minute
  let seconds := minutes ++ ":" ++ padded 2 t.second
  let microseconds := seconds ++ "." ++ padded 6 t.microsecond
  match e with
  | .asNeeded => if t.microsecond = 0 then seconds else microseconds
  | .hours => hours
  | .minutes => minutes
  | .seconds => seconds
  | .milliseconds => seconds ++ "." ++ padded 3 (t.microsecond / 1000)
  | .microseconds => microseconds

/-- The date and the time of day joined by a mark. -/
def isoWith (mark : String) (e : Exactness) (t : DateTime) : String :=
  t.date.iso ++ mark ++ t.clockText e ++ t.offset.elim "" offsetText

def iso (t : DateTime) : String :=
  t.isoWith "T" .asNeeded

def text (t : DateTime) : String :=
  t.isoWith " " .asNeeded

/-- A moment as it is shown inside a message: seconds and microseconds only where needed. -/
def shown (t : DateTime) : String :=
  let numbers := [t.date.year, t.date.month, t.date.day, t.hour, t.minute] ++
    (if t.second = 0 ∧ t.microsecond = 0 then [] else [t.second]) ++
    (if t.microsecond = 0 then [] else [t.microsecond])
  let zone :=
    match t.offset with
    | none => ""
    | some 0 => ", tzinfo=datetime.timezone.utc"
    | some offset =>
      ", tzinfo=datetime.timezone(" ++ (Duration.mk offset).shown ++ ")"
  "datetime.datetime(" ++ ", ".intercalate (numbers.map toString) ++ zone ++ ")"

/-- Whether two moments are the same; one with an offset never equals one without. -/
def same (a b : DateTime) : Bool :=
  match a.offset, b.offset with
  | some _, some _ => a.instant == b.instant
  | none, none => a == b
  | _, _ => false

end DateTime

/-- Reads a number written with exactly `width` ASCII digits, and the text after it. -/
def fixedDigits? (width : Nat) (cs : List Char) : Option (Nat × List Char) :=
  let ds := cs.take width
  if ds.length = width ∧ ds.all Text.isAsciiDigit then some (Text.natOfDigits ds, cs.drop width)
  else none

/-- Reads a date in the form `2024-01-31` at the start of a text. -/
def Date.ofChars? (cs : List Char) : Option (Date × List Char) := do
  let (y, cs) ← fixedDigits? 4 cs
  let '-' :: cs := cs | none
  let (m, cs) ← fixedDigits? 2 cs
  let '-' :: cs := cs | none
  let (d, cs) ← fixedDigits? 2 cs
  match Date.make y m d with
  | .ok date => some (date, cs)
  | .error _ => none

def Date.ofIso? (s : String) : Option Date :=
  match Date.ofChars? s.toList with
  | some (date, []) => some date
  | _ => none

/-- Reads the offset at the end of a moment's text, in microseconds. -/
def DateTime.offsetOfChars? (cs : List Char) : Option (Option Int) :=
  match cs with
  | [] => some none
  | ['Z'] => some (some 0)
  | sign :: rest =>
    if sign = '+' ∨ sign = '-' then do
      let (h, cs) ← fixedDigits? 2 rest
      let ':' :: cs := cs | none
      let (m, cs) ← fixedDigits? 2 cs
      let (s, cs) ←
        match cs with
        | ':' :: more => fixedDigits? 2 more
        | _ => some (0, cs)
      let (micros, cs) ←
        match cs with
        | '.' :: more => fixedDigits? 6 more
        | _ => some (0, cs)
      if cs.isEmpty then
        let total : Int := (((h * 60 + m) * 60 + s) * 1000000 + micros : Nat)
        some (some (if sign = '-' then -total else total))
      else none
    else none

/-- Reads a moment in the form that `DateTime.iso` writes; the time of day may be absent. -/
def DateTime.ofIso? (s : String) : Option DateTime := do
  let (date, cs) ← Date.ofChars? s.toList
  match cs with
  | [] => some ⟨date, 0, 0, 0, 0, none⟩
  | _ :: cs =>
    let (h, cs) ← fixedDigits? 2 cs
    let (mi, cs) ←
      match cs with
      | ':' :: more => fixedDigits? 2 more
      | _ => some (0, cs)
    let (sec, cs) ←
      match cs with
      | ':' :: more => fixedDigits? 2 more
      | _ => some (0, cs)
    let (micro, cs) ←
      match cs with
      | '.' :: more =>
        match fixedDigits? 6 more with
        | some r => some r
        | none => (fixedDigits? 3 more).map fun (n, rest) => (n * 1000, rest)
      | _ => some (0, cs)
    let offset ← DateTime.offsetOfChars? cs
    match DateTime.make date.year date.month date.day h mi sec micro offset with
    | .ok t => some t
    | .error _ => none

end ModelPlaybook
