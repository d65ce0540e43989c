import ModelPlaybook.Calendar
import ModelPlaybook.Fault
import ModelPlaybook.Value.Basic

/-!
# Timestamps

A timestamp is a date, or a date with a time of day that may name its offset.  What its text says
need not be on the calendar.
-/

namespace ModelPlaybook.Yaml

/-- The offset that a timestamp names: none, that of universal time, or hours and minutes. -/
inductive Zone where
  | missing
  | universal
  | ahead (negative : Bool) (hours minutes : Nat)
deriving DecidableEq, Repr

structure ClockText where
  hour : Nat
  minute : Nat
  second : Nat
  fraction : List Char
  zone : Zone
deriving Repr

structure Timestamp where
  year : Nat
  month : Nat
  day : Nat
  /-- Whether the month and the day have two digits each. -/
  isWide : Bool
  clock : Option ClockText
deriving Repr

namespace Timestamp

/-- One digit or two at the start of a text, how many there are and what follows them. -/
def shortNumber? (cs : List Char) : Option (Nat × Nat × List Char) :=
  let digits := (cs.take 2).takeWhile Text.isAsciiDigit
  if digits.isEmpty then none
  else some (Text.natOfDigits digits, digits.length, cs.drop digits.length)

def isInlineBlank (c : Char) : Bool :=
  c = ' ' || c = '\t'

/-- Reads the end of a timestamp: blanks and an offset, or nothing. -/
def zone? (cs : List Char) : Option Zone :=
  if cs.isEmpty then some .missing
  else
    match cs.dropWhile isInlineBlank with
    | ['Z'] => some .universal
    | sign :: rest =>
      if sign = '+' ∨ sign = '-' then do
        let (hours, _, rest) ← shortNumber? rest
        match rest with
        | [] => some (.ahead (sign = '-') hours 0)
        | ':' :: rest =>
          match fixedDigits? 2 rest with
          | some (minutes, []) => some (.ahead (sign = '-') hours minutes)
          | _ => none
        | _ => none
      else none
    | [] => none

/-- Passes over what separates a date from the time of day. -/
def dropClockMark? (cs : List Char) : Option (List Char) :=
  match cs with
  | 'T' :: rest => some rest
  | 't' :: rest => some rest
  | cs => if cs.head?.any isInlineBlank then some (cs.dropWhile isInlineBlank) else none

def clock? (cs : List Char) : Option ClockText := do
  let cs ← dropClockMark? cs
  let (hour, _, cs) ← shortNumber? cs
  let ':' :: cs := cs | none
  let (minute, cs) ← fixedDigits? 2 cs
  let ':' :: cs := cs | none
  let (second, cs) ← fixedDigits? 2 cs
  match cs with
  | '.' :: rest =>
    let fraction := rest.takeWhile Text.isAsciiDigit
    let zone ← zone? (rest.drop fraction.length)
    some ⟨hour, minute, second, fraction, zone⟩
  | cs => do
    let zone ← zone? cs
    some ⟨hour, minute, second, [], zone⟩

/-- Takes the text of a timestamp apart. -/
def ofChars? (cs : List Char) : Option Timestamp := do
  let (year, cs) ← fixedDigits? 4 cs
  let '-' :: cs := cs | none
  let (month, monthWidth, cs) ← shortNumber? cs
  let '-' :: cs := cs | none
  let (day, dayWidth, cs) ← shortNumber? cs
  let isWide := monthWidth = 2 ∧ dayWidth = 2
  if cs.isEmpty then some ⟨year, month, day, isWide, none⟩
  else do
    let clock ← clock? cs
    some ⟨year, month, day, isWide, some clock⟩

/-- Whether a text without a tag counts as a timestamp: a date alone needs all its digits. -/
def isPlain (cs : List Char) : Bool :=
  match ofChars? cs with
  | some t => t.isWide || t.clock.isSome
  | none => false

/-- The microseconds that the digits after a point write; digits beyond the sixth are dropped. -/
def microseconds (fraction : List Char) : Nat :=
  let digits := fraction.take 6
  Text.natOfDigits digits * 10 ^ (6 - digits.length)

/-- The offset in microseconds; it has to be shorter than a day. -/
def Zone.offset : Zone → Except Fault (Option Int)
  | .missing => .ok none
  | .universal => .ok (some 0)
  | .ahead negative hours minutes =>
    let size : Int := ((hours * 60 + minutes) * 60 : Nat) * Duration.microsPerSecond
    let offset := if negative then -size else size
    if size < Duration.microsPerDay then .ok (some offset)
    else
      .error (.ofValue ("offset must be a timedelta strictly between " ++
        "-timedelta(hours=24) and timedelta(hours=24), not " ++ (Duration.mk offset).shown ++ "."))

/-- The date or the moment that a timestamp says. -/
def toScalar (t : Timestamp) : Except Fault Scalar := do
  match t.clock with
  | none =>
    match Date.make t.year t.month t.day with
    | .ok d => pure (.date d)
    | .error f => .error (.ofValue f.text)
  | some c =>
    let offset ← Zone.offset c.zone
    match DateTime.make t.year t.month t.day c.hour c.minute c.second
        (microseconds c.fraction) offset with
    | .ok t => pure (.dateTime t)
    | .error f => .error (.ofValue f.text)

end Timestamp

end ModelPlaybook.Yaml
