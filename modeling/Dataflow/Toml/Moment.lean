import Dataflow.Text.Numeral
import Dataflow.Text.Read

/-!
# Dates and times

A moment is a date, a time of day, or both with an optional distance from universal time. Times are
kept to the nanosecond.
-/

namespace Dataflow.Toml

open Text (Read mark?)

/-- A day of the calendar. -/
structure Date where
  year : Nat
  month : Nat
  day : Nat
  deriving DecidableEq

/-- A time of day. -/
structure Time where
  hour : Nat
  minute : Nat
  second : Nat
  nanosecond : Nat
  deriving DecidableEq

/-- A distance from universal time: none by its letter, or a number of minutes. -/
inductive Offset where
  | zulu
  | minutes (count : Int)
  deriving DecidableEq

/-- A date, a time, or both. -/
inductive Moment where
  | date (day : Date)
  | time (clock : Time)
  | both (day : Date) (clock : Time) (offset? : Option Offset)
  deriving DecidableEq

/-- A number in at least `width` digits. -/
def padded (width n : Nat) : String :=
  let digits := Nat.toDigits 10 n
  String.ofList (List.replicate (width - digits.length) '0' ++ digits)

/-- The text of a date. -/
def Date.text (d : Date) : String :=
  padded 4 d.year ++ "-" ++ padded 2 d.month ++ "-" ++ padded 2 d.day

/-- The text of a time. The fraction of the second has no zeros at its end. -/
def Time.text (t : Time) : String :=
  let fraction := (padded 9 t.nanosecond).toList.reverse.dropWhile (· == '0')
  padded 2 t.hour ++ ":" ++ padded 2 t.minute ++ ":" ++ padded 2 t.second
    ++ (if fraction.isEmpty then "" else String.ofList ('.' :: fraction.reverse))

/-- The text of a distance from universal time. -/
def Offset.text : Offset → String
  | .zulu => "Z"
  | .minutes count =>
    let size := count.natAbs
    (if count < 0 then "-" else "+") ++ padded 2 (size / 60) ++ ":" ++ padded 2 (size % 60)

/-- The text of a moment. -/
def Moment.text : Moment → String
  | .date day => day.text
  | .time clock => clock.text
  | .both day clock offset? => day.text ++ "T" ++ clock.text ++ (offset?.elim "" Offset.text)

/-- Whether February has 29 days. -/
def isLeapYear (year : Nat) : Bool :=
  year % 4 = 0 && (year % 100 ≠ 0 || year % 400 = 0)

/-- The number of days of a month. -/
def daysOfMonth (year month : Nat) : Nat :=
  if month = 2 then (if isLeapYear year then 29 else 28)
  else if month = 4 ∨ month = 6 ∨ month = 9 ∨ month = 11 then 30
  else 31

/-- Exactly `count` digits, read as a number. -/
def fixedDigits? (count : Nat) : Read Nat := fun cs =>
  let digits := cs.take count
  if digits.length = count ∧ digits.all (fun c => (Numeral.digit? c).isSome) then
    some (digits.foldl (fun acc c => acc * 10 + (Numeral.digit? c).getD 0) 0, cs.drop count)
  else none

/-- A date of the calendar. -/
def date? : Read Date := fun cs => do
  let (year, cs) ← fixedDigits? 4 cs
  let (month, cs) ← fixedDigits? 2 (← mark? '-' cs)
  let (day, cs) ← fixedDigits? 2 (← mark? '-' cs)
  if 1 ≤ month ∧ month ≤ 12 ∧ 1 ≤ day ∧ day ≤ daysOfMonth year month then
    some (⟨year, month, day⟩, cs)
  else none

/-- A fraction of a second in nanoseconds. Digits behind the ninth are dropped. -/
def nanoseconds (digits : List Char) : Nat :=
  (digits ++ List.replicate 9 '0').take 9
    |>.foldl (fun acc c => acc * 10 + (Numeral.digit? c).getD 0) 0

/-- An optional fraction of a second. -/
def fraction (cs : List Char) : Nat × List Char :=
  match cs with
  | '.' :: rest =>
    match rest.span fun c => (Numeral.digit? c).isSome with
    | ([], _) => (0, cs)
    | (digits, left) => (nanoseconds digits, left)
  | _ => (0, cs)

/-- A time of day. A minute may have a leap second. -/
def time? : Read Time := fun cs => do
  let (hour, cs) ← fixedDigits? 2 cs
  let (minute, cs) ← fixedDigits? 2 (← mark? ':' cs)
  let (second, cs) ← fixedDigits? 2 (← mark? ':' cs)
  let (nanosecond, cs) := fraction cs
  if hour ≤ 23 ∧ minute ≤ 59 ∧ second ≤ 60 then
    some (⟨hour, minute, second, nanosecond⟩, cs)
  else none

/-- A signed distance in hours and minutes, of which each is a number of the clock. -/
def distance? (sign : Int) : Read Offset := fun cs => do
  let (hour, cs) ← fixedDigits? 2 cs
  let (minute, cs) ← fixedDigits? 2 (← mark? ':' cs)
  if hour ≤ 23 ∧ minute ≤ 59 then
    some (.minutes (sign * Int.ofNat (hour * 60 + minute)), cs)
  else none

/-- An optional distance from universal time. -/
def offset (cs : List Char) : Option Offset × List Char :=
  let read := match cs with
    | 'Z' :: rest | 'z' :: rest => some (.zulu, rest)
    | '+' :: rest => distance? 1 rest
    | '-' :: rest => distance? (-1) rest
    | _ => none
  match read with
  | some (distance, left) => (some distance, left)
  | none => (none, cs)

/-- The time that follows a date, behind the letter or the blank between them. -/
def timeAfterDate? : Read Time
  | 'T' :: rest | 't' :: rest | ' ' :: rest => time? rest
  | _ => none

/-- A moment. -/
def moment? : Read Moment := fun cs =>
  match date? cs with
  | some (day, rest) =>
    match timeAfterDate? rest with
    | some (time, left) =>
      let (distance?, left) := offset left
      some (.both day time distance?, left)
    | none => some (.date day, rest)
  | none => (time? cs).map fun (time, left) => (.time time, left)

/-- The moment that a string spells out, and nothing else. -/
def Moment.ofText? (s : String) : Option Moment :=
  match moment? s.toList with
  | some (moment, []) => some moment
  | _ => none

end Dataflow.Toml
