/-
Moments in time, as status lines show them.

A moment is a number of seconds since the start of 1970 and a number of nanoseconds. A leap second is written as the
59th second of a minute with a thousand million nanoseconds or more. Years run from -262143 to 262142.
-/

namespace ClassAtlas.Run

/-- days from the first day of year 1 to the first day of a year, leap days by the Gregorian rule -/
def daysBeforeYear (year : Int) : Int :=
  let y := year - 1
  365 * y + y.fdiv 4 - y.fdiv 100 + y.fdiv 400

/-- a second of some day, and the nanoseconds in it -/
structure Moment where
  seconds : Int
  nanos : Nat
deriving DecidableEq, Repr

namespace Moment

def day (m : Moment) : Int := m.seconds.fdiv 86400

def secondOfDay (m : Moment) : Nat := (m.seconds.fmod 86400).toNat

/-- refuses years out of range, and a leap second anywhere but at the end of a minute -/
def of? (seconds : Int) (nanos : Nat) : Option Moment :=
  let m : Moment := ⟨seconds, nanos⟩
  let day := m.day + daysBeforeYear 1970
  if daysBeforeYear (-262143) ≤ day && day < daysBeforeYear 262143 &&
      (nanos < 1000000000 || (nanos < 2000000000 && m.secondOfDay % 60 == 59)) then some m
  else none

def twoDigits (n : Nat) : String := if n < 10 then "0" ++ toString n else toString n

/-- hours, minutes and seconds -/
def clock (m : Moment) : String :=
  let s := m.secondOfDay
  let leap := if m.nanos < 1000000000 then 0 else 1
  twoDigits (s / 3600) ++ ":" ++ twoDigits (s / 60 % 60) ++ ":" ++ twoDigits (s % 60 + leap)

end Moment

/-- a status line, with or without the time in front -/
def statusLine (clock : Option String) (message : String) : String :=
  match clock with
  | none => message
  | some c => s!"[{c}] {message}"

end ClassAtlas.Run
