import QueryMachine.Number.Decimal

/-!
Moments. A moment is known as a number of milliseconds, as a date, as a time of day, or as several of
these, and what is asked for is worked out of the rest. Milliseconds are counted from the noon at which
the days of astronomers start. Dates are those of the Gregorian calendar, also where it was not in use.
Milliseconds are 64-bit integers, the parts of dates are 32-bit integers, and both go round.
-/

namespace QueryMachine.Calendar

def dayMillis : Int := 86400000

/-- Milliseconds of half a day: the distance between noon and midnight. -/
def halfDay : Int := 43200000

structure Date where
  year : Int
  month : Int
  day : Int
  deriving Repr, DecidableEq, Inhabited

namespace Date

/-- The date of a time of day that comes without a date. -/
def standard : Date := ⟨2000, 1, 1⟩

/-- The midnight at which a date starts. January and February count as the last months of the year
before. -/
def millis (d : Date) : Int :=
  let (y, m) := if d.month ≤ 2 then (d.year - 1, d.month + 12) else (d.year, d.month)
  let century := y.tdiv 100
  let leap := 2 - century + century.tdiv 4
  let days := (wrapHalf (36525 * (y + 4716))).tdiv 100 + (wrapHalf (306001 * (m + 1))).tdiv 10000
  (2 * wrapHalf (days + d.day + leap) - 3049) * halfDay

def ofMillis (n : Int) : Date :=
  let z := wrapHalf ((wrapWord (n + halfDay)).tdiv dayMillis)
  let century := (4 * z - 7468865).tdiv 146097
  let b := wrapHalf (z + 1 + century - century.tdiv 4 + 1524)
  let years := (20 * b - 2442).tdiv 7305
  let left := wrapHalf (b - (wrapHalf (36525 * years)).tdiv 100)
  let months := (10000 * left).tdiv 306001
  let month := if months < 14 then months - 1 else months - 13
  { year := if 2 < month then years - 4716 else years - 4715
    month
    day := wrapHalf (left - (306001 * months).tdiv 10000) }

end Date

structure Time where
  hour : Int
  minute : Int
  second : Double
  deriving Repr, DecidableEq, Inhabited

namespace Time

def midnight : Time := ⟨0, 0, .zero⟩

/-- Milliseconds since midnight. -/
def millis (t : Time) : Int :=
  t.hour * 3600000 + t.minute * 60000 + (t.second.mul (.ofInt 1000)).toInt64Wide

def ofMillis (n : Int) : Time :=
  let x := (Double.ofInt ((wrapWord (n + halfDay)).tmod dayMillis)).div (.ofInt 1000)
  let s := x.trunc?.getD 0
  let hour := s.tdiv 3600
  let s' := s - hour * 3600
  let minute := s'.tdiv 60
  { hour, minute, second := (x.sub (.ofInt s)).add (.ofInt (s' - minute * 60)) }

end Time

end Calendar

open Calendar

structure Moment where
  millis : Option Int := none
  date : Option Date := none
  time : Option Time := none
  /-- By how many minutes the time of day is ahead of that of the prime meridian. -/
  zone : Option Int := none
  deriving Repr, DecidableEq, Inhabited

namespace Moment

def ofMillis (n : Int) : Moment := { millis := some n }

def ofDays (x : Double) : Moment :=
  ofMillis ((x.mul (.ofInt dayMillis)).add (.ofDecimal false 5 (-1))).toInt64Wide

/-- Works out the milliseconds. A time of day ahead of the prime meridian does not hold afterwards. -/
def settle (m : Moment) : Moment :=
  match m.millis with
  | some _ => m
  | none =>
    let start := (m.date.getD .standard).millis
    match m.time, m.zone with
    | none, _ => { m with millis := some start }
    | some t, none => { m with millis := some (wrapWord (start + t.millis)) }
    | some t, some z => ofMillis (wrapWord (start + t.millis - z * 60000))

/-- The milliseconds of a moment. -/
def instant (m : Moment) : Int := m.settle.millis.getD 0

/-- The moment of which only the milliseconds are kept. -/
def bare (m : Moment) : Moment := ofMillis m.instant

/-- Works out the date. A moment that is only a time of day has a standard date. -/
def withDate (m : Moment) : Moment :=
  match m.date with
  | some _ => m
  | none => { m with date := some ((m.millis.map Date.ofMillis).getD .standard) }

def withTime (m : Moment) : Moment :=
  match m.time with
  | some _ => m
  | none => { m.settle with time := some (.ofMillis m.instant) }

def complete (m : Moment) : Moment := m.withDate.withTime

/-- The date and the time of day that are kept, with nothing else. -/
def parts (m : Moment) : Date × Time :=
  (m.complete.date.getD .standard, m.complete.time.getD .midnight)

def ofParts (date : Date) (time : Time) : Moment := { date := some date, time := some time }

end Moment

end QueryMachine
