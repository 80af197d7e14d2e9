import QueryMachine.Calendar.Reader

/-!
Changes of a moment that are given as words: an amount of some unit, a time of day to add, the start of
a unit, the next day of a name, and other readings of the number of milliseconds.
-/

namespace QueryMachine.Calendar

/-- The integer part of a double in 32 bits; what does not fit goes to the smallest. -/
def truncHalf (x : Double) : Int :=
  match x.trunc? with
  | some n => if -2147483648 ≤ n && n ≤ 2147483647 then n else -2147483648
  | none => -2147483648

/-- The integer nearest to `x * scale`; a half goes away from zero. -/
def nearest (x scale : Double) : Int :=
  let half := Double.ofDecimal (x.lt .zero) 5 (-1)
  ((x.mul scale).add half).toInt64Wide

end Calendar

open Calendar

namespace Moment

def addMillis (m : Moment) (n : Int) : Moment := ofMillis (wrapWord (m.instant + n))

def addMonths (m : Moment) (n : Int) : Moment :=
  let (date, time) := m.parts
  let month := wrapHalf (date.month + n)
  let years := if 0 < month then (month - 1).tdiv 12 else (wrapHalf (month - 12)).tdiv 12
  ofParts { date with year := wrapHalf (date.year + years), month := month - years * 12 } time

def addYears (m : Moment) (n : Int) : Moment :=
  let (date, time) := m.parts
  ofParts { date with year := wrapHalf (date.year + n) } time

/-- Adds a number of months or years, of which each has `days` days where it is not whole. -/
def addLong (m : Moment) (add : Moment → Int → Moment) (days : Int) (x : Double) : Moment :=
  let whole := Double.ofInt (truncHalf x)
  let m := add m (truncHalf x)
  if whole.beq x then m.bare
  else
    let half := Double.ofDecimal (x.lt .zero) 5 (-1)
    let part := (((x.sub whole).mul (.ofInt days)).mul (.ofInt dayMillis)).add half
    m.addMillis part.toInt64Wide

def addUnit? (m : Moment) (x : Double) (unit : String) : Option Moment :=
  let m := m.settle
  match unit with
  | "day" => some (m.addMillis (nearest x (.ofInt dayMillis)))
  | "hour" => some (m.addMillis (nearest x (.ofInt 3600000)))
  | "minute" => some (m.addMillis (nearest x (.ofInt 60000)))
  | "second" => some (m.addMillis (nearest x (.ofInt 1000)))
  | "month" => some (m.addLong addMonths 30 x)
  | "year" => some (m.addLong addYears 365 x)
  | _ => none

def addTime (m : Moment) (negative : Bool) (t : Moment) : Moment :=
  let n := (wrapWord (t.instant - halfDay)).tmod dayMillis
  m.addMillis (if negative then -n else n)

/-- The words of bytes below 128. -/
def word (b : Bytes) : String := String.ofList (b.map fun c => Char.ofNat c.toNat)

/-- An amount and a unit, or a time of day with a sign. -/
def shiftBy? (m : Moment) (first : UInt8) (rest : Bytes) : Option Moment :=
  let isPart (c : UInt8) : Bool := c != 58 && !Decimal.isSpace c
  let amount := Decimal.readReal (first :: rest.takeWhile isPart)
  if amount.whole then
    match rest.dropWhile isPart with
    | 58 :: _ => do
      let t ← readTime? (if Decimal.isDigit first then first :: rest else rest)
      return m.addTime (first = 45) (zoned none t)
    | more =>
      let unit := more.dropWhile Decimal.isSpace
      if unit.length < 3 || 10 < unit.length then none
      else
        let unit := if unit.getLast? = some 115 then unit.dropLast else unit
        m.addUnit? amount.value (word unit)
  else none

/-- The midnight at which the day, the month or the year starts. -/
def startOf? (m : Moment) (unit : String) : Option Moment :=
  let date := m.withDate.date.getD .standard
  match unit with
  | "day" => some (ofParts date .midnight)
  | "month" => some (ofParts { date with day := 1 } .midnight)
  | "year" => some (ofParts { date with month := 1, day := 1 } .midnight)
  | _ => none

/-- The same time of day on the next day with a number; Sunday is zero. -/
def weekday? (m : Moment) (b : Bytes) : Option Moment :=
  let x := Decimal.readReal b
  let n := truncHalf x.value
  if x.whole && (Double.ofInt n).beq x.value && 0 ≤ n && n < 7 then
    let (date, time) := m.parts
    let m := ofParts date time
    let z := ((wrapWord (m.instant + 129600000)).tdiv dayMillis).tmod 7
    let z := if n < z then z - 7 else z
    some (m.addMillis ((n - z) * dayMillis))
  else none

/-- The milliseconds of the moment from which seconds are counted. -/
def epoch : Int := 210866760000000

/-- Reads a moment that was given as a number of days as seconds since the epoch. -/
def ofSeconds? (m : Moment) : Option Moment :=
  m.millis.map fun n => ofMillis ((wrapWord (n + 43200)).tdiv 86400 + epoch)

/-- Changes a moment as some words say; only the first 29 bytes count. There is no other time of day
than that of the prime meridian. -/
def shift? (m : Moment) (b : Bytes) : Option Moment :=
  let b := (b.take 29).map Bytes.lowerByte
  let isWord (s : String) : Bool := b == Bytes.ofString s
  let behind? (s : String) : Option Bytes :=
    if (Bytes.ofString s).isPrefixOf b then some (b.drop s.utf8ByteSize) else none
  if isWord "localtime" || isWord "utc" then some m.bare
  else if isWord "unixepoch" then m.ofSeconds?
  else
    match behind? "weekday ", behind? "start of ", b with
    | some rest, _, _ => m.weekday? rest
    | none, some unit, _ => m.startOf? (word unit)
    | none, none, c :: rest =>
      if Decimal.isDigit c || c = 43 || c = 45 then m.shiftBy? c rest else none
    | none, none, [] => none

end Moment

end QueryMachine
