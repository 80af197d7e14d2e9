import QueryMachine.Calendar.Shift
import QueryMachine.Text.Format

/-!
Texts of moments: the date, the time of day, both, and what a pattern of letters asks for.
-/

namespace QueryMachine.Calendar

/-- A number with at least `n` bytes, filled up with zeros behind its sign. -/
def padded (n : Nat) (value : Int) : Bytes :=
  let digits := Bytes.ofString (toString value.natAbs)
  let sign : Bytes := if value < 0 then [45] else []
  sign ++ List.replicate (n - sign.length - digits.length) 48 ++ digits

def Date.render (d : Date) : Bytes :=
  padded 4 d.year ++ 45 :: padded 2 d.month ++ 45 :: padded 2 d.day

def Time.render (t : Time) : Bytes :=
  padded 2 t.hour ++ 58 :: padded 2 t.minute ++ 58 :: padded 2 (truncHalf t.second)

end Calendar

open Calendar

namespace Moment

def days (m : Moment) : Double := (Double.ofInt m.instant).div (.ofInt dayMillis)

def renderDate (m : Moment) : Bytes := (m.withDate.date.getD .standard).render

def renderTime (m : Moment) : Bytes := (m.withTime.time.getD .midnight).render

def renderBoth (m : Moment) : Bytes :=
  let (date, time) := m.parts
  date.render ++ 32 :: time.render

/-- Days since the first day of the year, for a moment whose parts are known. -/
def dayOfYear (m : Moment) : Int :=
  let (date, time) := m.parts
  let first := ofParts { date with month := 1, day := 1 } time
  wrapHalf ((wrapWord (m.instant - first.instant + halfDay)).tdiv dayMillis)

/-- The day of the week, from Monday on. -/
def dayOfWeek (m : Moment) : Int := ((wrapWord (m.instant + halfDay)).tdiv dayMillis).tmod 7

/-- Seconds with three places after the point; they stay below a minute. -/
def renderSeconds (x : Double) : Bytes :=
  let most := Double.ofDecimal false 59999 (-3)
  let layout : Format.Layout := { marks := { zeros := true }, width := 6, precision := some 3 }
  ((layout.real .fixed false (if most.lt x then most else x)).bytes).take 6

/-- What a letter of a pattern stands for. A field takes no more bytes than it has for usual dates. -/
def renderField? (m : Moment) (letter : Char) : Option Bytes :=
  let (date, time) := m.parts
  match letter with
  | 'd' => some ((padded 2 date.day).take 2)
  | 'f' => some (renderSeconds time.second)
  | 'H' => some ((padded 2 time.hour).take 2)
  | 'j' => some ((padded 3 (m.dayOfYear + 1)).take 3)
  | 'J' => some ((Decimal.render { style := .general, precision := 16 } m.days).take 19)
  | 'm' => some ((padded 2 date.month).take 2)
  | 'M' => some ((padded 2 time.minute).take 2)
  | 's' => some (Decimal.ofInt (m.instant.tdiv 1000 - epoch.tdiv 1000))
  | 'S' => some ((padded 2 (truncHalf time.second)).take 2)
  | 'w' => some [UInt8.ofInt (48 + ((wrapWord (m.instant + 129600000)).tdiv dayMillis).tmod 7)]
  | 'W' => some ((padded 2 ((m.dayOfYear + 7 - m.dayOfWeek).tdiv 7)).take 2)
  | 'Y' => some ((padded 4 date.year).take 4)
  | '%' => some [37]
  | _ => none

/-- Writes a moment by a pattern, unless there is a field in it that is not understood. -/
def render? (m : Moment) : Bytes → Option Bytes
  | [] => some []
  | 37 :: [] => none
  | 37 :: letter :: rest => do
    let field ← m.renderField? (Char.ofNat letter.toNat)
    return field ++ (← render? m rest)
  | c :: rest => do return c :: (← render? m rest)

end Moment

end QueryMachine
