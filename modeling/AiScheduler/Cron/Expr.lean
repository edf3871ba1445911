/-
  **FIVE-FIELD CRON EXPRESSIONS** (`internal/pkg/cronexpr`): the parser with its error texts, the
  match of one instant, and `NextAfter`, the forward search over whole minutes.

  The process runs in UTC; the calendar is `package time`'s. `nextAfterIn` is `NextAfter` of a
  time in another zone of fixed offset.
-/
import AiScheduler.Lib.Successor
import AiScheduler.Model.Types
import Mathlib.Data.List.Basic

namespace AiScheduler.Cron

/-! ## Texts. -/

def isSpace (c : Char) : Bool :=
  let n := c.toNat
  n ∈ [9, 10, 11, 12, 13, 32, 0x85, 0xA0, 0x1680, 0x2028, 0x2029, 0x202F, 0x205F, 0x3000]
    || (0x2000 ≤ n && n ≤ 0x200A)

def trimSpace (cs : List Char) : List Char :=
  ((cs.dropWhile isSpace).reverse.dropWhile isSpace).reverse

/-- `strings.Split(s, sep)` for a one-character separator. -/
def split (sep : Char) : List Char → List (List Char)
  | [] => [[]]
  | c :: cs =>
    if c = sep then [] :: split sep cs
    else
      match split sep cs with
      | [] => [[c]]
      | p :: ps => (c :: p) :: ps

/-- `strings.Fields`: the maximal runs without white space. -/
def fields (cs : List Char) : List (List Char) :=
  (split ' ' (cs.map (fun c => if isSpace c then ' ' else c))).filter (fun p => !p.isEmpty)

def digit (c : Char) : Option Nat :=
  if 48 ≤ c.toNat ∧ c.toNat ≤ 57 then some (c.toNat - 48) else none

/-- A non-empty string of decimal digits, read after `acc`. -/
def digits (acc : Nat) : List Char → Option Nat
  | [] => some acc
  | c :: cs => (digit c).bind (fun d => digits (acc * 10 + d) cs)

/-- `strconv.Atoi`: an optional sign and digits, within 64 bits. -/
def atoi (cs : List Char) : Option Int := do
  let (neg, ds) := match cs with
    | '-' :: ds => (true, ds)
    | '+' :: ds => (false, ds)
    | ds => (false, ds)
  if ds.isEmpty then none
  else do
    let n ← digits 0 ds
    let v : Int := if neg then -(n : Int) else n
    if -9223372036854775808 ≤ v ∧ v ≤ 9223372036854775807 then some v else none

/-- `%q` of a printable text. -/
def quote (cs : List Char) : String :=
  "\"" ++ String.ofList (cs.flatMap (fun c =>
    if c.toNat = 34 ∨ c.toNat = 92 then [Char.ofNat 92, c] else [c])) ++ "\""

/-! ## Fields. -/

/-- `field`: a set of values, or any value. -/
structure Field where
  values : List Int
  any : Bool
  deriving DecidableEq, Repr

def Field.contains (f : Field) (value : Int) : Bool := f.any || value ∈ f.values

/-- `normalizeValue`: 7 is Sunday where it is allowed. -/
def normalizeValue (value : Int) (allowSevenSunday : Bool) : Int :=
  if allowSevenSunday ∧ value = 7 then 0 else value

def parseValue (text : List Char) (min max : Int) (allowSevenSunday : Bool) : Except Err Int :=
  match atoi text with
  | none => .error (.text ("invalid integer " ++ quote text))
  | some value =>
    let normalized := normalizeValue value allowSevenSunday
    if normalized < min ∨ normalized > max then
      .error (.text s!"value {value} out of range [{min},{max}]")
    else .ok value

def parseRange (base : List Char) (min max : Int) (allowSevenSunday : Bool) :
    Except Err (Int × Int) :=
  if base = ['*'] then .ok (min, max)
  else if '-' ∈ base then
    match split '-' base with
    | [a, b] => do
      let start ← parseValue a min max allowSevenSunday
      let stop ← parseValue b min max allowSevenSunday
      if start > stop then
        .error (.text ("range start greater than end in " ++ quote base))
      else .ok (start, stop)
    | _ => .error (.text ("invalid range " ++ quote base))
  else do
    let value ← parseValue base min max allowSevenSunday
    .ok (value, value)

/-- The loop of `addSegment` on 64-bit integers: `value += step` raises `value` or wraps below zero,
where the range check stops it, so `end - start + 2` passes are enough. -/
def addValues (stop step min max : Int) (allowSevenSunday : Bool) :
    Nat → Int → List Int → Except Err (List Int)
  | 0, _, values => .ok values
  | fuel + 1, value, values =>
    if value ≤ stop then
      let normalized := normalizeValue value allowSevenSunday
      if normalized < min ∨ normalized > max then
        .error (.text s!"value {value} out of range")
      else
        addValues stop step min max allowSevenSunday fuel (wrap64 (value + step))
          (values ++ [normalized])
    else .ok values

def addSegment (values : List Int) (segment : List Char) (min max : Int)
    (allowSevenSunday : Bool) : Except Err (List Int) := do
  let (base, step) ←
    if '/' ∈ segment then
      match split '/' segment with
      | [base, text] =>
        match atoi text with
        | some step =>
          if step ≤ 0 then
            Except.error (Err.text ("invalid step value in " ++ quote segment))
          else .ok (base, step)
        | none => .error (.text ("invalid step value in " ++ quote segment))
      | _ => .error (.text ("invalid step segment " ++ quote segment))
    else .ok (segment, 1)
  let (start, stop) ← parseRange base min max allowSevenSunday
  addValues stop step min max allowSevenSunday ((stop - start).toNat + 2) start values

/-- The list loop of `parseField`. -/
def addSegments (min max : Int) (allowSevenSunday : Bool) :
    List (List Char) → List Int → Except Err (List Int)
  | [], values => .ok values
  | part :: parts, values =>
    let part := trimSpace part
    if part.isEmpty then .error (.text "empty list segment")
    else do
      let values ← addSegment values part min max allowSevenSunday
      addSegments min max allowSevenSunday parts values

def parseField (token : List Char) (min max : Int) (allowSevenSunday : Bool) :
    Except Err Field :=
  let token := trimSpace token
  if token.isEmpty then .error (.text "empty field")
  else if token = ['*'] then .ok { values := [], any := true }
  else do
    let values ← addSegments min max allowSevenSunday (split ',' token) []
    .ok { values := values, any := false }

/-! ## Schedules. -/

structure Schedule where
  minute : Field
  hour : Field
  day : Field
  month : Field
  week : Field
  deriving DecidableEq, Repr

/-- `fmt.Errorf("context: %w", err)` around a step. -/
def wrapping {α : Type} (context : String) : Except Err α → Except Err α
  | .ok a => .ok a
  | .error e => .error (.wrap context e)

def parse (expr : String) : Except Err Schedule :=
  match fields (trimSpace expr.toList) with
  | [p0, p1, p2, p3, p4] => do
    let minute ← wrapping "parse minute field" (parseField p0 0 59 false)
    let hour ← wrapping "parse hour field" (parseField p1 0 23 false)
    let day ← wrapping "parse day-of-month field" (parseField p2 1 31 false)
    let month ← wrapping "parse month field" (parseField p3 1 12 false)
    let week ← wrapping "parse day-of-week field" (parseField p4 0 6 true)
    .ok { minute, hour, day, month, week }
  | _ => .error (.text "cron expression must contain 5 fields")

def validate (expr : String) : Except Err Unit := (parse expr).map (fun _ => ())

/-- Whole days since January 1, year 1. -/
def dayNumber (t : Int) : Int := t / second / 86400

/-- `t.Minute()`. -/
def minuteOf (t : Int) : Int := t / second / 60 % 60

/-- `t.Hour()`. -/
def hourOf (t : Int) : Int := t / second / 3600 % 24

/-- `t.Weekday()`; January 1, year 1 was a Monday. -/
def weekdayOf (t : Int) : Int := (dayNumber t + 1) % 7

/-- Day within the 400-year era that starts on March 1, year 0. -/
def dayOfEra (t : Int) : Int := (dayNumber t + 306) % 146097

/-- Day within the year that starts on March 1. -/
def dayOfMarchYear (t : Int) : Int :=
  let doe := dayOfEra t
  let yoe := (doe - doe / 1460 + doe / 36524 - doe / 146096) / 365
  doe - (365 * yoe + yoe / 4 - yoe / 100)

/-- `t.Month()`. -/
def monthOf (t : Int) : Int :=
  let mp := (5 * dayOfMarchYear t + 2) / 153
  if mp < 10 then mp + 3 else mp - 9

/-- `t.Day()`. -/
def dayOf (t : Int) : Int :=
  let doy := dayOfMarchYear t
  let mp := (5 * doy + 2) / 153
  doy - (153 * mp + 2) / 5 + 1

def Schedule.matches (s : Schedule) (t : Int) : Bool :=
  if !s.minute.contains (minuteOf t) || !s.hour.contains (hourOf t)
      || !s.month.contains (monthOf t) then false
  else
    let dayMatch := s.day.contains (dayOf t)
    let weekMatch := s.week.contains (weekdayOf t)
    if s.day.any && s.week.any then true
    else if s.day.any then weekMatch
    else if s.week.any then dayMatch
    else dayMatch || weekMatch

/-! ## The next matching minute. -/

def searchLimitMinutes : Nat := 5 * 366 * 24 * 60

/-- The loop of `NextAfter`. -/
def search (s : Schedule) : Nat → Int → Option Int
  | 0, _ => none
  | n + 1, candidate =>
    if s.matches candidate then some candidate else search s n (candidate + minute)

/-- `t.Truncate(time.Minute)`. -/
def truncateMinute (t : Int) : Int := t - t % minute

def nextAfter (now : Int) (expr : String) : Except Err Int :=
  match parse expr with
  | .error e => .error e
  | .ok schedule =>
    match search schedule searchLimitMinutes (truncateMinute now + minute) with
    | some t => .ok t
    | none => .error (.text ("no matching time found for cron expression " ++ quote expr.toList))

/-- `NextAfter` in a zone `offset` ahead of UTC: `Truncate` works on the absolute time. -/
def nextAfterIn (offset now : Int) (expr : String) : Except Err Int :=
  match parse expr with
  | .error e => .error e
  | .ok schedule =>
    match Lib.firstFrom (fun t => schedule.matches (t + offset)) minute searchLimitMinutes
        (truncateMinute now + minute) with
    | some t => .ok t
    | none => .error (.text ("no matching time found for cron expression " ++ quote expr.toList))

theorem search_eq_firstFrom (s : Schedule) :
    ∀ (n : Nat) (candidate : Int), search s n candidate
        = Lib.firstFrom s.matches minute n candidate := by
  intro n
  induction n with
  | zero =>
    intro candidate
    rfl
  | succ n ih =>
    intro candidate
    unfold search Lib.firstFrom
    rw [ih]

theorem nextAfterIn_zero (now : Int) (expr : String) :
    nextAfterIn 0 now expr = nextAfter now expr := by
  unfold nextAfterIn nextAfter
  simp only [Int.add_zero, search_eq_firstFrom]

theorem le_of_search {s : Schedule} {t : Int} :
    ∀ (n : Nat) (candidate : Int), search s n candidate = some t → candidate ≤ t := by
  intro n
  induction n with
  | zero =>
    intro candidate h
    simp [search] at h
  | succ n ih =>
  intro candidate h
  unfold search at h
  split at h
  · injection h with h
    omega
  · have hle := ih (candidate + minute) h
    have hpos : (0 : Int) < minute := by decide
    omega

theorem lt_of_nextAfter {now t : Int} {expr : String} (h : nextAfter now expr = .ok t) :
    now < t := by
  unfold nextAfter at h
  split at h
  next => cases h
  next schedule _ =>
    split at h
    next t' hs =>
      injection h with h
      subst h
      have hle := le_of_search _ _ hs
      have hpos : (0 : Int) < minute := by decide
      have hmod : now % minute < minute := Int.emod_lt_of_pos now hpos
      show now < t'
      unfold truncateMinute at hle
      omega
    next => cases h

theorem nextAfter_empty (now : Int) :
    nextAfter now "" = .error (.text "cron expression must contain 5 fields") := by
  have hparse : parse "" = .error (.text "cron expression must contain 5 fields") := by decide
  unfold nextAfter
  rw [hparse]

-- April 27, 2026, 14:03:24 UTC, a Monday
example : nextAfter (unixEpoch + 1777298604 * second) "*/5 * * * *"
    = .ok (unixEpoch + 1777298700 * second) := by rfl

end AiScheduler.Cron
