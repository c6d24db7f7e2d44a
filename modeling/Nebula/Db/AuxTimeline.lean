import Nebula.Lib.StableSort
import Nebula.Lib.DecimalText
import Mathlib.Algebra.GroupWithZero.Nat
import Mathlib.Data.List.Dedup
import Mathlib.Data.Prod.Lex
import Mathlib.Order.WithBot

/- The aux codes of a day: records with a range of clock times and a code, and the timeline
   of codes that they give for one day of a time zone. Instants count nanoseconds; the
   calendar, the rules of the zone and the reading of clock times are the library's. -/
namespace AuxTimeline

abbrev Text := List Char

def SECOND : Int := 1000000000
def MINUTE : Int := 60 * SECOND
def HOUR : Int := 60 * MINUTE
def DAY : Int := 24 * HOUR

/-- A clock time of hours and minutes. -/
abbrev Clock := Fin 24 × Fin 60

structure Chrono where
  /-- what the zone's local time is ahead of the instant -/
  offset : Int → Int
  /-- the instant of a local time, when there is exactly one -/
  fromLocal : Int → Option Int
  single : ∀ localTime instant, fromLocal localTime = some instant ↔
    instant + offset instant = localTime ∧
      ∀ other, other + offset other = localTime → other = instant
  /-- the last instant that can be written -/
  latest : Int
  /-- the calendar of the local days, counted in days -/
  year : Int → Int
  month : Int → Nat
  day : Int → Nat
  weekday : Int → Fin 7
  /-- the texts of months, weekdays and clock times `%H:%M` -/
  monthNumber : Text → Option Nat
  weekdayNumber : Text → Option (Fin 7)
  clockTime : Text → Option Clock

structure AuxRecord where
  time : Text
  code : Text

inductive Format where
  | day
  | month
  | weekday
  | year
  | timeRange
  | other
  deriving DecidableEq

section Chrono
variable (chrono : Chrono)

def naiveLocal (time : Int) : Int := time + chrono.offset time

def date (time : Int) : Int := naiveLocal chrono time / DAY

def withHour (hour : Fin 24) (time : Int) : Option Int :=
  chrono.fromLocal (date chrono time * DAY + hour.val * HOUR + naiveLocal chrono time % HOUR)

def withMinute (minute : Fin 60) (time : Int) : Option Int :=
  chrono.fromLocal (naiveLocal chrono time / HOUR * HOUR + minute.val * MINUTE +
    naiveLocal chrono time % MINUTE)

def withSecond (second : Fin 60) (time : Int) : Option Int :=
  chrono.fromLocal (naiveLocal chrono time / MINUTE * MINUTE + second.val * SECOND +
    naiveLocal chrono time % SECOND)

def withNanosecond (nano : Nat) (time : Int) : Option Int :=
  chrono.fromLocal (naiveLocal chrono time / SECOND * SECOND + nano)

def checkedAdd (time duration : Int) : Option Int :=
  if time + duration ≤ chrono.latest then some (time + duration) else none

/-- The chain of `with_` calls that every clock time of the day is made by. -/
def atClock (clock : Clock) (time : Int) : Option Int :=
  (withHour chrono clock.1 time).bind fun time =>
    (withMinute chrono clock.2 time).bind fun time =>
      (withSecond chrono 0 time).bind (withNanosecond chrono 0)

def beginningOfDay (time : Int) : Option Int := atClock chrono (0, 0) time

def endOfDay (time : Int) : Option Int :=
  (atClock chrono (0, 0) time).bind fun start => checkedAdd chrono start (86400 * SECOND)

def twoDigits (value : Nat) : Text :=
  if value < 10 then '0' :: DecimalText.digits value else DecimalText.digits value

def minutes (clock : Clock) : Nat := 60 * clock.1.val + clock.2.val

def checkTimeRange (time : Int) (text : Text) : Option Bool :=
  let hour := naiveLocal chrono time % DAY / HOUR
  let minute := naiveLocal chrono time % HOUR / MINUTE
  let current := twoDigits hour.toNat ++ ':' :: twoDigits minute.toNat
  (chrono.clockTime current).bind fun now =>
    match text.splitOn '-' with
    | [_] => some (text == current)
    | [first, last] =>
      (chrono.clockTime first).bind fun start =>
        (chrono.clockTime last).map fun stop =>
          if minutes start ≤ minutes stop then
            decide (minutes start ≤ minutes now ∧ minutes now ≤ minutes stop)
          else !decide (minutes stop < minutes now ∧ minutes now < minutes start)
    | _ => none

def checkFormattedTime (time : Int) (text : Text) (format : Format) : Option Bool :=
  if text = ['*'] then some true
  else match format with
    | .day => (DecimalText.readBelow (2 ^ 32) text).map fun value =>
      chrono.day (date chrono time) == value
    | .month => (chrono.monthNumber text).map fun value => chrono.month (date chrono time) == value
    | .weekday => (chrono.weekdayNumber text).map fun value =>
      chrono.weekday (date chrono time) == value
    | .year => (DecimalText.readInt32 text).map fun value =>
      chrono.year (date chrono time) == value.toInt
    | .timeRange => checkTimeRange chrono time text
    | .other => none

/-- The instants of a clock time or of a range of them, on the day of the given time. -/
def clockRange (time : Int) (text : Text) : Option (Int × Int) :=
  if text = ['*'] then
    (beginningOfDay chrono time).bind fun start =>
      (endOfDay chrono time).map fun stop => (start, stop)
  else match text.splitOn '-' with
    | [single] =>
      (chrono.clockTime single).bind fun clock =>
        (atClock chrono clock time).bind fun start =>
          (checkedAdd chrono start (60 * SECOND)).map fun stop => (start, stop)
    | [first, last] =>
      (chrono.clockTime first).bind fun first =>
        (chrono.clockTime last).bind fun last =>
          (atClock chrono first time).bind fun start =>
            (atClock chrono last time).map fun stop => (start, stop)
    | _ => none

def timeRangeOfTheDay (time : Int) (text : Text) : Option (Int × Int) :=
  let parts := text.splitOn ','
  if parts.length < 4 then none
  else
    (if parts.length = 5 then checkFormattedTime chrono time (parts.getD 4 []) .year
      else some true).bind fun year =>
    -- a part that does not fit and one that cannot be read both end without a range
    if checkFormattedTime chrono time (parts.getD 1 []) .weekday = some true ∧
        checkFormattedTime chrono time (parts.getD 2 []) .day = some true ∧
        checkFormattedTime chrono time (parts.getD 3 []) .month = some true ∧ year = true then
      clockRange chrono time (parts.getD 0 [])
    else none

/-- What the records are sorted by: a range that wraps comes before every range of the day. -/
def sortKey (range : Int × Int) : Int ×ₗ Int :=
  if range.1 ≤ range.2 then toLex range
  else toLex ((beginningOfDay chrono range.1).getD range.2,
    (beginningOfDay chrono range.1).getD range.1)

def inRange (time : Int) (range : Int × Int) : Bool :=
  if range.1 ≤ range.2 then decide (range.1 ≤ time ∧ time < range.2)
  else !decide (range.2 ≤ time ∧ time < range.1) && date chrono time == date chrono range.1

/-- The records that apply on the day, with their ranges. -/
def applicable (time : Int) (records : List AuxRecord) : List ((Int × Int) × Text) :=
  records.filterMap fun record =>
    (timeRangeOfTheDay chrono time record.time).map fun range => (range, record.code)

def sampledTimes (time : Int) (records : List AuxRecord) : List Int :=
  (beginningOfDay chrono time).toList ++ (endOfDay chrono time).toList ++
    (applicable chrono time records).flatMap fun item => [item.1.1, item.1.2]

def checkCode (records : List ((Int × Int) × Text)) (time : Int) : Option Text :=
  (records.find? fun item => inRange chrono time item.1).map (·.2)

def AVAILABLE : Text := ['a', 'v', 'a', 'i', 'l', 'a', 'b', 'l', 'e']

def formatAuxRecords (time : Int) (records : List AuxRecord) : List (Int × Text) :=
  let sorted := (StableSort.byKey (fun item => sortKey chrono item.1)
    (applicable chrono time records)).reverse
  let times := StableSort.byKey (fun time => time) (sampledTimes chrono time records).dedup
  times.map fun time => (time, (checkCode chrono sorted time).getD AVAILABLE)

end Chrono

section Specification
variable {Rank : Type} [LinearOrder Rank]

/-- A range without wrapping is half open; one that wraps is the day's two ends. -/
def covers (begins ends : Int) (range : Int × Int) (time : Int) : Bool :=
  if range.1 ≤ range.2 then decide (range.1 ≤ time ∧ time < range.2)
  else decide ((begins ≤ time ∧ time < range.2) ∨ (range.1 ≤ time ∧ time < ends))

/-- The code of the record that covers the instant and ranks highest, the later one among
    equals, or `available` where no record covers it. -/
def CodeAt (rank : Int × Int → Rank) (begins ends : Int) (records : List ((Int × Int) × Text))
    (time : Int) (code : Text) : Prop :=
  (∃ item, StableSort.Chosen (fun item => rank item.1) (fun item => covers begins ends item.1 time)
    records item ∧ code = item.2) ∨
  ((∀ item ∈ records, covers begins ends item.1 time = false) ∧ code = AVAILABLE)

/-- The entry in force at an instant: the last one that is not after it. -/
def lastBefore (entries : List (Int × Text)) (time : Int) : Option (Int × Text) :=
  entries.reverse.find? fun entry => decide (entry.1 ≤ time)

structure Timeline (begins ends : Int) (codeAt : Int → Text → Prop)
    (entries : List (Int × Text)) : Prop where
  ascending : (entries.map (·.1)).Pairwise (· < ·)
  first : (entries.map (·.1)).head? = some begins
  last : (entries.map (·.1)).getLast? = some ends
  codes : ∀ time, begins ≤ time → time < ends →
    ∃ entry, lastBefore entries time = some entry ∧ codeAt time entry.2

/-- Ranges that wrap rank below every other, and all the same. -/
def rank (range : Int × Int) : WithBot (Int ×ₗ Int) :=
  if range.1 ≤ range.2 then WithBot.some (toLex range) else ⊥

/-- Ranges that wrap rank below every other, and by their start and end among themselves. -/
def rankByRange (range : Int × Int) : Nat ×ₗ Int ×ₗ Int :=
  toLex (if range.1 ≤ range.2 then 1 else 0, toLex range)

/-- A day whose instants all have one offset, and whose end can be written. -/
structure PlainDay (chrono : Chrono) (day offset : Int) : Prop where
  own : ∀ time, date chrono time = day → chrono.offset time = offset
  whole : ∀ time, (time + offset) / DAY = day → chrono.offset time = offset
  written : (day + 1) * DAY - offset ≤ chrono.latest

end Specification

def dayBegins (day offset : Int) : Int := day * DAY - offset

def dayEnds (day offset : Int) : Int := dayBegins day offset + DAY

section Day
variable {chrono : Chrono} {day offset : Int}

theorem fromLocal_plain (plain : PlainDay chrono day offset) {localTime : Int}
    (own : localTime / DAY = day) :
    chrono.fromLocal localTime = some (localTime - offset) ∧
      naiveLocal chrono (localTime - offset) = localTime := by
  have same : chrono.offset (localTime - offset) = offset :=
    plain.whole _ (by rw [Int.sub_add_cancel]; exact own)
  have back : naiveLocal chrono (localTime - offset) = localTime := by
    rw [naiveLocal, same, Int.sub_add_cancel]
  refine ⟨(chrono.single _ _).mpr ⟨back, ?_⟩, back⟩
  intro other shows
  have on_day : date chrono other = day := by rw [date, naiveLocal, shows]; exact own
  rw [plain.own other on_day] at shows
  omega

theorem atClock_plain (plain : PlainDay chrono day offset) {time : Int}
    (on_day : date chrono time = day) (clock : Clock) :
    atClock chrono clock time =
      some (dayBegins day offset + clock.1.val * HOUR + clock.2.val * MINUTE) := by
  obtain ⟨hour, minute⟩ := clock
  have hours := hour.isLt
  have minutes := minute.isLt
  unfold date at on_day
  unfold atClock withHour withMinute withSecond withNanosecond date dayBegins
  generalize naiveLocal chrono time = start at on_day ⊢
  rw [on_day]
  have first : (day * DAY + hour.val * HOUR + start % HOUR) / DAY = day := by
    simp only [DAY, HOUR, MINUTE, SECOND] at on_day ⊢
    omega
  obtain ⟨read, shows⟩ := fromLocal_plain plain first
  rw [read, Option.bind_some, shows]
  generalize reached : day * DAY + hour.val * HOUR + start % HOUR = now at shows
  have second : (now / HOUR * HOUR + minute.val * MINUTE + now % MINUTE) / DAY = day := by
    simp only [DAY, HOUR, MINUTE, SECOND] at on_day reached ⊢
    omega
  obtain ⟨read, shows⟩ := fromLocal_plain plain second
  rw [read, Option.bind_some, shows]
  generalize moved : now / HOUR * HOUR + minute.val * MINUTE + now % MINUTE = later at shows
  have third :
      (later / MINUTE * MINUTE + (0 : Fin 60).val * SECOND + later % SECOND) / DAY = day := by
    simp only [DAY, HOUR, MINUTE, SECOND, Fin.val_zero] at on_day reached moved ⊢
    omega
  obtain ⟨read, shows⟩ := fromLocal_plain plain third
  rw [read, Option.bind_some, shows]
  have exact_time :
      (later / MINUTE * MINUTE + (0 : Fin 60).val * SECOND + later % SECOND) / SECOND * SECOND +
        (0 : Nat) = day * DAY + hour.val * HOUR + minute.val * MINUTE := by
    simp only [DAY, HOUR, MINUTE, SECOND, Fin.val_zero] at on_day reached moved ⊢
    omega
  rw [exact_time]
  have last : (day * DAY + hour.val * HOUR + minute.val * MINUTE) / DAY = day := by
    simp only [DAY, HOUR, MINUTE, SECOND]
    omega
  rw [(fromLocal_plain plain last).1, Option.some_inj]
  dsimp only
  omega

theorem clock_within (day offset : Int) (clock : Clock) :
    dayBegins day offset ≤
        dayBegins day offset + clock.1.val * HOUR + clock.2.val * MINUTE ∧
      dayBegins day offset + clock.1.val * HOUR + clock.2.val * MINUTE + 60 * SECOND ≤
        dayEnds day offset := by
  have hours := clock.1.isLt
  have minutes := clock.2.isLt
  simp only [dayEnds, DAY, HOUR, MINUTE, SECOND]
  omega

theorem beginningOfDay_plain (plain : PlainDay chrono day offset) {time : Int}
    (on_day : date chrono time = day) :
    beginningOfDay chrono time = some (dayBegins day offset) := by
  rw [beginningOfDay, atClock_plain plain on_day, Option.some_inj]
  simp only [Fin.val_zero]
  omega

theorem checkedAdd_plain (plain : PlainDay chrono day offset) {time duration : Int}
    (within : time + duration ≤ dayEnds day offset) :
    checkedAdd chrono time duration = some (time + duration) := by
  have written := plain.written
  rw [checkedAdd, if_pos]
  unfold dayEnds dayBegins at within
  rw [Int.add_mul] at written
  omega

theorem endOfDay_plain (plain : PlainDay chrono day offset) {time : Int}
    (on_day : date chrono time = day) :
    endOfDay chrono time = some (dayEnds day offset) := by
  have start := beginningOfDay_plain plain on_day
  unfold beginningOfDay at start
  rw [endOfDay, start, Option.bind_some]
  exact checkedAdd_plain plain (le_refl _)

/-- Every range of the day starts on the day, and ends there or at its end. -/
def Within (day offset : Int) (range : Int × Int) : Prop :=
  dayBegins day offset ≤ range.1 ∧ range.1 < dayEnds day offset ∧
    dayBegins day offset ≤ range.2 ∧ range.2 ≤ dayEnds day offset

theorem clockRange_within (plain : PlainDay chrono day offset) {time : Int}
    (on_day : date chrono time = day) {text : Text} {range : Int × Int}
    (shape : clockRange chrono time text = some range) : Within day offset range := by
  have minute : (0 : Int) < 60 * SECOND := by decide
  unfold clockRange at shape
  split at shape
  · rw [beginningOfDay_plain plain on_day, endOfDay_plain plain on_day] at shape
    cases shape
    have full : (0 : Int) < DAY := by decide
    dsimp only [Within, dayEnds]
    omega
  · split at shape
    · obtain ⟨clock, _, shape⟩ := Option.bind_eq_some_iff.mp shape
      rw [atClock_plain plain on_day, Option.bind_some,
        checkedAdd_plain plain (clock_within day offset clock).2] at shape
      cases shape
      have within := clock_within day offset clock
      dsimp only [Within]
      omega
    · obtain ⟨first, _, shape⟩ := Option.bind_eq_some_iff.mp shape
      obtain ⟨last, _, shape⟩ := Option.bind_eq_some_iff.mp shape
      rw [atClock_plain plain on_day, atClock_plain plain on_day] at shape
      cases shape
      have early := clock_within day offset first
      have late := clock_within day offset last
      dsimp only [Within]
      omega
    · cases shape

theorem timeRange_within (plain : PlainDay chrono day offset) {time : Int}
    (on_day : date chrono time = day) {text : Text} {range : Int × Int}
    (shape : timeRangeOfTheDay chrono time text = some range) : Within day offset range := by
  unfold timeRangeOfTheDay at shape
  simp only at shape
  split at shape
  · cases shape
  · obtain ⟨year, _, shape⟩ := Option.bind_eq_some_iff.mp shape
    split at shape
    · exact clockRange_within plain on_day shape
    · cases shape

theorem applicable_within (plain : PlainDay chrono day offset) {time : Int}
    (on_day : date chrono time = day) {records : List AuxRecord} {item : (Int × Int) × Text}
    (member : item ∈ applicable chrono time records) : Within day offset item.1 := by
  obtain ⟨record, _, shape⟩ := List.mem_filterMap.mp member
  obtain ⟨range, read, rfl⟩ := Option.map_eq_some_iff.mp shape
  exact timeRange_within plain on_day read

theorem mem_day {time : Int} (plain : PlainDay chrono day offset)
    (early : dayBegins day offset ≤ time) (late : time < dayEnds day offset) :
    date chrono time = day := by
  have on_day : (time + offset) / DAY = day := by
    simp only [dayBegins, dayEnds, DAY, HOUR, MINUTE, SECOND] at early late ⊢
    omega
  rw [date, naiveLocal, plain.whole time on_day]
  exact on_day

theorem covers_of_inRange (plain : PlainDay chrono day offset) {range : Int × Int}
    (within : Within day offset range) {time : Int} (early : dayBegins day offset ≤ time)
    (late : time < dayEnds day offset) :
    inRange chrono time range = covers (dayBegins day offset) (dayEnds day offset) range time := by
  have same : date chrono time = date chrono range.1 :=
    (mem_day plain early late).trans (mem_day plain within.1 within.2.1).symm
  unfold inRange covers
  rw [same, beq_self_eq_true, Bool.and_true]
  split
  · rfl
  · rw [← decide_not, decide_eq_decide]
    omega

/-- Between two sampled times no range begins or ends. -/
theorem covers_between {range : Int × Int} {begins ends sampled time : Int}
    (starts : range.1 ≤ time → range.1 ≤ sampled) (stops : range.2 ≤ time → range.2 ≤ sampled)
    (first : begins ≤ sampled) (before : sampled ≤ time) (last : time < ends) :
    covers begins ends range sampled = covers begins ends range time := by
  unfold covers
  split
  · rw [decide_eq_decide]
    omega
  · rw [decide_eq_decide]
    omega

theorem sortKey_order (plain : PlainDay chrono day offset) {one two : Int × Int} {time : Int}
    (within : Within day offset one) (within' : Within day offset two)
    (covered : covers (dayBegins day offset) (dayEnds day offset) one time = true)
    (covered' : covers (dayBegins day offset) (dayEnds day offset) two time = true) :
    StableSort.SameOrder (sortKey chrono) rank one two := by
  have start : ∀ {range : Int × Int}, Within day offset range →
      beginningOfDay chrono range.1 = some (dayBegins day offset) := by
    intro range inside
    exact beginningOfDay_plain plain (mem_day plain inside.1 inside.2.1)
  have low : ∀ {range : Int × Int}, Within day offset range → range.1 ≤ range.2 →
      covers (dayBegins day offset) (dayEnds day offset) range time = true →
      toLex (dayBegins day offset, dayBegins day offset) < toLex range := by
    intro range inside normal shown
    unfold covers at shown
    rw [if_pos normal, decide_eq_true_eq] at shown
    rw [Prod.Lex.toLex_lt_toLex]
    unfold Within at inside
    dsimp only
    omega
  unfold StableSort.SameOrder sortKey rank
  rw [start within, start within', Option.getD_some, Option.getD_some]
  by_cases normal : one.1 ≤ one.2
  · by_cases normal' : two.1 ≤ two.2
    · rw [if_pos normal, if_pos normal', if_pos normal, if_pos normal']
      exact WithBot.coe_le_coe.symm
    · rw [if_pos normal, if_neg normal', if_pos normal, if_neg normal']
      have above := low within normal covered
      exact iff_of_false (not_le_of_gt above) (not_le_of_gt (WithBot.bot_lt_coe _))
  · by_cases normal' : two.1 ≤ two.2
    · rw [if_neg normal, if_pos normal', if_neg normal, if_pos normal']
      have above := low within' normal' covered'
      exact iff_of_true (le_of_lt above) bot_le
    · rw [if_neg normal, if_neg normal', if_neg normal, if_neg normal']
      exact iff_of_true (le_refl _) (le_refl _)

/-- What the code shows at a sampled time is the code of the whole stretch up to the next. -/
theorem checkCode_codeAt (plain : PlainDay chrono day offset) {items : List ((Int × Int) × Text)}
    (inside : ∀ item ∈ items, Within day offset item.1) {sampled time : Int}
    (starts : ∀ item ∈ items, item.1.1 ≤ time → item.1.1 ≤ sampled)
    (stops : ∀ item ∈ items, item.1.2 ≤ time → item.1.2 ≤ sampled)
    (first : dayBegins day offset ≤ sampled) (before : sampled ≤ time)
    (last : time < dayEnds day offset) :
    CodeAt rank (dayBegins day offset) (dayEnds day offset) items time
      ((checkCode chrono (StableSort.byKey (fun item => sortKey chrono item.1) items).reverse
        sampled).getD AVAILABLE) := by
  have same : ∀ item ∈ items, inRange chrono sampled item.1 =
      covers (dayBegins day offset) (dayEnds day offset) item.1 time := by
    intro item member
    rw [covers_of_inRange plain (inside item member) first (by omega)]
    exact covers_between (starts item member) (stops item member) first before last
  have search := StableSort.find_byKey (fun item : (Int × Int) × Text => sortKey chrono item.1)
    (fun item => inRange chrono sampled item.1) items
  unfold checkCode
  cases result : (StableSort.byKey (fun item => sortKey chrono item.1) items).reverse.find?
    fun item => inRange chrono sampled item.1 with
  | none =>
    refine Or.inr ⟨?_, rfl⟩
    intro item member
    rw [← same item member]
    exact search.2 result item member
  | some found =>
    have chosen := (search.1 found result).of_keep same
    refine Or.inl ⟨found, chosen.of_order ?_, rfl⟩
    intro one member two member' covered covered'
    exact sortKey_order plain (inside one member) (inside two member') covered covered'

theorem times_within (plain : PlainDay chrono day offset) {time : Int}
    (on_day : date chrono time = day) {records : List AuxRecord} {sampled : Int}
    (member : sampled ∈ sampledTimes chrono time records) :
    dayBegins day offset ≤ sampled ∧ sampled ≤ dayEnds day offset := by
  have full : (0 : Int) < DAY := by decide
  unfold sampledTimes at member
  rw [beginningOfDay_plain plain on_day, endOfDay_plain plain on_day] at member
  rcases List.mem_append.mp member with ends | boundary
  · rcases List.mem_append.mp ends with first | last
    · rw [List.mem_singleton.mp first, dayEnds]
      omega
    · rw [List.mem_singleton.mp last, dayEnds]
      omega
  · obtain ⟨item, applies, boundary⟩ := List.mem_flatMap.mp boundary
    obtain ⟨early, late, low, high⟩ := applicable_within plain on_day applies
    rcases List.mem_cons.mp boundary with rfl | rest
    · omega
    · rw [List.mem_singleton.mp rest]
      omega

theorem mem_times {time : Int} {records : List AuxRecord} {sampled : Int} :
    sampled ∈ StableSort.byKey (fun time => time) (sampledTimes chrono time records).dedup ↔
      sampled ∈ sampledTimes chrono time records := by
  rw [(StableSort.perm_byKey _ _).mem_iff, List.mem_dedup]

theorem times_ascending (time : Int) (records : List AuxRecord) :
    (StableSort.byKey (fun time => time) (sampledTimes chrono time records).dedup).Pairwise
      (· < ·) := by
  have once := (StableSort.perm_byKey (fun time => time)
    (sampledTimes chrono time records).dedup).nodup_iff.mpr (List.nodup_dedup _)
  exact ((StableSort.byKey_sorted _ _).and once).imp fun both => lt_of_le_of_ne both.1 both.2

theorem begins_sampled (plain : PlainDay chrono day offset) {time : Int}
    (on_day : date chrono time = day) (records : List AuxRecord) :
    dayBegins day offset ∈ sampledTimes chrono time records := by
  unfold sampledTimes
  rw [beginningOfDay_plain plain on_day]
  exact List.mem_append_left _ (List.mem_append_left _ (List.mem_singleton.mpr rfl))

theorem ends_sampled (plain : PlainDay chrono day offset) {time : Int}
    (on_day : date chrono time = day) (records : List AuxRecord) :
    dayEnds day offset ∈ sampledTimes chrono time records := by
  unfold sampledTimes
  rw [endOfDay_plain plain on_day]
  exact List.mem_append_left _ (List.mem_append_right _ (List.mem_singleton.mpr rfl))

theorem formatAuxRecords_times (time : Int) (records : List AuxRecord) :
    (formatAuxRecords chrono time records).map (·.1) =
      StableSort.byKey (fun time => time) (sampledTimes chrono time records).dedup := by
  unfold formatAuxRecords
  rw [List.map_map]
  exact List.map_id _

/-- The last sampled time that is not after an instant of the day. -/
theorem lastBefore_sampled (plain : PlainDay chrono day offset) {time : Int}
    (on_day : date chrono time = day) (records : List AuxRecord) {instant : Int}
    (early : dayBegins day offset ≤ instant) :
    ∃ sampled, lastBefore (formatAuxRecords chrono time records) instant = some (sampled,
        (checkCode chrono (StableSort.byKey (fun item => sortKey chrono item.1)
          (applicable chrono time records)).reverse sampled).getD AVAILABLE) ∧
      sampled ∈ sampledTimes chrono time records ∧ sampled ≤ instant ∧
      ∀ other ∈ sampledTimes chrono time records, other ≤ instant → other ≤ sampled := by
  have search := StableSort.find_byKey (fun time : Int => time)
    (fun time => decide (time ≤ instant)) (sampledTimes chrono time records).dedup
  unfold lastBefore formatAuxRecords
  dsimp only
  rw [← List.map_reverse, List.find?_map]
  unfold Function.comp
  dsimp only
  cases result : (StableSort.byKey (fun time => time)
      (sampledTimes chrono time records).dedup).reverse.find?
        fun time => decide (time ≤ instant) with
  | none =>
    have absent := search.2 result _ (List.mem_dedup.mpr (begins_sampled plain on_day records))
    exact absurd early (of_decide_eq_false absent)
  | some sampled =>
    have chosen := search.1 sampled result
    obtain ⟨_, _, _, kept, _⟩ := id chosen
    refine ⟨sampled, rfl, List.mem_dedup.mp chosen.mem, of_decide_eq_true kept, ?_⟩
    intro other member before
    exact chosen.greatest (List.mem_dedup.mpr member) (decide_eq_true before)

/-- The timeline of a day whose offset does not change: it runs from the day's beginning to
    its end, and shows at every instant the code of the record that ranks highest there. -/
theorem formatAuxRecords_timeline (chrono : Chrono) (day offset : Int)
    (plain : PlainDay chrono day offset) (time : Int) (on_day : date chrono time = day)
    (records : List AuxRecord) :
    Timeline (dayBegins day offset) (dayEnds day offset)
      (CodeAt rank (dayBegins day offset) (dayEnds day offset) (applicable chrono time records))
      (formatAuxRecords chrono time records) := by
  have ascending := @times_ascending chrono time records
  refine ⟨?_, ?_, ?_, ?_⟩
  · rw [formatAuxRecords_times]
    exact ascending
  · rw [formatAuxRecords_times]
    refine StableSort.head_of_first ascending
      (mem_times.mpr (begins_sampled plain on_day records)) ?_
    intro other member before
    have low := (times_within plain on_day (mem_times.mp member)).1
    omega
  · rw [formatAuxRecords_times, ← List.head?_reverse]
    refine StableSort.head_of_first (List.pairwise_reverse.mpr ascending)
      (List.mem_reverse.mpr (mem_times.mpr (ends_sampled plain on_day records))) ?_
    intro other member after
    have high := (times_within plain on_day (mem_times.mp (List.mem_reverse.mp member))).2
    omega
  · intro instant early late
    obtain ⟨sampled, shown, member, before, latest⟩ :=
      lastBefore_sampled plain on_day records early
    refine ⟨_, shown, ?_⟩
    have boundary : ∀ item ∈ applicable chrono time records,
        item.1.1 ∈ sampledTimes chrono time records ∧
          item.1.2 ∈ sampledTimes chrono time records := by
      intro item applies
      constructor
      · exact List.mem_append_right _ (List.mem_flatMap.mpr ⟨item, applies, by simp⟩)
      · exact List.mem_append_right _ (List.mem_flatMap.mpr ⟨item, applies, by simp⟩)
    refine checkCode_codeAt plain (fun item applies => applicable_within plain on_day applies)
      ?_ ?_ (times_within plain on_day member).1 before late
    · intro item applies started
      exact latest _ (boundary item applies).1 started
    · intro item applies stopped
      exact latest _ (boundary item applies).2 stopped

/-- A zone without offset, on Monday 20 November 2023. -/
def utc : Chrono where
  offset _ := 0
  fromLocal localTime := some localTime
  single := by
    intro localTime instant
    rw [Option.some_inj]
    constructor
    · rintro rfl
      exact ⟨Int.add_zero _, fun other same => by rw [← same, Int.add_zero]⟩
    · intro shows
      rw [← shows.1, Int.add_zero]
  latest := 95026602 * DAY - 1
  year _ := 2023
  month _ := 11
  day _ := 20
  weekday _ := 0
  monthNumber text := if text = "November".toList then some 11 else none
  weekdayNumber text := if text = "Mon".toList then some 0 else none
  clockTime
    | [tens, ones, ':', sixths, rest] =>
      match DecimalText.number [tens, ones], DecimalText.number [sixths, rest] with
      | some hour, some minute =>
        if hours : hour < 24 then
          if minutes : minute < 60 then some (⟨hour, hours⟩, ⟨minute, minutes⟩) else none
        else none
      | _, _ => none
    | _ => none

theorem utc_plain : PlainDay utc 19681 0 where
  own _ _ := rfl
  whole _ _ := rfl
  written := by decide

def twoNights : List AuxRecord :=
  [⟨"20:00-08:00,*,*,*,*".toList, "night".toList⟩, ⟨"18:00-09:00,*,*,*,*".toList, "off".toList⟩]

theorem formatAuxRecords_timeline_utc :
    date utc (19681 * DAY + 16 * HOUR + 39 * MINUTE) = 19681 ∧
      Timeline (dayBegins 19681 0) (dayEnds 19681 0)
        (CodeAt rank (dayBegins 19681 0) (dayEnds 19681 0)
          (applicable utc (19681 * DAY + 16 * HOUR + 39 * MINUTE) twoNights))
        (formatAuxRecords utc (19681 * DAY + 16 * HOUR + 39 * MINUTE) twoNights) :=
  ⟨by decide, formatAuxRecords_timeline utc 19681 0 utc_plain _ (by decide) twoNights⟩

/-- At 21:00 both nights cover the instant: the one that starts and ends later does not
    win, the later record does. -/
theorem wrapping_later_record_wins :
    ¬ ∀ (chrono : Chrono) (day offset : Int), PlainDay chrono day offset →
      ∀ time, date chrono time = day → ∀ records,
        Timeline (dayBegins day offset) (dayEnds day offset)
          (CodeAt rankByRange (dayBegins day offset) (dayEnds day offset)
            (applicable chrono time records))
          (formatAuxRecords chrono time records) := by
  intro claimed
  have timeline := claimed utc 19681 0 utc_plain (19681 * DAY + 16 * HOUR + 39 * MINUTE)
    (by decide) twoNights
  obtain ⟨entry, shown, code⟩ := timeline.codes (19681 * DAY + 21 * HOUR) (by decide) (by decide)
  have night : ((19681 * DAY + 20 * HOUR, 19681 * DAY + 8 * HOUR), "night".toList) ∈
      applicable utc (19681 * DAY + 16 * HOUR + 39 * MINUTE) twoNights := by decide +kernel
  have result : lastBefore (formatAuxRecords utc (19681 * DAY + 16 * HOUR + 39 * MINUTE) twoNights)
      (19681 * DAY + 21 * HOUR) = some (19681 * DAY + 20 * HOUR, "off".toList) := by
    decide +kernel
  rw [result] at shown
  cases shown
  rcases code with ⟨item, chosen, own⟩ | ⟨absent, _⟩
  · have best := chosen.greatest night (by decide +kernel)
    have low : ∀ item ∈ applicable utc (19681 * DAY + 16 * HOUR + 39 * MINUTE) twoNights,
        item.2 = "off".toList → ¬ rankByRange (19681 * DAY + 20 * HOUR, 19681 * DAY + 8 * HOUR) ≤
          rankByRange item.1 := by decide +kernel
    exact low item chosen.mem own.symm best
  · have uncovered := absent _ night
    revert uncovered
    decide +kernel

end Day

end AuxTimeline
