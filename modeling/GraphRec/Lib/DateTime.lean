import GraphRec.Lib.Buckets
import Mathlib.Data.Fintype.Defs

/-!
# Dates with a time of day

A `DateTime` is a date of the proleptic Gregorian calendar, by its ordinal, with a time of day and
maybe an offset from UTC.  The calendar has the years 1 to 9999, and arithmetic that leaves it
overflows.  `wall` counts the microseconds that the clock shows since the start of the calendar,
and `instant` those since the start of the calendar in UTC.

* `ofWall_wall`, `wall_ofWall` — a point of the calendar and what the clock shows determine each
  other;
* `startOfHour_wall`, `startOfDay_wall`, `startOfWeek` — the fields that are set to zero, and the
  days since Monday, round the clock down to its bucket.
-/

/-- An hour in microseconds. -/
def hourMicros : ℤ := 3600000000

/-- A day in microseconds. -/
def dayMicros : ℤ := 86400000000

/-- The last ordinal. -/
def maxOrdinal : ℕ := 3652059

/-- The end of the calendar. -/
def calendarEnd : ℤ := maxOrdinal * dayMicros

/-- A date and a time of day, with the offset from UTC if there is one. -/
structure DateTime where
  ordinal : ℕ
  hour : Fin 24
  minute : Fin 60
  second : Fin 60
  microsecond : Fin 1000000
  utcoffset : Option ℤ
  ordinal_mem : 1 ≤ ordinal ∧ ordinal ≤ maxOrdinal
  deriving DecidableEq, Repr

/-- `OverflowError`. -/
inductive OverflowError
  | outOfRange
  deriving DecidableEq, Repr

namespace DateTime

/-- What the clock shows, since the start of the calendar. -/
def wall (d : DateTime) : ℤ :=
  (d.ordinal - 1 : ℤ) * dayMicros +
    ((((d.hour : ℕ) : ℤ) * 60 + (d.minute : ℕ)) * 60 + (d.second : ℕ)) * 1000000 +
      (d.microsecond : ℕ)

/-- The point in time; without an offset, as if in UTC. -/
def instant (d : DateTime) : ℤ := d.wall - d.utcoffset.getD 0

/-- The date and the time of day that a clock shows. -/
def ofWall (utcoffset : Option ℤ) (t : ℤ) : Except OverflowError DateTime :=
  if h : 0 ≤ t ∧ t < calendarEnd then
    .ok {
      ordinal := (t / dayMicros).toNat + 1
      hour := ⟨(t / hourMicros % 24).toNat, by omega⟩
      minute := ⟨(t / 60000000 % 60).toNat, by omega⟩
      second := ⟨(t / 1000000 % 60).toNat, by omega⟩
      microsecond := ⟨(t % 1000000).toNat, by omega⟩
      utcoffset := utcoffset
      ordinal_mem := by
        unfold calendarEnd maxOrdinal dayMicros at h
        unfold maxOrdinal dayMicros
        omega }
  else .error .outOfRange

/-- `d + timedelta(microseconds=t)`. -/
def add (d : DateTime) (t : ℤ) : Except OverflowError DateTime := ofWall d.utcoffset (d.wall + t)

/-- `astimezone(timezone.utc)`. -/
def toUtc (d : DateTime) : Except OverflowError DateTime := ofWall (some 0) d.instant

/-- `weekday()`: Monday is 0. -/
def weekday (d : DateTime) : ℕ := (d.ordinal + 6) % 7

/-- `replace(minute=0, second=0, microsecond=0)`. -/
def startOfHour (d : DateTime) : DateTime := { d with minute := 0, second := 0, microsecond := 0 }

/-- `replace(hour=0, minute=0, second=0, microsecond=0)`. -/
def startOfDay (d : DateTime) : DateTime :=
  { d with hour := 0, minute := 0, second := 0, microsecond := 0 }

variable {d d' : DateTime} {t : ℤ} {offset : Option ℤ}

theorem wall_mem (d : DateTime) : 0 ≤ d.wall ∧ d.wall < calendarEnd := by
  have hordinal := d.ordinal_mem
  unfold wall calendarEnd maxOrdinal dayMicros at *
  omega

theorem wall_ofWall (h : ofWall offset t = .ok d) : d.wall = t ∧ d.utcoffset = offset := by
  rw [ofWall] at h
  split at h
  · next hmem =>
      cases h
      refine ⟨?_, rfl⟩
      unfold calendarEnd maxOrdinal dayMicros at hmem
      unfold wall dayMicros hourMicros
      dsimp only
      omega
  · cases h

theorem ofWall_isOk (h : 0 ≤ t ∧ t < calendarEnd) : ∃ d, ofWall offset t = .ok d :=
  ⟨_, dif_pos h⟩

theorem ofWall_eq_error (h : ¬ (0 ≤ t ∧ t < calendarEnd)) :
    ofWall offset t = .error .outOfRange := dif_neg h

/-- What the clock shows determines the fields. -/
theorem eq_of_wall (h : d.wall = d'.wall) (hoffset : d.utcoffset = d'.utcoffset) : d = d' := by
  obtain ⟨ordinal, hour, minute, second, microsecond, utcoffset, hmem⟩ := d
  obtain ⟨ordinal', hour', minute', second', microsecond', utcoffset', hmem'⟩ := d'
  unfold wall dayMicros at h
  dsimp only at h hoffset
  obtain rfl : ordinal = ordinal' := by omega
  obtain rfl : hour = hour' := by omega
  obtain rfl : minute = minute' := by omega
  obtain rfl : second = second' := by omega
  obtain rfl : microsecond = microsecond' := by omega
  obtain rfl := hoffset
  rfl

theorem ofWall_wall (d : DateTime) : ofWall d.utcoffset d.wall = .ok d := by
  obtain ⟨d', h⟩ := @ofWall_isOk d.wall d.utcoffset d.wall_mem
  obtain ⟨hwall, hoffset⟩ := wall_ofWall h
  rw [h, eq_of_wall hwall hoffset]

theorem startOfHour_wall (d : DateTime) :
    d.startOfHour.wall = Buckets.floorTo hourMicros d.wall := by
  symm
  rw [Buckets.floorTo_eq_iff (by decide)]
  unfold startOfHour wall dayMicros hourMicros
  dsimp only
  omega

theorem startOfDay_wall (d : DateTime) :
    d.startOfDay.wall = Buckets.floorTo dayMicros d.wall := by
  symm
  rw [Buckets.floorTo_eq_iff (by decide)]
  unfold startOfDay wall dayMicros
  dsimp only
  omega

/-- The first day is a Monday. -/
theorem startOfWeek (d : DateTime) :
    d.startOfDay.wall - d.startOfDay.weekday * dayMicros =
      Buckets.floorTo (7 * dayMicros) d.wall := by
  have hordinal := d.ordinal_mem
  symm
  rw [Buckets.floorTo_eq_iff (by decide)]
  unfold startOfDay weekday wall dayMicros
  dsimp only
  omega

end DateTime
