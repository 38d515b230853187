import Mathlib.Algebra.Group.Int
import Mathlib.Tactic.Common

/-!
# Go's `time.Time` and `time.Duration`

A `Duration` is an `int64` count of nanoseconds, so `time.Duration(n) * time.Second` wraps; a
`Time` keeps `int64` seconds since January 1 of year 1 and the nanoseconds within the second, and
`Add` saturates.  `GoTime.toNanos` reads a time as one exact integer.
-/

namespace LcpRelay

/-- The integers an `int64` holds. -/
def Int64Range (x : Int) : Prop := -2^63 ≤ x ∧ x < 2^63

/-- Two's-complement wrap of an integer into `int64`: Go's conversions to `int64` and its
`int64` arithmetic. -/
def wrap64 (x : Int) : Int := (x + 2^63) % 2^64 - 2^63

theorem wrap64_range (x : Int) : Int64Range (wrap64 x) := by
  unfold Int64Range wrap64; omega

theorem wrap64_of_range {x : Int} (h : Int64Range x) : wrap64 x = x := by
  unfold Int64Range at h; unfold wrap64; omega

/-- Wrapping never moves a value above itself once it is at least the least `int64`. -/
theorem wrap64_le {x : Int} (h : -2^63 ≤ x) : wrap64 x ≤ x := by
  unfold wrap64; omega

/-- `uint64(x)` for an `int64` `x`: Go's conversion keeps the bits. -/
def toUInt64 (x : Int) : UInt64 := UInt64.ofNat (x % 2^64).toNat

theorem toUInt64_toNat (x : Int) : ((toUInt64 x).toNat : Int) = x % 2^64 := by
  unfold toUInt64
  rw [UInt64.toNat_ofNat_of_lt (by unfold UInt64.size; omega)]
  omega

/-- `int64(uint64(x))` is `x`. -/
theorem wrap64_toUInt64 {x : Int} (h : Int64Range x) : wrap64 (toUInt64 x).toNat = x := by
  rw [toUInt64_toNat]; unfold wrap64 Int64Range at *; omega

/-- A Go `time.Time` read on the wall clock: `sec` whole seconds since January 1 of year 1
(Go's internal `sec()`, an `int64`) and `nsec` nanoseconds within that second. -/
structure GoTime where
  sec : Int
  nsec : Nat
  sec_range : Int64Range sec
  nsec_lt : nsec < 1000000000
deriving DecidableEq

/-- Seconds from January 1 of year 1 to the Unix epoch (Go's `unixToInternal`). -/
def unixToInternal : Int := 62135596800

/-- Go's `addSec` on a wall-clock time: the `int64` sum of seconds, saturated on overflow. -/
def addSec (s d : Int) : Int :=
  if s + d < -2^63 then -(2^63 - 1) else if 2^63 ≤ s + d then 2^63 - 1 else s + d

theorem addSec_range (s d : Int) : Int64Range (addSec s d) := by
  unfold addSec Int64Range; split_ifs <;> omega

namespace GoTime

/-- `time.Unix(s, 0)`: the seconds are moved to Go's internal epoch by an `int64` sum. -/
def unix (s : Int) : GoTime := ⟨wrap64 (s + unixToInternal), 0, wrap64_range _, by decide⟩

/-- `t.Unix()`: whole seconds since the Unix epoch, an `int64`. -/
def unixSec (t : GoTime) : Int := wrap64 (t.sec - unixToInternal)

/-- `t.Add(d)` for a duration of `d` nanoseconds: Go's carry makes the pair the floor quotient and
remainder of `t.nsec + d`, and `addSec` adds the seconds. -/
def add (t : GoTime) (d : Int) : GoTime where
  sec := addSec t.sec ((t.nsec + d) / 1000000000)
  nsec := ((t.nsec + d) % 1000000000).toNat
  sec_range := addSec_range _ _
  nsec_lt := by omega

/-- `t.After(u)`. -/
def after (t u : GoTime) : Bool := u.sec < t.sec || (t.sec == u.sec && u.nsec < t.nsec)

/-- `t.Equal(u)`. -/
def equal (t u : GoTime) : Bool := t.sec == u.sec && t.nsec == u.nsec

/-- The instant a time denotes: nanoseconds since January 1 of year 1. -/
def toNanos (t : GoTime) : Int := t.sec * 1000000000 + t.nsec

/-- The instant a time denotes, in nanoseconds since the Unix epoch. -/
def unixNanos (t : GoTime) : Int := (t.sec - unixToInternal) * 1000000000 + t.nsec

theorem after_iff (t u : GoTime) : t.after u = true ↔ u.toNanos < t.toNanos := by
  have := t.nsec_lt; have := u.nsec_lt
  simp only [after, toNanos, Bool.or_eq_true, decide_eq_true_eq, Bool.and_eq_true, beq_iff_eq]
  omega

theorem equal_iff (t u : GoTime) : t.equal u = true ↔ t.toNanos = u.toNanos := by
  have := t.nsec_lt; have := u.nsec_lt
  simp only [equal, toNanos, Bool.and_eq_true, beq_iff_eq]
  omega

@[simp] theorem unix_sec (s : Int) : (unix s).sec = wrap64 (s + unixToInternal) := rfl

@[simp] theorem unix_nsec (s : Int) : (unix s).nsec = 0 := rfl

@[simp] theorem add_sec (t : GoTime) (d : Int) :
    (t.add d).sec = addSec t.sec ((t.nsec + d) / 1000000000) := rfl

theorem add_nsec (t : GoTime) (d : Int) :
    ((t.add d).nsec : Int) = (t.nsec + d) % 1000000000 := by
  simp only [add]; omega

/-- Away from the saturation points, `Add` adds exactly. -/
theorem toNanos_add {t : GoTime} {d : Int}
    (h : Int64Range (t.sec + (t.nsec + d) / 1000000000)) :
    (t.add d).toNanos = t.toNanos + d := by
  unfold Int64Range at h
  simp only [toNanos, add_sec, add_nsec, addSec]
  split_ifs <;> omega

/-- `Add` never ends later than the exact sum; saturating below `int64` lands before year 1. -/
theorem toNanos_add_le (t : GoTime) (d : Int) : (t.add d).toNanos ≤ max (t.toNanos + d) 0 := by
  simp only [toNanos, add_sec, add_nsec, addSec]
  split_ifs <;> omega

theorem unixNanos_eq (t : GoTime) : t.unixNanos = t.toNanos - unixToInternal * 1000000000 := by
  unfold unixNanos toNanos; omega

/-- A time recorded as the `uint64` of its Unix seconds and read back by `time.Unix` is the time
truncated to a whole second, for a time whose Unix seconds fit in an `int64`. -/
theorem unix_recorded_toNanos {t : GoTime} (h : unixToInternal - 2^63 ≤ t.sec) :
    (unix (wrap64 (toUInt64 t.unixSec).toNat)).toNanos = t.sec * 1000000000 := by
  have hs := t.sec_range
  have hu : wrap64 (t.sec - unixToInternal) = t.sec - unixToInternal :=
    wrap64_of_range (by unfold Int64Range unixToInternal at *; omega)
  rw [unixSec, wrap64_toUInt64 (wrap64_range _), hu, toNanos, unix_sec, unix_nsec,
    Int.sub_add_cancel, wrap64_of_range hs]
  omega

/-- So the record gives the time back exactly when it is a whole second. -/
theorem unix_recorded_equal_iff {t : GoTime} (h : unixToInternal - 2^63 ≤ t.sec) :
    (unix (wrap64 (toUInt64 t.unixSec).toNat)).equal t = true ↔ t.nsec = 0 := by
  rw [equal_iff, unix_recorded_toNanos h, toNanos]
  omega

end GoTime

/-- `time.Duration(n) * time.Second` for a `uint64` count `n` of seconds: the conversion to
`int64` and the product both wrap. -/
def secondsDuration (n : Nat) : Int := wrap64 (wrap64 n * 1000000000)

theorem secondsDuration_eq (n : Nat) : secondsDuration n = wrap64 (n * 1000000000) := by
  unfold secondsDuration wrap64; omega

theorem secondsDuration_le (n : Nat) : secondsDuration n ≤ n * 1000000000 := by
  rw [secondsDuration_eq]; exact wrap64_le (by omega)

/-- Half of the duration of `n` seconds, `d / 2` in Go (truncating), is at most `n / 2` seconds. -/
theorem secondsDuration_half_le (n : Nat) : (secondsDuration n).tdiv 2 ≤ n * 500000000 := by
  have h := secondsDuration_le n
  by_cases h0 : 0 ≤ secondsDuration n
  · rw [Int.tdiv_eq_ediv h0 (by decide)]; omega
  · have : (-secondsDuration n).tdiv 2 = -secondsDuration n / 2 :=
      Int.tdiv_eq_ediv (by omega) (by decide)
    rw [Int.neg_tdiv] at this; omega

/-- Durations of fewer than `2^63` nanoseconds do not wrap. -/
theorem secondsDuration_of_lt {n : Nat} (h : n * 1000000000 < 2^63) :
    secondsDuration n = n * 1000000000 := by
  rw [secondsDuration_eq]; exact wrap64_of_range ⟨by omega, by omega⟩

end LcpRelay
