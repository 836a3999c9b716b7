/-
Instants on the line of nanoseconds. Outside leap seconds an instant is its number on this line, moving
adds to the number, and measuring takes the difference. A leap second overlaps the second after it: one
at the end of a day has the numbers of the next day.
-/
import Fixtures.Calendar.DateTime
import Fixtures.Proofs.Calendar.Date

namespace Fixtures

/-! ## Times of day -/

namespace TimeOfDay

/-- The nanoseconds since midnight. -/
def nanos (t : TimeOfDay) : Int := t.second * 1000000000 + t.nano

theorem isLeap_eq_false {t : TimeOfDay} : t.isLeap = false ↔ t.nano < 1000000000 := by
  rw [isLeap, decide_eq_false_iff_not, Nat.not_le]

theorem nanos_nonneg (t : TimeOfDay) : 0 ≤ t.nanos := by unfold nanos; omega

/-- A time lies on its own day unless it is within a leap second at the end of the day. -/
theorem nanos_lt_iff (t : TimeOfDay) : t.nanos < 86400000000000 ↔ ¬ (t.isLeap = true ∧ t.second = 86399) := by
  have := t.second_lt
  have := t.nano_lt
  rw [isLeap, decide_eq_true_eq, nanos]
  omega

theorem ofNanos_spec (n : Int) :
    (ofNanos n).1 = n / 86400000000000 ∧ (ofNanos n).2.nanos = n % 86400000000000 ∧ (ofNanos n).2.isLeap = false := by
  refine ⟨rfl, ?_, isLeap_eq_false.2 (Nat.mod_lt _ (by decide))⟩
  have := Int.emod_nonneg n (show (86400000000000 : Int) ≠ 0 by decide)
  simp only [ofNanos, nanos]
  omega

/-- Moving counts on the line of nanoseconds, from a leap second only where it leads back by a second
or more. -/
theorem add_eq_ofNanos {t : TimeOfDay} {delta : Int} (h : t.isLeap = true → delta ≤ -1000000000) :
    t.add delta = ofNanos (t.nanos + delta) := by
  -- within a leap second such a move is too long to stay there
  unfold add nanos
  rw [isLeap, decide_eq_true_eq] at h
  rw [dif_neg (by omega), if_neg (by simp only [isLeap, Bool.and_eq_true, decide_eq_true_eq]; omega)]

theorem ofNanos_nanos {t : TimeOfDay} (h : t.isLeap = false) : ofNanos t.nanos = (0, t) := by
  have := t.second_lt
  rw [isLeap_eq_false] at h
  obtain ⟨second, nano, _, _⟩ := t
  simp only [nanos, ofNanos] at *
  refine Prod.ext (by simp only; omega) ?_
  simp only [mk.injEq]
  omega

theorem add_zero (t : TimeOfDay) : t.add 0 = (0, t) := by
  cases h : t.isLeap with
  | false =>
    rw [add_eq_ofNanos (by simp [h]), Int.add_zero, ofNanos_nanos h]
  | true =>
    -- a leap second is kept by the first branch alone
    rw [isLeap, decide_eq_true_eq] at h
    have := t.nano_lt
    unfold add
    rw [dif_pos (by omega)]
    simp

/-- The duration since an ordinary time is the difference on the line, but for a second where a leap
second has a time of the next second before it. -/
theorem sub_eq {t s : TimeOfDay} (hs : s.isLeap = false) :
    t.sub s = t.nanos - s.nanos - if t.second < s.second ∧ t.isLeap = true then 1000000000 else 0 := by
  unfold sub nanos
  simp only [hs, Bool.and_false, Bool.false_eq_true, if_false, Bool.and_eq_true, decide_eq_true_eq]
  split <;> omega

end TimeOfDay

/-! ## Instants -/

namespace DateTime

/-- The nanoseconds since the start of day 0. -/
def nanos (t : DateTime) : Int := t.date.number * 86400000000000 + t.time.nanos

/-- The day of an instant whose time lies on its own day. -/
theorem number_eq {t : DateTime} (h : t.time.nanos < 86400000000000) : t.date.number = t.nanos / 86400000000000 := by
  have := t.time.nanos_nonneg
  unfold nanos
  omega

theorem nanos_lt_of_ordinary {t : DateTime} (h : t.isLeap = false) : t.time.nanos < 86400000000000 :=
  (t.time.nanos_lt_iff).2 fun hleap => by rw [isLeap, hleap.1] at h; cases h

theorem number_eq_of_ordinary {t : DateTime} (h : t.isLeap = false) : t.date.number = t.nanos / 86400000000000 :=
  number_eq (nanos_lt_of_ordinary h)

theorem add?_eq (t : DateTime) (delta : Int) :
    t.add? delta = (t.date.addDays? (t.time.add delta).1).map fun date => ⟨date, (t.time.add delta).2⟩ := rfl

theorem add?_zero (t : DateTime) : t.add? 0 = some t := by
  rw [add?_eq, TimeOfDay.add_zero, Date.addDays?, Int.add_zero, Date.ofNumber?_eq_some.2 rfl]
  rfl

/-- What an instant moved on the line of nanoseconds is. -/
theorem add?_eq_some {t u : DateTime} {delta : Int} (h : t.isLeap = true → delta ≤ -1000000000)
    (hu : t.add? delta = some u) : u.isLeap = false ∧ u.nanos = t.nanos + delta := by
  obtain ⟨hdays, htime, hleap⟩ := TimeOfDay.ofNanos_spec (t.time.nanos + delta)
  rw [add?_eq, TimeOfDay.add_eq_ofNanos h] at hu
  obtain ⟨date, hdate, rfl⟩ := Option.map_eq_some_iff.1 hu
  rw [Date.addDays?, Date.ofNumber?_eq_some, hdays] at hdate
  refine ⟨hleap, ?_⟩
  rw [nanos, htime, hdate, nanos]
  omega

/-- An instant can be moved wherever the calendar has a day. -/
theorem exists_add? {t : DateTime} {delta : Int} (h : t.isLeap = true → delta ≤ -1000000000)
    (hfirst : daysBeforeYear (-262143) ≤ (t.nanos + delta) / 86400000000000)
    (hlast : (t.nanos + delta) / 86400000000000 < daysBeforeYear 262143) : ∃ u, t.add? delta = some u := by
  obtain ⟨hdays, -, -⟩ := TimeOfDay.ofNanos_spec (t.time.nanos + delta)
  unfold nanos at hfirst hlast
  rw [add?_eq, TimeOfDay.add_eq_ofNanos h]
  refine ⟨⟨⟨t.date.number + (TimeOfDay.ofNanos (t.time.nanos + delta)).1, ?_, ?_⟩, _⟩,
    Option.map_eq_some_iff.2 ⟨_, Date.ofNumber?_eq_some.2 rfl, rfl⟩⟩ <;> rw [hdays] <;> omega

/-- No instant lies behind the last day of the calendar. -/
theorem add?_eq_none_of_end_le {t : DateTime} {delta : Int} (ht : t.isLeap = false)
    (h : daysBeforeYear 262143 * 86400000000000 ≤ t.nanos + delta) : t.add? delta = none := by
  obtain ⟨hdays, -, -⟩ := TimeOfDay.ofNanos_spec (t.time.nanos + delta)
  rw [add?_eq, TimeOfDay.add_eq_ofNanos (fun hleap => by rw [isLeap, hleap] at ht; cases ht),
    Option.map_eq_none_iff, Date.addDays?, Date.ofNumber?_eq_none, hdays]
  unfold nanos at h
  omega

theorem sub_self (t : DateTime) : t.sub t = 0 := by
  simp [sub, TimeOfDay.sub]

theorem sub_eq {t s : DateTime} (hs : s.isLeap = false) :
    t.sub s = t.nanos - s.nanos - if t.time.second < s.time.second ∧ t.isLeap = true then 1000000000 else 0 := by
  rw [sub, TimeOfDay.sub_eq hs]
  unfold nanos isLeap
  omega

/-- Between instants outside leap seconds the duration is the difference on the line. -/
theorem sub_eq_of_ordinary {t s : DateTime} (ht : t.isLeap = false) (hs : s.isLeap = false) :
    t.sub s = t.nanos - s.nanos := by
  rw [sub_eq hs, ht]
  simp

end DateTime

end Fixtures
