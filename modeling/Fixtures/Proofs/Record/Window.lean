/-
How far the windows of ledger rows reach. A window of a number of days that ends outside leap seconds is there
as long as the calendar has so many days before the day of its end; it starts on the day these days earlier, at
the same time of day. The check of options accepts just the windows that are there and not empty.

Durations have a limit of their own, but no window fails by it: the calendar has fewer days.
-/
import Fixtures.Options.Check
import Fixtures.Proofs.Calendar.Gregorian
import Fixtures.Proofs.Calendar.Instant
import Fixtures.Proofs.Record.Ledger

namespace Fixtures

/-! ## Moves by whole days -/

/-- A move by whole days keeps an ordinary time of day. -/
theorem TimeOfDay.add_days {t : TimeOfDay} (h : t.isLeap = false) (days : Int) :
    t.add (days * 86400000000000) = (days, t) := by
  have hlt := t.second_lt
  have hleap : t.isLeap = true → days * 86400000000000 ≤ -1000000000 := fun hl => by rw [h] at hl; cases hl
  rw [add_eq_ofNanos hleap]
  rw [isLeap_eq_false] at h
  obtain ⟨second, nano, _, _⟩ := t
  simp only [nanos, ofNanos] at *
  refine Prod.ext (by simp only; omega) ?_
  simp only [mk.injEq]
  omega

theorem DateTime.add?_days {t : DateTime} (h : t.isLeap = false) (days : Int) :
    t.add? (days * 86400000000000) = (t.date.addDays? days).map fun date => ⟨date, t.time⟩ := by
  rw [add?_eq, TimeOfDay.add_days h]

/-- No instant lies further before another one than the calendar is long. -/
theorem DateTime.add?_eq_none {t : DateTime} {delta : Int} (h : delta < -191491531 * 86400000000000) :
    t.add? delta = none := by
  have hnonneg := t.time.nanos_nonneg
  have hlt := t.time.second_lt
  have hnano := t.time.nano_lt
  obtain ⟨hdays, -, -⟩ := TimeOfDay.ofNanos_spec (t.time.nanos + delta)
  have hlast := t.date.lt_end
  have hcalendar := Draw.calendar_days
  rw [add?_eq, TimeOfDay.add_eq_ofNanos fun _ => by omega, Option.map_eq_none_iff, Date.addDays?,
    Date.ofNumber?_eq_none, hdays]
  unfold TimeOfDay.nanos
  omega

namespace LedgerWindow

variable {stop : DateTime} {days : Int64}

/-! ## Windows -/

/-- A window that ends outside leap seconds is found on the days alone. -/
theorem ofSpan?_eq (h : stop.isLeap = false) :
    ofSpan? stop days =
      if days < 0 then none
      else (stop.date.addDays? (-days.toInt)).map fun date => ⟨⟨date, stop.time⟩, stop⟩ := by
  unfold ofSpan?
  rw [← Int.neg_mul, DateTime.add?_days h, Option.map_map]
  rfl

/-- The days of the calendar before the day of an instant. -/
def reach (stop : DateTime) : Nat := (stop.date.number - Date.first.number).toNat

theorem reach_eq (stop : DateTime) : (reach stop : Int) = stop.date.number - Date.first.number := by
  have hfirst : Date.first.number ≤ stop.date.number := stop.date.first_le
  unfold reach
  omega

/-- The reach is counted day by day from the first one of the calendar. -/
theorem iterate_next_first (stop : DateTime) {n : Nat} :
    CalendarDay.next^[n] ⟨-262143, 1, 1⟩ = stop.date.parts ↔ n = reach stop := by
  rw [← Date.parts_first, Date.iterate_next_parts]
  have := reach_eq stop
  omega

theorem isSome_ofSpan?_iff (h : stop.isLeap = false) :
    (ofSpan? stop days).isSome = true ↔ 0 ≤ days.toInt ∧ days.toInt ≤ reach stop := by
  have hlast : stop.date.number < daysBeforeYear 262143 := stop.date.lt_end
  have hfirst : Date.first.number = daysBeforeYear (-262143) := rfl
  rw [ofSpan?_eq h, reach_eq, Option.isSome_iff_ne_none]
  split
  · rename_i hneg
    have hlt : days.toInt < 0 := Int64.lt_iff_toInt_lt.1 hneg
    simp only [ne_eq, not_true_eq_false, false_iff]
    omega
  · rename_i hnonneg
    have hle : 0 ≤ days.toInt := Int64.le_iff_toInt_le.1 (Int64.not_lt.1 hnonneg)
    rw [ne_eq, Option.map_eq_none_iff, Date.addDays?, Date.ofNumber?_eq_none]
    omega

/-- The window starts its number of days before its end, at the same time of day. -/
theorem start_of_ofSpan? {window : LedgerWindow} (h : stop.isLeap = false) (hwindow : ofSpan? stop days = some window) :
    window.start.time = stop.time ∧
      CalendarDay.next^[days.toInt.toNat] window.start.date.parts = stop.date.parts := by
  obtain ⟨-, hdays, -⟩ := ofSpan?_eq_some hwindow
  rw [ofSpan?_eq h] at hwindow
  split at hwindow
  · cases hwindow
  · obtain ⟨date, hdate, rfl⟩ := Option.map_eq_some_iff.1 hwindow
    refine ⟨rfl, Date.iterate_next_parts.2 ?_⟩
    rw [Date.addDays?, Date.ofNumber?_eq_some] at hdate
    simp only
    omega

/-! ## Durations -/

/-- The most milliseconds of a duration, in either direction. -/
def maxMillis : Int := 9223372036854775807

/-- A number of days as a duration in nanoseconds, if it is one. -/
def duration? (days : Int) : Option Int :=
  if -maxMillis ≤ days * 86400000 ∧ days * 86400000 ≤ maxMillis then some (days * 86400000000000) else none

/-- The limit of durations makes no difference: a number of days beyond it reaches beyond the calendar. -/
theorem ofSpan?_eq_duration (stop : DateTime) (days : Int64) :
    ofSpan? stop days =
      if days < 0 then none
      else (duration? days.toInt).bind fun span => (stop.add? (-span)).map fun start => ⟨start, stop⟩ := by
  unfold ofSpan? duration?
  split
  · rfl
  rename_i hnonneg
  split
  · rfl
  · rename_i hlong
    have hle : 0 ≤ days.toInt := Int64.le_iff_toInt_le.1 (Int64.not_lt.1 hnonneg)
    rw [Option.map_eq_none_iff.2 (DateTime.add?_eq_none ?_)]
    · rfl
    · unfold maxMillis at hlong
      omega

end LedgerWindow

/-! ## Options -/

namespace Options

/-- The check of options whose nested values can be drawn looks at the window alone. -/
theorem error?_eq_none_iff {o : Options} (now : DateTime) (hdepth : o.nested.maxDepth ≠ 0)
    (hshape : o.nested.shape.error? = none) :
    o.error? now = none ↔ 0 < o.csv.spanDays.toInt ∧ (o.csv.window? now).isSome = true := by
  unfold error?
  rw [if_neg hdepth, hshape]
  simp only
  split
  · rename_i hle
    have hnonpos : o.csv.spanDays.toInt ≤ 0 := Int64.le_iff_toInt_le.1 hle
    simp only [reduceCtorEq, false_iff]
    omega
  · rename_i hnot
    have hpos : 0 < o.csv.spanDays.toInt := Int64.lt_iff_toInt_lt.1 (Int64.not_le.1 hnot)
    cases o.csv.window? now <;> simp [hpos]

end Options

namespace LedgerWindow

/-- Before an instant outside leap seconds the calendar has a number of days, counted day by day from
January 1 of year -262143. There is a window of some days exactly if they are not negative and no more than
this number. It starts at the time of day of its end, on the day from which so many days lead to the day of the
end. Options with such an end whose nested values can be drawn pass their check exactly if there is such a
window and it is not empty. -/
theorem reaches_iff {stop : DateTime} (hleap : stop.isLeap = false) :
    ∃ reach : Nat, (∀ n, CalendarDay.next^[n] ⟨-262143, 1, 1⟩ = stop.date.parts ↔ n = reach) ∧
      ∀ days : Int64, ((ofSpan? stop days).isSome = true ↔ 0 ≤ days.toInt ∧ days.toInt ≤ reach) ∧
        (∀ window, ofSpan? stop days = some window → window.stop = stop ∧ window.start.time = stop.time ∧
          CalendarDay.next^[days.toInt.toNat] window.start.date.parts = stop.date.parts) ∧
        ∀ (o : Options) (now : DateTime), o.csv.stop.getD now = stop → o.csv.spanDays = days →
          o.nested.maxDepth ≠ 0 → o.nested.shape.error? = none →
          (o.error? now = none ↔ 0 < days.toInt ∧ days.toInt ≤ reach) := by
  refine ⟨reach stop, fun n => iterate_next_first stop, fun days => ⟨isSome_ofSpan?_iff hleap, ?_, ?_⟩⟩
  · intro window hwindow
    exact ⟨(ofSpan?_eq_some hwindow).1, start_of_ofSpan? hleap hwindow⟩
  · rintro o now rfl rfl hdepth hshape
    rw [Options.error?_eq_none_iff now hdepth hshape, CsvOptions.window?, isSome_ofSpan?_iff hleap]
    omega

/-- Noon of the third day of the calendar has two days before it. -/
theorem reaches_iff_third_day :
    let stop : DateTime := ⟨⟨daysBeforeYear (-262143) + 2, by decide, by decide⟩,
      ⟨43200, 0, by decide, by decide⟩⟩
    let o : Options := { csv := { stop := some stop, spanDays := 2 } }
    stop.isLeap = false ∧ CalendarDay.next^[2] ⟨-262143, 1, 1⟩ = stop.date.parts ∧
      (∀ days : Int64, (ofSpan? stop days).isSome = true ↔ 0 ≤ days.toInt ∧ days.toInt ≤ 2) ∧
      o.nested.maxDepth ≠ 0 ∧ o.nested.shape.error? = none ∧ ∀ now, o.error? now = none := by
  intro stop o
  have hparts : CalendarDay.next^[2] ⟨-262143, 1, 1⟩ = stop.date.parts := by unfold stop; decide +kernel
  have hdepth : o.nested.maxDepth ≠ 0 := by unfold o; decide
  have hshape : o.nested.shape.error? = none := by unfold o; decide +kernel
  have hleap : stop.isLeap = false := rfl
  obtain ⟨reach, hcount, hreach⟩ := reaches_iff hleap
  cases (hcount 2).1 hparts
  refine ⟨hleap, hparts, fun days => (hreach days).1, hdepth, hshape, fun now => ?_⟩
  exact ((hreach 2).2.2 o now rfl rfl hdepth hshape).2 (by decide)

end LedgerWindow

end Fixtures
