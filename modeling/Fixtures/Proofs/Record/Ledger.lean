/-
Ledger rows. A row is drawn from every window and every source of words, and it is dated within its
window, with one exception: where the window ends within a leap second at the end of a day and is not
empty, a row can be dated on the day after.

The window starts its number of days before the end on the line of nanoseconds, where the leap second at
the end of a day already counts as the next day. So does the last instant that can be drawn.

Whatever its date is, a row that is drawn has the declared form.
-/
import Fixtures.Proofs.Calendar.Text
import Fixtures.Proofs.Draw.Calendar
import Fixtures.Proofs.Draw.Text
import Fixtures.Record.Ledger

namespace Fixtures

/-! ## Windows -/

namespace LedgerWindow

variable {stop : DateTime} {days : Int64} {window : LedgerWindow}

theorem ofSpan?_eq_some (h : ofSpan? stop days = some window) :
    window.stop = stop ∧ 0 ≤ days.toInt ∧ stop.add? (-(days.toInt * 86400000000000)) = some window.start := by
  unfold ofSpan? at h
  split at h
  · cases h
  · rename_i hneg
    obtain ⟨start, hstart, rfl⟩ := Option.map_eq_some_iff.1 h
    exact ⟨rfl, Int64.le_iff_toInt_le.1 (Int64.not_lt.1 hneg), hstart⟩

/-- The window starts at an ordinary instant, its number of days before the end, unless it is empty and
lies within a leap second. -/
theorem start_spec (h : ofSpan? stop days = some window) (hdays : stop.isLeap = true → 0 < days.toInt) :
    window.start.isLeap = false ∧ window.start.nanos = stop.nanos - days.toInt * 86400000000000 := by
  obtain ⟨-, -, hstart⟩ := ofSpan?_eq_some h
  obtain ⟨hleap, hnanos⟩ := DateTime.add?_eq_some (fun hl => by have := hdays hl; omega) hstart
  exact ⟨hleap, by omega⟩

theorem start_eq_stop (h : ofSpan? stop days = some window) (hdays : days.toInt = 0) : window.start = stop := by
  obtain ⟨-, -, hstart⟩ := ofSpan?_eq_some h
  rw [hdays, Int.zero_mul, Int.neg_zero, DateTime.add?_zero] at hstart
  exact (Option.some.inj hstart).symm

/-- A window that ends outside leap seconds starts at an ordinary instant that is not after its end, and ends on
its own day. -/
theorem ordinary_spec (h : ofSpan? stop days = some window) (hleap : stop.isLeap = false) :
    window.start.isLeap = false ∧ window.stop.time.nanos < 86400000000000 ∧
      window.start.nanos ≤ window.stop.nanos := by
  obtain ⟨hstart, hnanos⟩ := start_spec h fun hl => by rw [hleap] at hl; cases hl
  obtain ⟨rfl, hdays, -⟩ := ofSpan?_eq_some h
  exact ⟨hstart, DateTime.nanos_lt_of_ordinary hleap, by omega⟩

/-- A window that starts at an ordinary instant and ends on its own day is one in which every instant
lies on a day of the window. -/
theorem number_le {t : DateTime} (ht : t.isLeap = false) (hstart : window.start.isLeap = false)
    (hstop : window.stop.time.nanos < 86400000000000) (hlow : window.start.nanos ≤ t.nanos)
    (hhigh : t.nanos ≤ window.stop.nanos) :
    window.start.date.number ≤ t.date.number ∧ t.date.number ≤ window.stop.date.number := by
  rw [DateTime.number_eq_of_ordinary ht, DateTime.number_eq_of_ordinary hstart, DateTime.number_eq hstop]
  exact ⟨Int.ediv_le_ediv (by decide) hlow, Int.ediv_le_ediv (by decide) hhigh⟩

/-- A window of some days that ends within a leap second at the end of a day is measured with all its
days. -/
theorem sub_of_leap (h : ofSpan? stop days = some window) (hleap : stop.isLeap = true)
    (hsecond : stop.time.second = 86399) (hdays : 0 < days.toInt) :
    window.stop.sub window.start = days.toInt * 86400000000000 := by
  obtain ⟨hstart, hnanos⟩ := start_spec h fun _ => hdays
  obtain ⟨rfl, -, -⟩ := ofSpan?_eq_some h
  have hnano := window.stop.time.nano_lt
  have hlt := window.start.time.second_lt
  -- the window starts in the first second of a day, so no second of it comes before the end's
  have hfirst : window.start.time.second = 0 := by
    unfold DateTime.isLeap at hstart hleap
    rw [TimeOfDay.isLeap_eq_false] at hstart
    rw [TimeOfDay.isLeap, decide_eq_true_eq] at hleap
    unfold DateTime.nanos TimeOfDay.nanos at hnanos
    rw [hsecond] at hnanos
    omega
  rw [DateTime.sub_eq hstart, hfirst, hnanos, if_neg fun hlt => Nat.not_lt_zero _ (hsecond ▸ hlt.1)]
  omega

end LedgerWindow

/-! ## Rows -/

namespace LedgerRow

variable {σ : Type} [WordSource σ] {E : DrawError → Prop}

/-- What is drawn of a row behind its instant. -/
def drawDated (instant : DateTime) : Draw σ LedgerRow := do
  let first ← drawNamePart 3 7
  let last ← drawNamePart 4 8
  let count ← Draw.integer .narrow 5 12
  let description ← Draw.replicate count.toNat (Draw.pick words)
  let sum ← Draw.integer .wide 100 10000
  let average ← Draw.roundedFloat averageFrom averageTo 2
  let decimals ← Draw.fraction
  return {
    date := String.ofList instant.date.text
    name := String.ofList (first ++ ' ' :: last)
    description := " ".intercalate description
    randomSum := .ofInt sum
    randomAverage := average
    randomDecimals := decimals.roundTo 6 }

theorem draw_eq (window : LedgerWindow) :
    (draw window : Draw σ LedgerRow) = (Draw.dateTimeSeconds window.start window.stop >>= drawDated) := rfl

theorem ends_drawNamePart {least most : Nat} (hle : least ≤ most) (hmost : most ≤ Memory.maxBytes) :
    (drawNamePart least most : Draw σ (List Char)).Ends (Capitalized least most) E := by
  refine (Draw.ends_size hle (Nat.lt_of_le_of_lt hmost (by decide))).bind fun length hlength => ?_
  refine (Draw.ends_uppercase (Draw.letters_fit (by decide))).bind fun first hfirst => ?_
  refine (Draw.ends_lowercase (Draw.letters_fit (Nat.le_trans hlength.2 hmost))).map fun rest hrest => ?_
  obtain ⟨c, rfl⟩ := List.length_eq_one_iff.1 hfirst.1
  obtain ⟨hcount, hlower⟩ := hrest
  exact ⟨c, rest, rfl, hfirst.2 c List.mem_cons_self, by omega, by omega, hlower⟩

/-- The declared form of a row, but for its date, its average and its decimals. -/
structure HasForm (r : LedgerRow) : Prop where
  name : ∃ first last, r.name.toList = first ++ ' ' :: last ∧ Capitalized 3 7 first ∧ Capitalized 4 8 last
  description : ∃ chosen : List String, r.description = " ".intercalate chosen ∧ 5 ≤ chosen.length ∧
    chosen.length ≤ 12 ∧ ∀ w ∈ chosen, w ∈ words
  randomSum : 100 ≤ r.randomSum.toInt ∧ r.randomSum.toInt ≤ 10000

theorem ends_drawDated (instant : DateTime) :
    (drawDated instant : Draw σ LedgerRow).Ends
      (fun r => r.date = String.ofList instant.date.text ∧ r.HasForm) E := by
  refine (ends_drawNamePart (by decide) (by decide)).bind fun first hfirst => ?_
  refine (ends_drawNamePart (by decide) (by decide)).bind fun last hlast => ?_
  refine (Draw.ends_integer (by decide) (by decide)).bind fun count hcount => ?_
  refine ((Draw.ends_pick (by decide) (by decide)).replicate _).bind fun description hdescription => ?_
  refine (Draw.ends_integer (by decide) (by decide)).bind fun sum hsum => ?_
  refine (Draw.ends_roundedFloat 2 (by decide) (by decide) (by decide +kernel) (by decide +kernel)).bind fun _ _ => ?_
  refine Draw.ends_fraction.map fun _ _ => ⟨rfl, ?_, ?_, ?_⟩
  · exact ⟨first, last, String.toList_ofList, hfirst, hlast⟩
  · obtain ⟨hlength, hwords⟩ := hdescription
    exact ⟨description, rfl, by omega, by omega, hwords⟩
  · rwa [Int64.toInt_ofInt_of_le (by omega) (by omega)]

/-! ## Dates -/

variable {stop : DateTime} {days : Int64} {window : LedgerWindow}

/-- The row is dated on a day of the window. -/
def DatedWithin (window : LedgerWindow) (r : LedgerRow) : Prop :=
  ∃ d : Date, window.start.date.number ≤ d.number ∧ d.number ≤ window.stop.date.number ∧
    r.date = String.ofList d.text

/-- Every row of a window that starts at an ordinary instant and ends on its own day lies within it. -/
theorem ends_draw (hstart : window.start.isLeap = false) (hstop : window.stop.time.nanos < 86400000000000)
    (hle : window.start.nanos ≤ window.stop.nanos) :
    (draw window : Draw σ LedgerRow).Ends (DatedWithin window) E := by
  rw [draw_eq]
  refine (Draw.ends_dateTimeSeconds hstart hstop).bind fun t ht => ?_
  obtain ⟨hlow, hhigh⟩ := LedgerWindow.number_le ht.1 hstart hstop ht.2.1 (by omega)
  exact (ends_drawDated t).mono (fun r hr => ⟨t.date, hlow, hhigh, hr.1⟩) fun _ he => he

/-- A window of any number of days that ends outside leap seconds is one of these. -/
theorem ends_draw_of_ordinary (h : LedgerWindow.ofSpan? stop days = some window) (hleap : stop.isLeap = false) :
    (draw window : Draw σ LedgerRow).Ends (DatedWithin window) E := by
  obtain ⟨hstart, hstop, hle⟩ := LedgerWindow.ordinary_spec h hleap
  exact ends_draw hstart hstop hle

/-- Every row of such a window has the declared form. -/
theorem ends_draw_form (h : LedgerWindow.ofSpan? stop days = some window) (hleap : stop.isLeap = false) :
    (draw window : Draw σ LedgerRow).Ends HasForm E := by
  obtain ⟨hstart, hstop, -⟩ := LedgerWindow.ordinary_spec h hleap
  rw [draw_eq]
  exact (Draw.ends_dateTimeSeconds hstart hstop).bind fun t _ =>
    (ends_drawDated t).mono (fun _ hr => hr.2) fun _ he => he

/-- The same of a window of a single instant. -/
theorem ends_draw_instant (t : DateTime) :
    (draw ⟨t, t⟩ : Draw σ LedgerRow).Ends (DatedWithin ⟨t, t⟩) E := by
  have hpure : (Draw.dateTimeSeconds t t : Draw σ DateTime) = pure t := by
    unfold Draw.dateTimeSeconds
    rw [DateTime.sub_self]
    rfl
  rw [draw_eq, hpure, pure_bind]
  exact (ends_drawDated t).mono (fun r hr => ⟨t.date, Int.le_refl _, Int.le_refl _, hr.1⟩) fun _ he => he

/-- On the largest words all days of such a window are added to its start. -/
theorem run_dateTimeSeconds_of_leap (h : LedgerWindow.ofSpan? stop days = some window) (hleap : stop.isLeap = true)
    (hsecond : stop.time.second = 86399) (hdays : 0 < days.toInt) :
    (Draw.dateTimeSeconds window.start window.stop : Draw Tape DateTime).run (Draw.largestWords 0) =
      (Draw.after window.start (days.toInt * 86400000000000)).run (Draw.largestWords 2) := by
  have hsub := LedgerWindow.sub_of_leap h hleap hsecond hdays
  obtain ⟨hstart, hnanos⟩ := LedgerWindow.start_spec h fun _ => hdays
  obtain ⟨rfl, -, -⟩ := LedgerWindow.ofSpan?_eq_some h
  -- both ends lie within the calendar, whose seconds are fewer than the values of a word
  have hfit : days.toInt * 86400 - 0 + 1 < Width.wide.modulus := by
    have hnano := window.stop.time.nano_lt
    have hfirst := window.start.date.first_le
    have hlast := window.stop.date.lt_end
    have := Draw.calendar_days
    rw [DateTime.number_eq_of_ordinary hstart, hnanos, DateTime.nanos, TimeOfDay.nanos] at hfirst
    show _ < (18446744073709551616 : Int)
    omega
  unfold Draw.dateTimeSeconds
  rw [hsub, Int.tdiv_eq_ediv_of_nonneg (by omega),
    show days.toInt * 86400000000000 / 1000000000 = days.toInt * 86400 by omega]
  simp only
  rw [if_neg (by omega), Draw.run_bind, Draw.run_integer_largest 0 (by omega) hfit]
  simp only
  rw [Int.mul_assoc]
  rfl

/-- The largest words lead from the start of such a window to the day behind its end, or out of the
calendar. -/
theorem not_ends_draw_of_leap (h : LedgerWindow.ofSpan? stop days = some window) (hleap : stop.isLeap = true)
    (hsecond : stop.time.second = 86399) (hdays : 0 < days.toInt) :
    ¬ (draw window : Draw Tape LedgerRow).Ends (DatedWithin window) fun _ => False := by
  intro hends
  have hrow := hends.outcome (Draw.largestWords 0)
  rw [draw_eq, Draw.run_bind, run_dateTimeSeconds_of_leap h hleap hsecond hdays] at hrow
  obtain ⟨hstart, hnanos⟩ := LedgerWindow.start_spec h fun _ => hdays
  obtain ⟨rfl, -, -⟩ := LedgerWindow.ofSpan?_eq_some h
  rw [DateTime.isLeap, TimeOfDay.isLeap, decide_eq_true_eq] at hleap
  unfold Draw.after at hrow
  cases hadd : window.start.add? (days.toInt * 86400000000000) with
  | none => rw [hadd] at hrow; exact hrow
  | some u =>
    rw [hadd] at hrow
    simp only [Draw.run_pure] at hrow
    rcases hr : (drawDated u).run (Draw.largestWords 2) with ⟨e | r, s⟩
    · rw [hr] at hrow; exact hrow
    · rw [hr] at hrow
      obtain ⟨d, -, hd, hdate⟩ := hrow
      rw [((ends_drawDated (E := fun _ => True) u).of_ok hr).1] at hdate
      -- `u` is the end of the window on the line, so it lies on the next day
      obtain ⟨huleap, hunanos⟩ := DateTime.add?_eq_some (fun hl => by rw [hstart] at hl; cases hl) hadd
      have hu := DateTime.number_eq_of_ordinary huleap
      rw [Date.text_inj (String.ofList_injective hdate), hunanos, hnanos, DateTime.nanos, TimeOfDay.nanos,
        hsecond] at hu
      omega

/-- From every tape a row is drawn, dated on a day from the start to the end of its window, if and only
if the window is empty or does not end within a leap second at the end of a day. -/
theorem dated_within_iff (h : LedgerWindow.ofSpan? stop days = some window) :
    ((draw window : Draw Tape LedgerRow).Ends (DatedWithin window) fun _ => False) ↔
      ¬ (stop.isLeap = true ∧ stop.time.second = 86399 ∧ 0 < days) := by
  constructor
  · rintro hends ⟨hleap, hsecond, hdays⟩
    exact not_ends_draw_of_leap h hleap hsecond (Int64.lt_iff_toInt_lt.1 hdays) hends
  · intro hnot
    obtain ⟨hstop, hnonneg, -⟩ := LedgerWindow.ofSpan?_eq_some h
    -- an empty window is a single instant, also one within a leap second
    rcases Int.lt_or_eq_of_le hnonneg with hpos | hzero
    · obtain ⟨hstart, hnanos⟩ := LedgerWindow.start_spec h fun _ => hpos
      refine ends_draw hstart ((TimeOfDay.nanos_lt_iff _).2 fun hl => hnot ?_) (by rw [hstop]; omega)
      rw [hstop] at hl
      exact ⟨hl.1, hl.2, Int64.lt_iff_toInt_lt.2 hpos⟩
    · obtain ⟨start, stop⟩ := window
      cases hstop
      cases LedgerWindow.start_eq_stop h hzero.symm
      exact ends_draw_instant _

/-- The rows of five years up to the start of 2025. -/
theorem dated_within_five_years :
    let stop : DateTime := .startOf ⟨daysBeforeYear 2025, by decide, by decide⟩
    let window : LedgerWindow := ⟨.startOf ⟨daysBeforeYear 2020 + 2, by decide, by decide⟩, stop⟩
    LedgerWindow.ofSpan? stop 1825 = some window ∧
      (draw window : Draw Tape LedgerRow).Ends (DatedWithin window) fun _ => False := by
  intro stop window
  have h : LedgerWindow.ofSpan? stop 1825 = some window := by unfold stop window; decide +kernel
  exact ⟨h, (dated_within_iff h).2 fun hleap => absurd hleap.1 (by unfold stop; decide)⟩

/-- A window of one day that ends within the leap second of the last day of 2016, and a row that is
dated on the first day of 2017. -/
theorem dated_after_leap_second :
    let stop : DateTime := ⟨⟨daysBeforeYear 2017 - 1, by decide, by decide⟩,
      ⟨86399, 1500000000, by decide, by decide⟩⟩
    let window : LedgerWindow := ⟨⟨stop.date, ⟨0, 500000000, by decide, by decide⟩⟩, stop⟩
    LedgerWindow.ofSpan? stop 1 = some window ∧ stop.date.text = "2016-12-31".toList ∧
      ((draw window : Draw Tape LedgerRow).run (Draw.largestWords 0)).1.toOption.map LedgerRow.date =
        some "2017-01-01" ∧
      ¬ (draw window : Draw Tape LedgerRow).Ends (DatedWithin window) fun _ => False := by
  intro stop window
  have h : LedgerWindow.ofSpan? stop 1 = some window := by unfold stop window; decide +kernel
  refine ⟨h, by unfold stop; decide +kernel, by unfold window; decide +kernel, ?_⟩
  exact not_ends_draw_of_leap h rfl rfl (by decide)

end LedgerRow

end Fixtures
