/-
The days and instants that a range gives, all of them and no others. From a range of days each day is drawn on
some words, from a range of instants each whole step up to the last one that the range holds; a range without a
step gives its start and takes no word.

Steps of a second and of a microsecond are one argument: the last step does not lead past the end of the range,
so every step before it stays in the calendar. Microseconds are as they should be exactly if the range does not
lead back by more of them than a signed number of 64 bits can count. From one that does, some draws leave the
calendar.
-/
import Fixtures.Proofs.Draw.Calendar
import Fixtures.Proofs.Draw.Reach

namespace Fixtures.Draw

variable {σ α : Type} [WordSource σ]

/-! ## Exact draws -/

/-- A draw that gives exactly the values with a property: it never fails and gives no other value, and each of
them it gives on some words. -/
structure Yields (m : Draw σ α) (P : α → Prop) : Prop where
  ends : m.Ends P fun _ => False
  reaches : ∀ a, P a → m.Reaches a

/-- An instant that lies a number of steps after another one, up to a last number. -/
def IsStep (low : DateTime) (step last : Int) (t : DateTime) : Prop :=
  ∃ k, 0 ≤ k ∧ k ≤ last ∧ low.add? (k * step) = some t

/-- A draw of instants in steps from `low` on, where `span` tells how much of the range there is and `last`
which step is the last one. -/
structure StepsFrom (low : DateTime) (step span last : Int) (Within : DateTime → Prop) (m : Draw σ DateTime) :
    Prop where
  /-- Every step leads to an instant of the range. -/
  within : 0 < span → ∀ k, 0 ≤ k → k ≤ last → ∃ t, low.add? (k * step) = some t ∧ t.isLeap = false ∧ Within t
  yields : 0 < span → m.Yields (IsStep low step last)
  start : span ≤ 0 → m = pure low

/-- A draw of a step leads to each step of the range, as long as the last one lies within it. -/
theorem stepsFrom_of_le {low high : DateTime} {step span last : Int} {Within : DateTime → Prop} {m : Draw σ DateTime}
    (hm : m = if span ≤ 0 then pure low else integer .wide 0 last >>= fun k => after low (k * step))
    (hlow : low.isLeap = false) (hhigh : high.isLeap = false) (hstep : 0 ≤ step)
    (hlast : 0 < span → 0 ≤ last ∧ last + 1 ≤ Width.wide.modulus ∧ last * step ≤ high.sub low)
    (hwithin : 0 < span → ∀ t : DateTime, t.nanos ≤ low.nanos + last * step → Within t) :
    StepsFrom low step span last Within m := by
  have hinstants : 0 < span → ∀ k, 0 ≤ k → k ≤ last →
      ∃ t, low.add? (k * step) = some t ∧ t.isLeap = false ∧ Within t := by
    intro hspan k hk hle
    obtain ⟨-, -, hend⟩ := hlast hspan
    have hmul : k * step ≤ last * step := Int.mul_le_mul_of_nonneg_right hle hstep
    rw [DateTime.sub_eq_of_ordinary hhigh hlow] at hend
    have hreached : low.nanos + k * step ≤ high.nanos := by omega
    obtain ⟨t, ht, hleap, hnanos⟩ := exists_add?_of_le hlow (Int.mul_nonneg hk hstep) hreached
      (DateTime.nanos_lt_of_ordinary hhigh)
    exact ⟨t, ht, hleap, hwithin hspan t (by omega)⟩
  refine ⟨hinstants, fun hspan => ?_, fun hspan => by rw [hm, if_pos hspan]⟩
  obtain ⟨hnonneg, hfit, -⟩ := hlast hspan
  rw [hm, if_neg (by omega)]
  refine ⟨(ends_integer hnonneg (by omega)).bind fun k hk => ?_, ?_⟩
  · obtain ⟨t, ht, -⟩ := hinstants hspan k hk.1 hk.2
    unfold after
    rw [ht]
    exact ends_pure ⟨k, hk.1, hk.2, ht⟩
  · rintro t ⟨k, hk, hle, ht⟩
    refine (reaches_integer hk hle (by omega)).bind ?_
    unfold after
    rw [ht]
    exact reaches_pure t

/-! ## Days -/

theorem yields_date {low high : Date} (h : low.number < high.number) :
    (date low high : Draw σ Date).Yields fun d => low.number ≤ d.number ∧ d.number ≤ high.number := by
  refine ⟨(ends_date low high).mono (fun d hd => ⟨hd.1, by omega⟩) fun _ he => he, ?_⟩
  rintro d ⟨hlow, hhigh⟩
  have hfirst := low.first_le
  have hlast := high.lt_end
  have hcalendar := calendar_days
  have hd : low.addDays? (d.number - low.number) = some d := Date.ofNumber?_eq_some.2 (by omega)
  unfold date
  simp only
  rw [if_neg (by omega)]
  refine (reaches_integer (n := d.number - low.number) (by omega) (by omega) ?_).bind ?_
  · show _ ≤ (18446744073709551616 : Int)
    omega
  · rw [hd]
    exact reaches_pure d

theorem date_eq_pure {low high : Date} (h : high.number ≤ low.number) : (date low high : Draw σ Date) = pure low := by
  unfold date
  simp only
  rw [if_pos (by omega)]

/-! ## Instants -/

variable {low high : DateTime}

theorem stepsFrom_dateTimeSeconds (hlow : low.isLeap = false) (hhigh : high.isLeap = false) :
    StepsFrom low 1000000000 ((high.sub low).tdiv 1000000000) ((high.sub low).tdiv 1000000000)
      (fun t => t.nanos ≤ high.nanos) (dateTimeSeconds low high : Draw σ DateTime) := by
  have hsub := DateTime.sub_eq_of_ordinary hhigh hlow
  have hlt := nanos_sub_lt hlow (DateTime.nanos_lt_of_ordinary hhigh)
  refine stepsFrom_of_le rfl hlow hhigh (by decide) (fun hspan => ?_) fun hspan t ht => ?_ <;>
    rw [Int.tdiv_eq_ediv_of_nonneg (nonneg_of_tdiv_pos (by decide) hspan)] at *
  · refine ⟨Int.le_of_lt hspan, ?_, by omega⟩
    show _ ≤ (18446744073709551616 : Int)
    omega
  · omega

/-- The microseconds of a range, of which no more are counted than a signed number of 64 bits holds. -/
def countedMicros (low high : DateTime) : Int := min ((high.sub low).tdiv 1000) maxMicros

theorem microsBetween_eq (h : -maxMicros - 1 ≤ (high.sub low).tdiv 1000) :
    microsBetween low high = countedMicros low high := by
  unfold microsBetween countedMicros
  simp only
  split <;> omega

theorem stepsFrom_dateTime (hlow : low.isLeap = false) (hhigh : high.isLeap = false)
    (h : -maxMicros - 1 ≤ (high.sub low).tdiv 1000) :
    StepsFrom low 1000 (countedMicros low high) (countedMicros low high - 1) (fun t => t.nanos < high.nanos)
      (dateTime low high : Draw σ DateTime) := by
  have hm : (dateTime low high : Draw σ DateTime) =
      if countedMicros low high ≤ 0 then pure low
      else (integer .wide 0 (countedMicros low high - 1) >>= fun micros => after low (micros * 1000)) := by
    rw [← microsBetween_eq h]
    rfl
  have hsub := DateTime.sub_eq_of_ordinary hhigh hlow
  have hmax : countedMicros low high ≤ maxMicros := Int.min_le_right _ _
  -- whole microseconds are no more than the range holds
  have hle : 0 < countedMicros low high → countedMicros low high * 1000 ≤ high.sub low := by
    intro hspan
    have hcounted : countedMicros low high ≤ (high.sub low).tdiv 1000 := Int.min_le_left _ _
    rw [Int.tdiv_eq_ediv_of_nonneg (nonneg_of_tdiv_pos (b := 1000) (by decide) (by omega))] at hcounted
    omega
  unfold maxMicros at hmax
  refine stepsFrom_of_le hm hlow hhigh (by decide) (fun hspan => ?_) fun hspan t ht => ?_ <;> have := hle hspan
  · refine ⟨by omega, ?_, by omega⟩
    show _ ≤ (18446744073709551616 : Int)
    omega
  · omega

theorem ends_dateTime {E : DrawError → Prop} (hlow : low.isLeap = false) (hhigh : high.isLeap = false)
    (hle : low.nanos ≤ high.nanos) :
    (dateTime low high : Draw σ DateTime).Ends
      (fun t => t.isLeap = false ∧ low.nanos ≤ t.nanos ∧ (t.nanos < high.nanos ∨ t = low)) E := by
  have hforward : 0 ≤ (high.sub low).tdiv 1000 := by
    rw [DateTime.sub_eq_of_ordinary hhigh hlow]
    exact Int.tdiv_nonneg (by omega) (by decide)
  have hleast : -maxMicros - 1 ≤ (high.sub low).tdiv 1000 := Int.le_trans (by decide) hforward
  have hsteps : StepsFrom _ _ _ _ _ (dateTime low high : Draw σ DateTime) := stepsFrom_dateTime hlow hhigh hleast
  rcases Int.lt_or_le 0 (countedMicros low high) with hspan | hspan
  · refine (hsteps.yields hspan).ends.mono ?_ fun _ h => h.elim
    rintro t ⟨k, hk, hlast, ht⟩
    obtain ⟨u, hu, hleap, hbefore⟩ := hsteps.within hspan k hk hlast
    cases ht.symm.trans hu
    have hnanos := (DateTime.add?_eq_some (fun h => by rw [hlow] at h; cases h) ht).2
    exact ⟨hleap, by omega, .inl hbefore⟩
  · rw [hsteps.start hspan]
    exact ends_pure ⟨hlow, Int.le_refl _, .inr rfl⟩

/-! ## Ranges that lead back -/

/-- From a range that leads back by more microseconds than are counted, the largest words lead out of the
calendar. -/
theorem run_dateTime_largest (hlow : low.isLeap = false) (hhigh : high.isLeap = false)
    (h : (high.sub low).tdiv 1000 < -maxMicros - 1) :
    (dateTime low high : Draw Tape DateTime).run (largestWords 0) = (.error .beyondCalendar, largestWords 2) := by
  have hbetween : microsBetween low high = maxMicros := by
    unfold microsBetween
    simp only
    rw [if_neg (by omega)]
  -- the start lies more than the count behind the first day, and the calendar is shorter than twice the count
  have hbeyond : low.add? ((maxMicros - 1) * 1000) = none := by
    refine DateTime.add?_eq_none_of_end_le hlow ?_
    have hfirst := high.date.first_le
    have hcalendar := calendar_days
    have hback : (low.nanos - high.nanos).tdiv 1000 = -(high.sub low).tdiv 1000 := by
      rw [DateTime.sub_eq_of_ordinary hhigh hlow, ← Int.neg_tdiv, Int.neg_sub]
    rw [DateTime.number_eq_of_ordinary hhigh] at hfirst
    unfold maxMicros at *
    rw [Int.tdiv_eq_ediv_of_nonneg (nonneg_of_tdiv_pos (b := 1000) (by decide) (by omega))] at hback
    omega
  unfold dateTime
  simp only [hbetween]
  rw [if_neg (by decide), run_bind, run_integer_largest 0 (by decide) (by decide)]
  simp only [after, hbeyond]
  rfl

/-! ## All ranges -/

/-- From a range of days, all its days are drawn and no others; from a range of instants outside leap seconds, in
steps of a second, all steps up to the last one that does not lie behind the end; and a range without a step gives its
start and takes no word. In steps of a microsecond, of which all lie before the end, this holds if and only if the
range does not lead back by more than a signed number of 64 bits can count, and otherwise some draw fails. -/
theorem ranges_drawn_iff (start stop : Date) {low high : DateTime} (hlow : low.isLeap = false)
    (hhigh : high.isLeap = false) :
    (start.number < stop.number →
      (date start stop : Draw Tape Date).Yields fun d => start.number ≤ d.number ∧ d.number ≤ stop.number) ∧
    (stop.number ≤ start.number → (date start stop : Draw Tape Date) = pure start) ∧
    StepsFrom low 1000000000 ((high.sub low).tdiv 1000000000) ((high.sub low).tdiv 1000000000)
      (fun t => t.nanos ≤ high.nanos) (dateTimeSeconds low high : Draw Tape DateTime) ∧
    (StepsFrom low 1000 (countedMicros low high) (countedMicros low high - 1) (fun t => t.nanos < high.nanos)
        (dateTime low high : Draw Tape DateTime) ↔ -maxMicros - 1 ≤ (high.sub low).tdiv 1000) ∧
    ((high.sub low).tdiv 1000 < -maxMicros - 1 →
      ∃ t : Tape, ((dateTime low high).run t).1 = .error .beyondCalendar) := by
  refine ⟨yields_date, date_eq_pure, stepsFrom_dateTimeSeconds hlow hhigh, ⟨fun hsteps => ?_, ?_⟩, ?_⟩
  · -- a range that leads back has no step, and yet a draw from it fails
    refine Int.not_lt.1 fun hback => ?_
    have hcounted : countedMicros low high ≤ (high.sub low).tdiv 1000 := Int.min_le_left _ _
    have hrun := run_dateTime_largest hlow hhigh hback
    unfold maxMicros at hback
    rw [hsteps.start (by omega)] at hrun
    cases hrun
  · exact stepsFrom_dateTime hlow hhigh
  · exact fun hback => ⟨largestWords 0, by rw [run_dateTime_largest hlow hhigh hback]⟩

/-- The whole calendar, which has more microseconds than are counted. -/
theorem ranges_drawn_whole_calendar :
    Date.first.number < Date.last.number ∧
    (date .first .last : Draw Tape Date).Yields
      (fun d => Date.first.number ≤ d.number ∧ d.number ≤ Date.last.number) ∧
    DateTime.first.isLeap = false ∧ DateTime.last.isLeap = false ∧
    StepsFrom .first 1000000000 16544868105599 16544868105599 (fun t => t.nanos ≤ DateTime.last.nanos)
      (dateTimeSeconds .first .last : Draw Tape DateTime) ∧
    StepsFrom .first 1000 maxMicros (maxMicros - 1) (fun t => t.nanos < DateTime.last.nanos)
      (dateTime .first .last : Draw Tape DateTime) := by
  have hdays : Date.first.number < Date.last.number := by decide
  have hfirst : DateTime.first.isLeap = false := by decide
  have hlast : DateTime.last.isLeap = false := by decide
  have hseconds : (DateTime.last.sub .first).tdiv 1000000000 = 16544868105599 := by decide +kernel
  have hmicros : countedMicros .first .last = maxMicros := by decide +kernel
  obtain ⟨hyields, -, hsteps, hiff, -⟩ := ranges_drawn_iff .first .last hfirst hlast
  rw [hseconds] at hsteps
  rw [hmicros] at hiff
  exact ⟨hdays, hyields hdays, hfirst, hlast, hsteps, hiff.2 (by decide +kernel)⟩

/-- From the last instant back to the first one, words are taken and lead out of the calendar. -/
theorem backward_range_leaves_calendar :
    DateTime.first.isLeap = false ∧ DateTime.last.isLeap = false ∧ DateTime.first.nanos < DateTime.last.nanos ∧
      (dateTime .last .first : Draw Tape DateTime).run (largestWords 0) = (.error .beyondCalendar, largestWords 2) ∧
      ¬ StepsFrom .last 1000 (countedMicros .last .first) (countedMicros .last .first - 1)
        (fun t => t.nanos < DateTime.first.nanos) (dateTime .last .first : Draw Tape DateTime) := by
  have hrun : (dateTime .last .first : Draw Tape DateTime).run (largestWords 0) =
      (.error .beyondCalendar, largestWords 2) :=
    run_dateTime_largest (by decide) (by decide) (by decide +kernel)
  refine ⟨by decide, by decide, by decide +kernel, hrun, fun hsteps => ?_⟩
  rw [hsteps.start (by decide +kernel)] at hrun
  cases hrun

end Fixtures.Draw
