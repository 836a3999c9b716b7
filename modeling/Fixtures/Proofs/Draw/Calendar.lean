/-
Random days and instants lie in their range. A day of the calendar is drawn from any range of days, and
an instant in whole seconds from any range that starts outside leap seconds and ends on its own day.
-/
import Fixtures.Proofs.Calendar.Instant
import Fixtures.Proofs.Draw.Uniform
import Fixtures.Random.Calendar

namespace Fixtures.Draw

variable {σ : Type} [WordSource σ] {E : DrawError → Prop}

/-! ## Days -/

/-- The days of the calendar. -/
theorem calendar_days : daysBeforeYear 262143 - daysBeforeYear (-262143) = 191491529 := by decide

theorem ends_date (low high : Date) :
    (date low high : Draw σ Date).Ends (fun d => low.number ≤ d.number ∧ d.number ≤ max low.number high.number) E := by
  have hlow := low.first_le
  have hhigh := high.lt_end
  unfold date
  simp only
  split
  · exact ends_pure ⟨Int.le_refl _, Int.le_max_left _ _⟩
  · rename_i hspan
    refine (ends_integer (by omega) ?_).bind fun days hdays => ?_
    · -- the calendar has fewer days than a word has values
      have := calendar_days
      show _ ≤ (18446744073709551616 : Int)
      omega
    · cases hd : low.addDays? days with
      | none =>
        rcases Date.ofNumber?_eq_none.1 hd with h | h <;> omega
      | some d =>
        have := Date.ofNumber?_eq_some.1 hd
        exact ends_pure ⟨by omega, by omega⟩

/-! ## Instants -/

/-- An instant outside leap seconds can be moved to any point of the line that does not come after
another instant, but for the end of that one's day. -/
theorem exists_add?_of_le {t high : DateTime} {delta : Int} (ht : t.isLeap = false) (hdelta : 0 ≤ delta)
    (hle : t.nanos + delta ≤ high.nanos) (hhigh : high.time.nanos < 86400000000000) :
    ∃ u, t.add? delta = some u ∧ u.isLeap = false ∧ u.nanos = t.nanos + delta := by
  have hleap : t.isLeap = true → delta ≤ -1000000000 := fun h => by rw [ht] at h; cases h
  -- the day that is reached lies between the days of `t` and `high`
  have hfirst := t.date.first_le
  have hlast := high.date.lt_end
  rw [DateTime.number_eq_of_ordinary ht] at hfirst
  rw [DateTime.number_eq hhigh] at hlast
  obtain ⟨u, hu⟩ := DateTime.exists_add? hleap
    (Int.le_trans hfirst (Int.ediv_le_ediv (by decide) (by omega)))
    (Int.lt_of_le_of_lt (Int.ediv_le_ediv (by decide) hle) hlast)
  exact ⟨u, hu, DateTime.add?_eq_some hleap hu⟩

omit [WordSource σ] in
theorem ends_after {t high : DateTime} {delta : Int} (ht : t.isLeap = false) (hdelta : 0 ≤ delta)
    (hle : t.nanos + delta ≤ high.nanos) (hhigh : high.time.nanos < 86400000000000) :
    (after t delta : Draw σ DateTime).Ends (fun u => u.isLeap = false ∧ u.nanos = t.nanos + delta) E := by
  obtain ⟨u, hu, hspec⟩ := exists_add?_of_le ht hdelta hle hhigh
  unfold after
  rw [hu]
  exact ends_pure hspec

theorem nonneg_of_tdiv_pos {a b : Int} (hb : 0 ≤ b) (h : 0 < a.tdiv b) : 0 ≤ a := by
  refine Int.not_lt.1 fun ha => ?_
  have := Int.tdiv_nonneg (show 0 ≤ -a by omega) hb
  rw [Int.neg_tdiv] at this
  omega

/-- Two instants outside the last leap second of a day are no further apart than the calendar is long. -/
theorem nanos_sub_lt {low high : DateTime} (hlow : low.isLeap = false) (hhigh : high.time.nanos < 86400000000000) :
    high.nanos - low.nanos < 191491529 * 86400000000000 := by
  have := calendar_days
  have hfirst := low.date.first_le
  have hlast := high.date.lt_end
  rw [DateTime.number_eq_of_ordinary hlow] at hfirst
  rw [DateTime.number_eq hhigh] at hlast
  omega

/-- Whole seconds are drawn from an ordinary instant on, and never past the other end of the range. -/
theorem ends_dateTimeSeconds {low high : DateTime} (hlow : low.isLeap = false)
    (hhigh : high.time.nanos < 86400000000000) :
    (dateTimeSeconds low high : Draw σ DateTime).Ends
      (fun t => t.isLeap = false ∧ low.nanos ≤ t.nanos ∧ t.nanos ≤ max low.nanos high.nanos) E := by
  -- a leap second at the end may make the measured range shorter, never longer
  have hsub : high.sub low ≤ high.nanos - low.nanos := by
    rw [DateTime.sub_eq hlow]
    split <;> omega
  have hlt := nanos_sub_lt hlow hhigh
  unfold dateTimeSeconds
  simp only
  split
  · exact ends_pure ⟨hlow, Int.le_refl _, Int.le_max_left _ _⟩
  · rename_i hspan
    rw [Int.not_le] at hspan
    rw [Int.tdiv_eq_ediv_of_nonneg (nonneg_of_tdiv_pos (by decide) hspan)] at *
    refine (ends_integer (by omega) ?_).bind fun seconds hseconds => ?_
    · show _ ≤ (18446744073709551616 : Int)
      omega
    · exact (ends_after hlow (by omega) (by omega) hhigh).mono (fun t ht => ⟨ht.1, by omega, by omega⟩) fun _ he => he

end Fixtures.Draw
