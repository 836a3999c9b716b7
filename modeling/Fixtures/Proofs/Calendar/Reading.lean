/-
Reading the text of an instant gives the instant back: any day of the calendar, with its sign and with a year of more
than four digits, any fraction of a second, and the leap second.
-/
import Fixtures.Proofs.Calendar.Text
import Fixtures.Proofs.Text.Span

namespace Fixtures

variable {n width most : Nat} {c : Char} {cs ds rest : List Char}

/-! ## Digits at the start of a text -/

theorem padded_ne_nil : padded width n ≠ [] := by
  intro h
  exact natDigits_ne_nil (List.append_eq_nil_iff.1 h).2

/-- A padded number starts with a digit. -/
theorem exists_padded_eq_cons (width n : Nat) : ∃ d ds, padded width n = d :: ds ∧ d.isDigit = true := by
  have hne : padded width n ≠ [] := padded_ne_nil
  obtain ⟨d, ds, h⟩ := List.exists_cons_of_ne_nil hne
  exact ⟨d, ds, h, isDigit_of_mem_padded (h ▸ List.mem_cons_self)⟩

/-- A digit is no white space. -/
theorem isBlank_of_isDigit (h : c.isDigit = true) : isBlank c = false := by
  simp only [Char.isDigit, Bool.and_eq_true, decide_eq_true_eq, ge_iff_le] at h
  have hlow : 48 ≤ c.toNat := UInt32.le_iff_toNat_le.1 h.1
  have hhigh : c.toNat ≤ 57 := UInt32.le_iff_toNat_le.1 h.2
  unfold isBlank
  simp only [Bool.or_eq_false_iff, Bool.and_eq_false_iff, decide_eq_false_iff_not, beq_eq_false_iff_ne]
  omega

theorem trimLeft_cons (h : isBlank c = false) : trimLeft (c :: rest) = c :: rest :=
  List.dropWhile_cons_of_neg (by simp [h])

theorem trimLeft_padded : trimLeft (padded width n ++ rest) = padded width n ++ rest := by
  obtain ⟨d, ds, h, hd⟩ := exists_padded_eq_cons width n
  rw [h, List.cons_append, trimLeft_cons (isBlank_of_isDigit hd)]

namespace DateTime

/-! ## The parts of an instant -/

/-- A number that is as long as it can be is read whole, whatever comes behind it. -/
theorem readNumber?_padded (hw : 0 < width) (h : n < Nat.pow 10 width) :
    readNumber? width (padded width n ++ rest) = some (n, rest) := by
  have htake : (padded width n ++ rest).take width = padded width n :=
    List.take_left' (length_padded hw h)
  have hdigits : (padded width n).takeWhile Char.isDigit = padded width n :=
    List.takeWhile_eq_self_iff.2 fun d hd => isDigit_of_mem_padded hd
  unfold readNumber?
  simp only [htake, hdigits]
  rw [if_neg (by simpa using padded_ne_nil), digitsValue_padded, List.drop_left]

/-- A number of any length is read up to what is no digit. -/
theorem readNumber?_whole (hrest : ∀ c ∈ rest.head?, c.isDigit = false) :
    readNumber? (padded width n ++ rest).length (padded width n ++ rest) = some (n, rest) := by
  have hall : ∀ d ∈ padded width n, d.isDigit = true := fun d hd => isDigit_of_mem_padded hd
  obtain ⟨hdigits, -⟩ := span_append hall hrest
  unfold readNumber?
  simp only [List.take_length, hdigits]
  rw [if_neg (by simpa using padded_ne_nil), digitsValue_padded, List.drop_left]

theorem readPart?_padded (hw : 0 < width) (h : n < Nat.pow 10 width) :
    readPart? width (padded width n ++ rest) = some (n, rest) := by
  rw [readPart?, trimLeft_padded, readNumber?_padded hw h]

theorem readMark?_cons (h : isBlank c = false) : readMark? c (c :: rest) = some rest := by
  rw [readMark?, trimLeft_cons h]
  exact if_pos rfl

/-- A year is read with its sign, and without one if it has none. -/
theorem readYear?_yearText (y : Int) (hrest : ∀ c ∈ rest.head?, c.isDigit = false) :
    readYear? (yearText y ++ rest) = some (y, rest) := by
  unfold yearText
  split
  · rw [List.cons_append, readYear?, trimLeft_cons (by decide)]
    simp only [readNumber?_whole hrest, Option.map_some]
    rw [show -(y.natAbs : Int) = y by omega]
  split
  · rw [List.cons_append, readYear?, trimLeft_cons (by decide)]
    simp only [readNumber?_whole hrest, Option.map_some]
    rw [show (y.natAbs : Int) = y by omega]
  · have hy : y.natAbs < Nat.pow 10 4 := by
      show y.natAbs < 10000
      omega
    have hread : readNumber? 4 (padded 4 y.natAbs ++ rest) = some (y.natAbs, rest) := readNumber?_padded (by decide) hy
    rw [readYear?, trimLeft_padded]
    obtain ⟨d, ds, hpadded, hd⟩ := exists_padded_eq_cons 4 y.natAbs
    rw [hpadded, List.cons_append] at hread ⊢
    -- the first digit is no sign
    split
    · rename_i h
      cases List.head_eq_of_cons_eq h
      exact absurd hd (by decide)
    · rename_i h
      cases List.head_eq_of_cons_eq h
      exact absurd hd (by decide)
    · rw [hread]
      simp only [Option.map_some]
      rw [show (y.natAbs : Int) = y by omega]

/-- The digits of a fraction say its nanoseconds. -/
theorem readFraction?_padded {places : Nat} (hpos : 0 < places) (hplaces : places ≤ 9) (h : n < Nat.pow 10 places) :
    readFraction? ('.' :: padded places n) = some (n * Nat.pow 10 (9 - places), []) := by
  have hlength := length_padded hpos h
  have hall : ∀ d ∈ padded places n, d.isDigit = true := fun d hd => isDigit_of_mem_padded hd
  obtain ⟨htake, hdrop⟩ := span_append hall (show ∀ c ∈ ([] : List Char).head?, c.isDigit = false by simp)
  rw [List.append_nil] at htake hdrop
  unfold readFraction?
  simp only [htake, hdrop]
  rw [if_neg (by simpa using padded_ne_nil), List.take_of_length_le (by omega), digitsValue_padded, hlength]

theorem readFraction?_fractionText (t : TimeOfDay) : readFraction? t.fractionText = some (t.subsecond, []) := by
  have hlt : t.subsecond < 1000000000 := Nat.mod_lt _ (by decide)
  unfold TimeOfDay.fractionText
  simp only
  split
  · rename_i hzero
    rw [hzero]
    rfl
  split
  · rename_i hmillis
    rw [readFraction?_padded (by decide) (by decide) (by show t.subsecond / 1000000 < 1000; omega)]
    show some (t.subsecond / 1000000 * 1000000, _) = _
    rw [Nat.div_mul_cancel (Nat.dvd_of_mod_eq_zero hmillis)]
  split
  · rename_i hmicros
    rw [readFraction?_padded (by decide) (by decide) (by show t.subsecond / 1000 < 1000000; omega)]
    show some (t.subsecond / 1000 * 1000, _) = _
    rw [Nat.div_mul_cancel (Nat.dvd_of_mod_eq_zero hmicros)]
  · rw [readFraction?_padded (by decide) (by decide) hlt]
    show some (t.subsecond * 1, _) = _
    rw [Nat.mul_one]

/-! ## Times and dates from their parts -/

end DateTime

namespace TimeOfDay

/-- A leap second that is in its place: behind the last second of a minute. -/
def InPlace (t : TimeOfDay) : Prop := t.isLeap = true → t.second % 60 = 59

instance (t : TimeOfDay) : Decidable t.InPlace := inferInstanceAs (Decidable (_ → _))

/-- The time as which its text is read: a leap second that is out of place is the second behind it. -/
def asRead (t : TimeOfDay) : TimeOfDay :=
  if h : t.InPlace then t
  else ⟨t.second + 1, t.nano - 1000000000,
    by
      have := t.second_lt
      simp only [InPlace, Classical.not_imp] at h
      omega,
    by have := t.nano_lt; omega⟩

/-- It is read as itself just if it is in its place. -/
theorem asRead_eq_self_iff {t : TimeOfDay} : t.asRead = t ↔ t.InPlace := by
  unfold asRead
  split
  · exact ⟨fun _ => by assumption, fun _ => rfl⟩
  · refine ⟨fun h => ?_, fun h => by contradiction⟩
    have hsecond := congrArg TimeOfDay.second h
    simp at hsecond

theorem clock?_parts (t : TimeOfDay) :
    DateTime.clock? t.hour t.minute t.writtenSecond t.subsecond = some t.asRead := by
  have hsecond := t.second_lt
  have hnano := t.nano_lt
  unfold DateTime.clock? ofHms? hour minute writtenSecond subsecond
  by_cases hplace : t.InPlace
  · rw [asRead, dif_pos hplace]
    simp only [InPlace, isLeap, decide_eq_true_eq] at hplace
    rcases Nat.lt_or_ge t.nano 1000000000 with hordinary | hleap
    · rw [if_neg (by omega), dif_pos (by omega)]
      simp only [Option.some.injEq, TimeOfDay.ext_iff]
      omega
    · have := hplace hleap
      rw [if_pos (by omega), dif_pos (by omega)]
      simp only [Option.some.injEq, TimeOfDay.ext_iff]
      omega
  · -- a leap second behind another second than 59 is not written as second 60
    rw [asRead, dif_neg hplace]
    simp only [InPlace, isLeap, decide_eq_true_eq, Classical.not_imp] at hplace
    rw [if_neg (by omega), dif_pos (by omega)]
    simp only [Option.some.injEq, TimeOfDay.ext_iff]
    omega

end TimeOfDay

theorem Date.ofYmd?_parts (d : Date) : Date.ofYmd? d.year d.month d.day = some d := by
  obtain ⟨-, hmonth, hday⟩ := splitMonths_spec _ _ d.dayOfYear_lt
  have hlength : d.day ≤ (monthLengths d.year).getD (d.month - 1) 0 := by
    rw [List.getD_eq_getElem?_getD,
      List.getElem?_eq_getElem (show d.month - 1 < (monthLengths d.year).length from hmonth)]
    exact hday
  unfold ofYmd?
  simp only
  rw [if_pos ⟨Nat.succ_pos _, d.month_le, Nat.succ_pos _, hlength⟩, ofNumber?_eq_some]
  exact d.number_eq

namespace DateTime

/-- The instant as which its text is read. -/
def asRead (t : DateTime) : DateTime := ⟨t.date, t.time.asRead⟩

theorem asRead_eq_self_iff {t : DateTime} : t.asRead = t ↔ t.time.InPlace := by
  obtain ⟨date, time⟩ := t
  simp only [asRead, mk.injEq, true_and]
  exact TimeOfDay.asRead_eq_self_iff

/-- The text of an instant is read as the instant, or as the second behind it if it is within a leap second that
is out of place. -/
theorem read?_text (t : DateTime) : DateTime.read? t.text = some t.asRead := by
  have hmonth : t.date.month < Nat.pow 10 2 := Nat.lt_of_le_of_lt t.date.month_le (by decide)
  have hday : t.date.day < Nat.pow 10 2 := Nat.lt_of_le_of_lt t.date.day_le (by decide)
  have hsecond := t.time.second_lt
  have hnano := t.time.nano_lt
  have hhour : t.time.hour < Nat.pow 10 2 := by
    show t.time.second / 3600 < 100
    omega
  have hminute : t.time.minute < Nat.pow 10 2 := by
    show t.time.second / 60 % 60 < 100
    omega
  have hwritten : t.time.writtenSecond < Nat.pow 10 2 := by
    show t.time.second % 60 + t.time.nano / 1000000000 < 100
    omega
  have htext : t.text = yearText t.date.year ++ '-' :: (padded 2 t.date.month ++ '-' :: (padded 2 t.date.day ++
      'T' :: (padded 2 t.time.hour ++ ':' :: (padded 2 t.time.minute ++ ':' :: (padded 2 t.time.writtenSecond ++
        t.time.fractionText))))) := by
    simp only [DateTime.text, Date.text, TimeOfDay.clockText, List.append_assoc, List.cons_append]
  have hhyphen : isBlank '-' = false := by decide
  have hcolon : isBlank ':' = false := by decide
  have hletter : isBlank 'T' = false := by decide
  rw [htext]
  -- one part after the other
  refine Option.bind_eq_some_iff.2 ⟨_, readYear?_yearText _ (by simp), ?_⟩
  refine Option.bind_eq_some_iff.2 ⟨_, readMark?_cons hhyphen, ?_⟩
  refine Option.bind_eq_some_iff.2 ⟨_, readPart?_padded (by decide) hmonth, ?_⟩
  refine Option.bind_eq_some_iff.2 ⟨_, readMark?_cons hhyphen, ?_⟩
  refine Option.bind_eq_some_iff.2 ⟨_, readPart?_padded (by decide) hday, ?_⟩
  refine Option.bind_eq_some_iff.2 ⟨_, readMark?_cons hletter, ?_⟩
  refine Option.bind_eq_some_iff.2 ⟨_, readPart?_padded (by decide) hhour, ?_⟩
  refine Option.bind_eq_some_iff.2 ⟨_, readMark?_cons hcolon, ?_⟩
  refine Option.bind_eq_some_iff.2 ⟨_, readPart?_padded (by decide) hminute, ?_⟩
  refine Option.bind_eq_some_iff.2 ⟨_, readMark?_cons hcolon, ?_⟩
  refine Option.bind_eq_some_iff.2 ⟨_, readPart?_padded (by decide) hwritten, ?_⟩
  refine Option.bind_eq_some_iff.2 ⟨_, readFraction?_fractionText t.time, ?_⟩
  refine (if_pos (show (trimLeft []).isEmpty = true from rfl)).trans ?_
  refine Option.bind_eq_some_iff.2 ⟨_, Date.ofYmd?_parts t.date, ?_⟩
  exact Option.bind_eq_some_iff.2 ⟨_, t.time.clock?_parts, rfl⟩

end DateTime

end Fixtures
