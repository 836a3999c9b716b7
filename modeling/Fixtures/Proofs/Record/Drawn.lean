/-
Catalog entries and person records are drawn from every source of words: none of their ranges is empty,
none of their texts too long, and the days and instants of their ranges lie within the calendar. What is
drawn has the declared form, also at the ends of the ranges.
-/
import Fixtures.Proofs.Calendar.Form
import Fixtures.Proofs.Draw.Identifier
import Fixtures.Proofs.Draw.Range
import Fixtures.Record.Catalog
import Fixtures.Record.Person

namespace Fixtures

variable {σ : Type} [WordSource σ] {E : DrawError → Prop}

/-! ## Catalog entries -/

theorem exists_ofChar_eq {c : Char} (h : c.isLower = true) : ∃ u, Uppercase.ofChar c = [u] ∧ u.isUpper = true := by
  have hall : lowercaseLetters.all (fun c => uppercaseLetters.any fun u => Uppercase.ofChar c == [u]) = true := by
    decide +kernel
  obtain ⟨u, hu, heq⟩ := List.any_eq_true.1 (List.all_eq_true.1 hall c (Draw.mem_of_isLower h))
  exact ⟨u, eq_of_beq heq, Draw.isUpper_of_mem hu⟩

theorem capitalized_capitalize {n : Nat} {cs : List Char} (hlength : cs.length = n + 1)
    (hlower : ∀ c ∈ cs, c.isLower = true) : Capitalized n n (capitalize cs) := by
  obtain ⟨first, rest, rfl⟩ := List.exists_cons_of_length_eq_add_one hlength
  obtain ⟨u, hu, hupper⟩ := exists_ofChar_eq (hlower first List.mem_cons_self)
  have hrest : rest.length = n := Nat.succ.inj hlength
  refine ⟨u, rest, ?_, hupper, Nat.le_of_eq hrest.symm, Nat.le_of_eq hrest, fun c hc => ?_⟩
  · rw [capitalize, hu]
    rfl
  · exact hlower c (List.mem_cons_of_mem first hc)

namespace CatalogEntry

/-- The declared form of an entry, but for its score. -/
structure HasForm (e : CatalogEntry) : Prop where
  name : Capitalized 5 5 e.name.toList
  description : ∃ words : List String, e.description = " ".intercalate words ∧ words.length = 3 ∧
    ∀ w ∈ words, w.toList.length = 5 ∧ ∀ c ∈ w.toList, c.isLower = true
  year : 1990 ≤ e.year.toInt ∧ e.year.toInt ≤ 2025
  created : ∃ d : CalendarDay, d.IsValid ∧ 2000 ≤ d.year ∧ d.year ≤ 2025 ∧ d.Written e.created.toList
  randomNumber : 1 ≤ e.randomNumber.toInt ∧ e.randomNumber.toInt ≤ 1000

theorem ends_draw : (draw : Draw σ CatalogEntry).Ends HasForm E := by
  refine (Draw.ends_lowercase (Draw.letters_fit (by decide))).bind fun name hname => ?_
  refine ((Draw.ends_lowercase (Draw.letters_fit (by decide))).replicate 3).bind fun words hwords => ?_
  refine (Draw.ends_integer (by decide) (by decide)).bind fun year hyear => ?_
  refine (Draw.ends_date _ _).bind fun created hcreated => ?_
  refine (Draw.ends_integer (by decide) (by decide)).bind fun number hnumber => ?_
  refine (Draw.ends_roundedFloat 2 (by decide) (by decide) (by decide +kernel) (by decide +kernel)).map
    fun _ _ => ⟨?_, ?_, ?_, ?_, ?_⟩
  · rw [String.toList_ofList]
    exact capitalized_capitalize hname.1 hname.2
  · refine ⟨words.map String.ofList, rfl, by rw [List.length_map, hwords.1], fun w hw => ?_⟩
    obtain ⟨cs, hcs, rfl⟩ := List.mem_map.1 hw
    rw [String.toList_ofList]
    exact hwords.2 cs hcs
  · simp only [yearFrom, yearTo] at hyear
    rwa [Int32.toInt_ofInt_of_le (by omega) (by omega)]
  · -- the days of the range are those of its years
    have hfrom : 2000 ≤ created.year := Date.le_year_iff.2 hcreated.1
    have hto : ¬ 2026 ≤ created.year := by
      rw [Date.le_year_iff, Int.not_le]
      exact Int.lt_of_le_of_lt hcreated.2 (by decide)
    refine ⟨created.parts, created.isValid_parts, hfrom, Int.lt_add_one_iff.1 (Int.not_le.1 hto), ?_⟩
    rw [String.toList_ofList]
    exact Date.written_text (by omega) (by omega)
  · rwa [Int64.toInt_ofInt_of_le (by omega) (by omega)]

end CatalogEntry

/-! ## Person records -/

namespace PersonRecord

/-- The declared form of a record whose identifier is made from some bytes, but for its score. -/
structure HasForm (bytes : List UInt8) (r : PersonRecord) : Prop where
  id : ∃ octets, VersionFour bytes octets ∧ IdentifierText octets r.id.toList
  name : r.name ∈ names
  age : 18 ≤ r.age.toNat ∧ r.age.toNat ≤ 80
  createdAt : ∃ (d : CalendarDay) (t : ClockTime), d.IsValid ∧ 2020 ≤ d.year ∧ d.year < 2025 ∧
    WrittenAt d t r.createdAt.toList

/-- What is drawn of a record behind its identifier. -/
def drawIdentified (id : List Char) : Draw σ PersonRecord := do
  let name ← Draw.pick names
  let age ← Draw.integer .narrow ageFrom ageTo
  let score ← Draw.roundedFloat scoreFrom scoreTo 2
  let active ← Draw.coin
  let created ← Draw.dateTime createdFrom createdBefore
  return {
    id := String.ofList id
    name := name
    age := .ofNat age.toNat
    score := score
    active := active
    createdAt := String.ofList created.microsText }

theorem draw_eq : (draw : Draw σ PersonRecord) = (Draw.uuid >>= drawIdentified) := rfl

/-- An instant of the range lies on a day of its years. -/
theorem writtenAt_created {t : DateTime} (hleap : t.isLeap = false) (hfrom : createdFrom.nanos ≤ t.nanos)
    (hto : t.nanos < createdBefore.nanos) : ∃ (d : CalendarDay) (time : ClockTime), d.IsValid ∧ 2020 ≤ d.year ∧
      d.year < 2025 ∧ WrittenAt d time t.microsText := by
  have hday := DateTime.number_eq_of_ordinary hleap
  have hlow : 2020 ≤ t.date.year := by
    rw [Date.le_year_iff, hday]
    exact Int.ediv_le_ediv (c := 86400000000000) (by decide) hfrom
  have hhigh : ¬ 2025 ≤ t.date.year := by
    rw [Date.le_year_iff, hday, Int.not_le]
    exact Int.ediv_lt_of_lt_mul (by decide) hto
  rw [Int.not_le] at hhigh
  exact ⟨t.date.parts, t.time.clock, t.date.isValid_parts, hlow, hhigh,
    DateTime.writtenAt_microsText hleap (by omega) (by omega)⟩

theorem ends_drawIdentified {bytes : List UInt8} (h : bytes.length = 16) :
    (drawIdentified (uuidText bytes) : Draw σ PersonRecord).Ends (HasForm bytes) E := by
  refine (Draw.ends_pick (by decide) (by decide)).bind fun name hname => ?_
  refine (Draw.ends_integer (by decide) (by decide)).bind fun age hage => ?_
  refine (Draw.ends_roundedFloat 2 (by decide) (by decide) (by decide +kernel) (by decide +kernel)).bind fun _ _ => ?_
  refine Draw.ends_coin.bind fun active _ => ?_
  refine (Draw.ends_dateTime (by decide) (by decide) (by decide)).map fun created hcreated => ⟨?_, hname, ?_, ?_⟩
  · refine ⟨versionFour bytes, versionFour_spec h, ?_⟩
    rw [String.toList_ofList]
    exact identifierText_uuidText h
  · simp only [ageFrom, ageTo] at hage
    rw [UInt8.toNat_ofNat_of_lt' (show age.toNat < 256 by omega)]
    omega
  · obtain ⟨hleap, hfrom, hto⟩ := hcreated
    rw [String.toList_ofList]
    refine writtenAt_created hleap hfrom ?_
    rcases hto with hto | rfl
    · exact hto
    · decide

theorem ends_draw : (draw : Draw σ PersonRecord).Ends (fun r => ∃ bytes, r.HasForm bytes) E := by
  rw [draw_eq]
  refine Draw.ends_uuid.bind fun id hid => ?_
  obtain ⟨bytes, hlength, rfl⟩ := hid
  exact (ends_drawIdentified hlength).mono (fun _ hr => ⟨bytes, hr⟩) fun _ he => he

/-- A record that is drawn has its identifier from the next sixteen words of the source. -/
theorem run_draw (s : σ) : ∃ words s₁ r s', words.length = 16 ∧ Draw.Gives words s s₁ ∧
    (draw : Draw σ PersonRecord).run s = (.ok r, s') ∧ r.HasForm (words.map UInt32.toUInt8) := by
  obtain ⟨words, s₁, hlength, hgives, huuid⟩ := Draw.run_uuid s
  have hbytes : (words.map UInt32.toUInt8).length = 16 := by rw [List.length_map, hlength]
  obtain ⟨r, s', hrun, hform⟩ := (ends_drawIdentified hbytes).exists_run s₁
  refine ⟨words, s₁, r, s', hlength, hgives, ?_, hform⟩
  rw [draw_eq, Draw.run_bind, huuid]
  exact hrun

end PersonRecord

end Fixtures
