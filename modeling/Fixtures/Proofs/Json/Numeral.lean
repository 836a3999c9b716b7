/-
Numerals in JSON texts. The numerals of integers and of floating-point numbers are well formed, those of
floating-point numbers have a point or an exponent, and a well-formed numeral is read from its text.
-/
import Fixtures.Json.Reader
import Fixtures.Proofs.Decimal.Digits

namespace Fixtures

/-! ## Well-formed numerals -/

/-- A numeral as JSON writes it: of digits, at least one before the point, and without leading zeros. -/
structure Numeral.WellFormed (n : Numeral) : Prop where
  whole_ne_nil : n.whole ≠ []
  isDigit_whole : ∀ c ∈ n.whole, c.isDigit = true
  isDigit_fraction : ∀ c ∈ n.fraction, c.isDigit = true
  leading : n.whole.head? = some '0' → n.whole = ['0']

namespace Numeral

theorem wellFormed_ofInt (n : Int) : (ofInt n).WellFormed where
  whole_ne_nil := natDigits_ne_nil
  isDigit_whole _ := isDigit_of_mem_natDigits
  isDigit_fraction _ hc := absurd hc List.not_mem_nil
  leading h := by
    by_cases hn : n.natAbs = 0
    · simp only [ofInt, hn]
      rfl
    · exact absurd h (head?_natDigits_ne_zero hn)

theorem isInteger_ofInt (n : Int) : (ofInt n).isInteger = true := rfl

theorem toInt_ofInt (n : Int) : (ofInt n).toInt = n := by
  simp only [toInt, ofInt, digitsValue_natDigits, decide_eq_true_eq]
  split <;> omega

end Numeral

/-- A numeral of digits that starts with another one than zero. -/
theorem Numeral.wellFormed_of_leading {n : Numeral} {c : Char} {cs : List Char} (hwhole : n.whole = c :: cs)
    (hc : c ≠ '0') (hdigits : ∀ c ∈ n.whole ++ n.fraction, c.isDigit = true) : n.WellFormed where
  whole_ne_nil := by rw [hwhole]; exact List.cons_ne_nil c cs
  isDigit_whole c hc := hdigits c (List.mem_append_left _ hc)
  isDigit_fraction c hc := hdigits c (List.mem_append_right _ hc)
  leading h := by
    rw [hwhole, List.head?_cons, Option.some.injEq] at h
    exact absurd h hc

namespace Decimal

theorem wellFormed_numeral (d : Decimal) (style : FloatStyle) (negative : Bool) :
    (d.numeral style negative).WellFormed := by
  have hzero : '0'.isDigit = true := rfl
  unfold numeral
  simp only
  split
  · exact ⟨by simp, by simp [hzero], by simp [hzero], fun _ => rfl⟩
  rename_i hd
  have hdigit : ∀ c ∈ natDigits d.digits, c.isDigit = true := fun _ => isDigit_of_mem_natDigits
  have hhead := head?_natDigits_ne_zero hd
  obtain ⟨c, cs, hcs⟩ := List.exists_cons_of_ne_nil (natDigits_ne_nil (n := d.digits))
  rw [hcs] at hhead hdigit ⊢
  have hc : c ≠ '0' := fun h => hhead (by rw [h, List.head?_cons])
  split
  · split
    · refine Numeral.wellFormed_of_leading (List.cons_append ..) hc ?_
      simpa [hzero, or_imp, forall_and] using hdigit
    split
    · refine Numeral.wellFormed_of_leading List.take_succ_cons hc ?_
      rwa [List.take_append_drop]
    · refine ⟨by simp, by simp [hzero], ?_, fun _ => rfl⟩
      simpa [hzero, or_imp, forall_and] using hdigit
  · refine Numeral.wellFormed_of_leading List.take_succ_cons hc ?_
    rwa [List.take_append_drop]

/-- The numeral of a decimal is never that of an integer: it has a point or an exponent. -/
theorem isInteger_numeral (d : Decimal) (style : FloatStyle) (negative : Bool) :
    (d.numeral style negative).isInteger = false := by
  unfold numeral leadingPower
  simp only
  split
  · rfl
  split
  · split
    · rfl
    split
    · -- with a last digit behind the point, the first digit is not the last one
      have hlength : 0 < (natDigits d.digits).length := length_natDigits_pos d.digits
      simp only [Numeral.isInteger, Option.isNone_none, Bool.and_true, List.isEmpty_eq_false_iff, ne_eq,
        List.drop_eq_nil_iff]
      omega
    · simp [Numeral.isInteger, natDigits_ne_nil]
  · simp [Numeral.isInteger]

end Decimal

namespace Double

variable {x : Double} {style : FloatStyle} {n : Numeral}

theorem numeral?_eq_some (h : x.numeral? style = some n) : n = x.shortest.numeral style x.negative := by
  unfold numeral? at h
  split at h
  · exact (Option.some.inj h).symm
  · cases h

theorem wellFormed_of_numeral? (h : x.numeral? style = some n) : n.WellFormed :=
  numeral?_eq_some h ▸ Decimal.wellFormed_numeral _ _ _

theorem isInteger_of_numeral? (h : x.numeral? style = some n) : n.isInteger = false :=
  numeral?_eq_some h ▸ Decimal.isInteger_numeral _ _ _

end Double

/-! ## Reading -/

namespace Json

/-- What follows a numeral does not go on with it. -/
def EndsNumeral (rest : List Char) : Prop :=
  ∀ c ∈ rest.head?, c.isDigit = false ∧ c ≠ '.' ∧ c ≠ 'e' ∧ c ≠ 'E'

theorem readDigits?_append {ds rest : List Char} (hne : ds ≠ []) (hds : ∀ c ∈ ds, c.isDigit = true)
    (hrest : ∀ c ∈ rest.head?, c.isDigit = false) : readDigits? (ds ++ rest) = some (ds, rest) := by
  have htake : (ds ++ rest).takeWhile Char.isDigit = ds := by
    rw [List.takeWhile_append_of_pos hds]
    cases rest with
    | nil => simp
    | cons c rest => simp [hrest c rfl]
  have hdrop : (ds ++ rest).dropWhile Char.isDigit = rest := by
    rw [List.dropWhile_append_of_pos hds]
    cases rest with
    | nil => simp
    | cons c rest => simp [hrest c rfl]
  unfold readDigits?
  simp only [htake, hdrop]
  rw [if_neg (by simpa using hne)]

theorem readDigits?_natDigits {n : Nat} {rest : List Char} (hrest : EndsNumeral rest) :
    readDigits? (natDigits n ++ rest) = some (natDigits n, rest) :=
  readDigits?_append natDigits_ne_nil (fun _ => isDigit_of_mem_natDigits) fun c hc => (hrest c hc).1

theorem readSigned?_text (plus : Bool) (e : Int) {rest : List Char} (hrest : EndsNumeral rest) :
    readSigned? ((Numeral.exponentText plus e).tail ++ rest) = some (e, rest) := by
  have hread := readDigits?_natDigits (n := e.natAbs) hrest
  unfold Numeral.exponentText
  rw [List.tail_cons]
  split
  · rw [List.cons_append, readSigned?, hread]
    simp only [Option.map_some, digitsValue_natDigits, Option.some.injEq, Prod.mk.injEq, and_true]
    omega
  rename_i he
  have hvalue : (e.natAbs : Int) = e := by omega
  split
  · rw [List.cons_append, readSigned?, hread]
    simp only [Option.map_some, digitsValue_natDigits, hvalue]
  · -- the first digit is no sign
    obtain ⟨c, cs, hcs⟩ := List.exists_cons_of_ne_nil (natDigits_ne_nil (n := e.natAbs))
    have hdigit : c.isDigit = true := isDigit_of_mem_natDigits (by rw [hcs]; exact List.mem_cons_self)
    unfold readSigned?
    split
    · rename_i heq
      rw [hcs] at heq
      cases heq
      cases hdigit
    · rename_i heq
      rw [hcs] at heq
      cases heq
      cases hdigit
    · rw [hread]
      simp only [Option.map_some, digitsValue_natDigits, hvalue]

theorem readExponent?_text (plus : Bool) (e : Option Int) {rest : List Char} (hrest : EndsNumeral rest) :
    readExponent? ((e.map (Numeral.exponentText plus)).getD [] ++ rest) = some (e, rest) := by
  cases e with
  | none =>
    rw [Option.map_none, Option.getD_none, List.nil_append]
    unfold readExponent?
    split
    · exact absurd rfl (hrest 'e' rfl).2.2.1
    · exact absurd rfl (hrest 'E' rfl).2.2.2
    · rfl
  | some e =>
    have hread := readSigned?_text plus e hrest
    rw [Option.map_some, Option.getD_some]
    unfold Numeral.exponentText at hread ⊢
    rw [List.cons_append, readExponent?]
    rw [List.tail_cons] at hread
    rw [hread, Option.map_some]

/-- An exponent, or what follows without one, does not go on with digits or with a point. -/
theorem head?_exponentText (plus : Bool) (e : Option Int) {rest : List Char} (hrest : EndsNumeral rest) :
    ∀ c ∈ ((e.map (Numeral.exponentText plus)).getD [] ++ rest).head?, c.isDigit = false ∧ c ≠ '.' := by
  cases e with
  | none => exact fun c hc => ⟨(hrest c hc).1, (hrest c hc).2.1⟩
  | some e =>
    rintro c hc
    cases hc
    decide

theorem readFraction?_text {ds rest : List Char} (hds : ∀ c ∈ ds, c.isDigit = true)
    (hrest : ∀ c ∈ rest.head?, c.isDigit = false ∧ c ≠ '.') :
    readFraction? ((if ds.isEmpty then [] else '.' :: ds) ++ rest) = some (ds, rest) := by
  cases ds with
  | nil =>
    simp only [List.isEmpty_nil, if_true, List.nil_append]
    unfold readFraction?
    split
    · exact absurd rfl (hrest '.' rfl).2
    · rfl
  | cons d ds => exact readDigits?_append (List.cons_ne_nil d ds) hds fun c hc => (hrest c hc).1

theorem readWhole?_append {ds rest : List Char} (hne : ds ≠ []) (hds : ∀ c ∈ ds, c.isDigit = true)
    (hleading : ds.head? = some '0' → ds = ['0']) (hrest : ∀ c ∈ rest.head?, c.isDigit = false) :
    readWhole? (ds ++ rest) = some (ds, rest) := by
  unfold readWhole?
  rw [readDigits?_append hne hds hrest]
  split
  · rename_i heq
    cases heq
    cases hleading rfl
  · rfl

/-- A well-formed numeral is read from its text. -/
theorem readNumeral?_text {n : Numeral} (hn : n.WellFormed) (plus : Bool) {rest : List Char}
    (hrest : EndsNumeral rest) : readNumeral? (n.text plus ++ rest) = some (n, rest) := by
  obtain ⟨negative, whole, fraction, exponent⟩ := n
  obtain ⟨hne, hwhole, hfraction, hleading⟩ := hn
  simp only at hne hwhole hfraction hleading
  have hexponent := head?_exponentText plus exponent hrest
  have htail := readExponent?_text plus exponent hrest
  unfold Numeral.text
  simp only [List.append_assoc]
  generalize (exponent.map (Numeral.exponentText plus)).getD [] ++ rest = tail at hexponent htail
  have hpoint : ∀ c ∈ ((if fraction.isEmpty then [] else '.' :: fraction) ++ tail).head?, c.isDigit = false := by
    cases fraction with
    | nil => exact fun c hc => (hexponent c hc).1
    | cons d ds =>
      rintro c hc
      cases hc
      rfl
  have hunsigned : readUnsigned? negative (whole ++ ((if fraction.isEmpty then [] else '.' :: fraction) ++ tail)) =
      some (⟨negative, whole, fraction, exponent⟩, rest) := by
    unfold readUnsigned?
    rw [readWhole?_append hne hwhole hleading hpoint]
    simp only [readFraction?_text hfraction hexponent, htail, Option.bind_eq_bind, Option.bind_some]
    rfl
  cases negative with
  | true => exact hunsigned
  | false =>
    simp only [Bool.false_eq_true, if_false, List.nil_append]
    -- the first digit is no sign
    obtain ⟨c, cs, rfl⟩ := List.exists_cons_of_ne_nil hne
    unfold readNumeral?
    split
    · rename_i heq
      cases heq
      cases hwhole '-' List.mem_cons_self
    · exact hunsigned

end Json

end Fixtures
