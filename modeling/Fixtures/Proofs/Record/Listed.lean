/-
Lists of records. From every source of words each kind of record is drawn in the number that was asked for, and each
record has its declared form, which for a person includes the words that its identifier was made from. Only a list that
cannot be addressed is not drawn, and then no word is taken.
-/
import Fixtures.Proofs.Draw.Repetition
import Fixtures.Proofs.Record.Drawn
import Fixtures.Proofs.Record.Ledger
import Fixtures.Random.ChaCha

namespace Fixtures

variable {σ α : Type}

/-- Lists of records that take a number of bytes each: from every source there is a list of as many records as are
asked for, and each of them stands in the given relation to where the ones before it stopped. A list that cannot be
addressed fails before a word is taken. -/
structure Draw.Lists (listing : Nat → Draw σ (List α)) (bytes : Nat) (Form : σ → α → Prop) : Prop where
  listed : ∀ n s, Memory.holds bytes n = true → ∃ l s', (listing n).run s = (.ok l, s') ∧ l.length = n ∧
    ∀ i (hi : i < l.length), ∃ t, (listing i).run s = (.ok (l.take i), t) ∧ Form t l[i]
  unaddressed : ∀ n s, Memory.holds bytes n = false → (listing n).run s = (.error .tooLarge, s)

theorem Draw.lists_list {m : Draw σ α} {Form : σ → α → Prop} (bytes : Nat)
    (h : ∀ s, ∃ a s', m.run s = (.ok a, s') ∧ Form s a) : Draw.Lists (fun n => Draw.list bytes n m) bytes Form :=
  ⟨fun _ s hholds => Draw.exists_run_list h hholds s, fun _ s hlarge => Draw.run_list_of_not_holds hlarge s⟩

variable [WordSource σ]

/-- Catalog entries, person records and the ledger rows of a window that ends outside leap seconds are listed from
every source of words, and have their declared form. The identifier of a person is made from the low bytes of the next
sixteen words. -/
theorem records_have_form :
    Draw.Lists (CatalogEntry.drawList : Nat → Draw σ _) CatalogEntry.bytes (fun _ e => e.HasForm) ∧
      Draw.Lists (PersonRecord.drawList : Nat → Draw σ _) PersonRecord.bytes (fun s r =>
        ∃ words s', words.length = 16 ∧ Draw.Gives words s s' ∧ r.HasForm (words.map UInt32.toUInt8)) ∧
      ∀ {stop : DateTime} {days : Int64} {window : LedgerWindow}, LedgerWindow.ofSpan? stop days = some window →
        stop.isLeap = false →
        Draw.Lists (LedgerRow.drawList window : Nat → Draw σ _) LedgerRow.bytes (fun _ r => r.HasForm) := by
  refine ⟨Draw.lists_list _ fun s => ?_, Draw.lists_list _ fun s => ?_, fun h hleap => Draw.lists_list _ fun s => ?_⟩
  · exact CatalogEntry.ends_draw.exists_run s
  · obtain ⟨words, s₁, r, s', hlength, hgives, hrun, hform⟩ := PersonRecord.run_draw s
    exact ⟨r, s', hrun, words, s₁, hlength, hgives, hform⟩
  · exact (LedgerRow.ends_draw_form h hleap).exists_run s

/-- Three rows of the five years up to the start of 2025, on the largest words. -/
theorem records_have_form_five_years :
    let stop : DateTime := .startOf ⟨daysBeforeYear 2025, by decide, by decide⟩
    let window : LedgerWindow := ⟨.startOf ⟨daysBeforeYear 2020 + 2, by decide, by decide⟩, stop⟩
    LedgerWindow.ofSpan? stop 1825 = some window ∧ stop.isLeap = false ∧
      Memory.holds LedgerRow.bytes 3 = true ∧
      ∃ l s', (LedgerRow.drawList window 3).run (Draw.largestWords 0) = (.ok l, s') ∧ l.length = 3 ∧
        ∀ r ∈ l, r.HasForm := by
  intro stop window
  have hwindow : LedgerWindow.ofSpan? stop 1825 = some window := by unfold stop window; decide +kernel
  have hleap : stop.isLeap = false := by unfold stop; decide
  have hholds : Memory.holds LedgerRow.bytes 3 = true := by decide
  obtain ⟨l, s', hrun, hlength, hform⟩ := (records_have_form.2.2 hwindow hleap).listed 3 (Draw.largestWords 0) hholds
  refine ⟨hwindow, hleap, hholds, l, s', hrun, hlength, fun r hr => ?_⟩
  obtain ⟨i, hi, rfl⟩ := List.getElem_of_mem hr
  obtain ⟨t, -, hr⟩ := hform i hi
  exact hr

/-- The largest number of persons cannot be listed. -/
theorem most_persons_not_listed :
    ((PersonRecord.drawList 0xffffffffffffffff).run (ChaCha.ofSeed 1)).1 = .error .tooLarge ∧
      ¬ ∃ l s, (PersonRecord.drawList 0xffffffffffffffff).run (ChaCha.ofSeed 1) = (.ok l, s) ∧
        l.length = 0xffffffffffffffff := by
  have hrun : (PersonRecord.drawList 0xffffffffffffffff).run (ChaCha.ofSeed 1) = (.error .tooLarge, ChaCha.ofSeed 1) :=
    Draw.run_list_of_not_holds (by decide) _
  refine ⟨by rw [hrun], ?_⟩
  rintro ⟨l, s, h, -⟩
  rw [hrun] at h
  cases h

end Fixtures
