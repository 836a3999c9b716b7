/-
Outcomes of draws: what holds of the value or the error that a draw ends in, whatever words its
source gives. The rules follow the way draws are put together, so that the outcome of a draw is
read off those of its parts.
-/
import Fixtures.Random.Source

namespace Fixtures.Draw

variable {σ α β : Type}

/-! ## Runs -/

@[simp] theorem run_pure (a : α) (s : σ) : (pure a : Draw σ α).run s = (.ok a, s) := rfl

@[simp] theorem run_throw (e : DrawError) (s : σ) : (throw e : Draw σ α).run s = (.error e, s) := rfl

theorem run_bind (m : Draw σ α) (f : α → Draw σ β) (s : σ) :
    (m >>= f).run s =
      match m.run s with
      | (.ok a, s) => (f a).run s
      | (.error e, s) => (.error e, s) := by
  show (match m s with | (r, s) => ExceptT.bindCont f r s) = _
  unfold run
  rcases m s with ⟨_ | a, s⟩ <;> rfl

/-! ## Outcomes -/

/-- From every source the draw ends in a value with the property `P` or in an error with the
property `E`. -/
structure Ends (m : Draw σ α) (P : α → Prop) (E : DrawError → Prop) : Prop where
  outcome (s : σ) :
    match (m.run s).1 with
    | .ok a => P a
    | .error e => E e

variable {P : α → Prop} {Q : β → Prop} {E : DrawError → Prop}

theorem Ends.of_ok {m : Draw σ α} (h : m.Ends P E) {s s' : σ} {a : α} (hr : m.run s = (.ok a, s')) :
    P a := by
  have := h.outcome s; rw [hr] at this; exact this

theorem Ends.of_error {m : Draw σ α} (h : m.Ends P E) {s s' : σ} {e : DrawError}
    (hr : m.run s = (.error e, s')) : E e := by
  have := h.outcome s; rw [hr] at this; exact this

/-- A draw that never fails gives a value from every source. -/
theorem Ends.exists_run {m : Draw σ α} (h : m.Ends P fun _ => False) (s : σ) :
    ∃ a s', m.run s = (.ok a, s') ∧ P a := by
  rcases hr : m.run s with ⟨e | a, s'⟩
  · exact (h.of_error hr).elim
  · exact ⟨a, s', rfl, h.of_ok hr⟩

theorem Ends.mono {m : Draw σ α} {P' : α → Prop} {E' : DrawError → Prop} (h : m.Ends P E)
    (hP : ∀ a, P a → P' a) (hE : ∀ e, E e → E' e) : m.Ends P' E' := by
  refine ⟨fun s => ?_⟩
  rcases hr : m.run s with ⟨e | a, s'⟩
  · exact hE e (h.of_error hr)
  · exact hP a (h.of_ok hr)

/-- Of every draw nothing at all can be said. -/
theorem ends_any (m : Draw σ α) : m.Ends (fun _ => True) fun _ => True := by
  refine ⟨fun s => ?_⟩
  split <;> trivial

theorem ends_pure {a : α} (h : P a) : (pure a : Draw σ α).Ends P E := ⟨fun _ => h⟩

theorem ends_throw {e : DrawError} (h : E e) : (throw e : Draw σ α).Ends P E := ⟨fun _ => h⟩

theorem Ends.bind {m : Draw σ α} {f : α → Draw σ β} (hm : m.Ends P E)
    (hf : ∀ a, P a → (f a).Ends Q E) : (m >>= f).Ends Q E := by
  refine ⟨fun s => ?_⟩
  rw [run_bind]
  rcases hr : m.run s with ⟨e | a, s'⟩
  · exact hm.of_error hr
  · exact (hf a (hm.of_ok hr)).outcome s'

theorem Ends.map {m : Draw σ α} {f : α → β} (hm : m.Ends P E) (hf : ∀ a, P a → Q (f a)) :
    (m >>= fun a => pure (f a)).Ends Q E :=
  hm.bind fun a ha => ends_pure (hf a ha)

/-! ## Repetition -/

theorem repeatOnto_zero (m : Draw σ α) (acc : List α) :
    repeatOnto m 0 acc = (pure acc.reverse : Draw σ (List α)) := rfl

theorem repeatOnto_succ (m : Draw σ α) (n : Nat) (acc : List α) :
    repeatOnto m (n + 1) acc = (m >>= fun a => repeatOnto m n (a :: acc) : Draw σ (List α)) := by
  funext s
  show repeatOnto m (n + 1) acc s = (m >>= fun a => repeatOnto m n (a :: acc)).run s
  rw [run_bind, repeatOnto]
  rcases m.run s with ⟨_ | a, s⟩ <;> rfl

theorem ends_repeatOnto {m : Draw σ α} (h : m.Ends P E) (n : Nat) (acc : List α) (hacc : ∀ a ∈ acc, P a) :
    Ends (repeatOnto m n acc) (fun l => l.length = acc.length + n ∧ ∀ a ∈ l, P a) E := by
  induction n generalizing acc with
  | zero =>
    rw [repeatOnto_zero]
    exact ends_pure (by simpa using hacc)
  | succ n ih =>
    rw [repeatOnto_succ]
    refine h.bind fun a ha => (ih (a :: acc) ?_).mono (fun l hl => ?_) fun _ he => he
    · intro b hb
      rcases List.mem_cons.1 hb with rfl | hb
      · exact ha
      · exact hacc b hb
    · exact ⟨by rw [hl.1, List.length_cons]; omega, hl.2⟩

theorem Ends.replicate {m : Draw σ α} (h : m.Ends P E) (n : Nat) :
    (replicate n m).Ends (fun l => l.length = n ∧ ∀ a ∈ l, P a) E :=
  (ends_repeatOnto h n [] (by simp)).mono (fun l hl => by simpa using hl) fun _ he => he

/-- A list has as many values as were asked for, and fails before its first one only if it cannot be
addressed. -/
theorem Ends.list {m : Draw σ α} {bytes n : Nat} (h : m.Ends P E)
    (hE : Memory.holds bytes n = false → E .tooLarge) :
    (list bytes n m).Ends (fun l => l.length = n ∧ ∀ a ∈ l, P a) E := by
  unfold Draw.list
  cases hn : Memory.holds bytes n with
  | true => exact h.replicate n
  | false => exact ends_throw (hE hn)

/-- A list that is drawn can be addressed. -/
theorem Ends.list_holds {m : Draw σ α} {bytes n : Nat} (h : m.Ends P fun _ => True) :
    (Draw.list bytes n m).Ends (fun l => Memory.holds bytes l.length = true ∧ ∀ a ∈ l, P a) fun _ => True := by
  unfold Draw.list
  cases hn : Memory.holds bytes n with
  | true => exact (h.replicate n).mono (fun l hl => ⟨hl.1 ▸ hn, hl.2⟩) fun _ he => he
  | false => exact ends_throw trivial

theorem run_list_of_not_holds {m : Draw σ α} {bytes n : Nat} (h : Memory.holds bytes n = false) (s : σ) :
    (list bytes n m).run s = (.error .tooLarge, s) := by
  unfold Draw.list
  rw [h]
  rfl

/-! ## Words -/

variable [WordSource σ]

theorem ends_word32 : (word32 : Draw σ UInt32).Ends (fun _ => True) E := ⟨fun _ => trivial⟩

theorem ends_word64 : (word64 : Draw σ UInt64).Ends (fun _ => True) E :=
  ends_word32.bind fun _ _ => ends_word32.bind fun _ _ => ends_pure trivial

end Fixtures.Draw

namespace Fixtures.Memory

theorem holds_mono {bytes m n : Nat} (hmn : m ≤ n) (h : holds bytes n = true) : holds bytes m = true := by
  simp only [holds, decide_eq_true_eq] at *
  exact Nat.le_trans (Nat.mul_le_mul_left _ hmn) h

end Fixtures.Memory
