/-
Lists drawn in parts. Drawing some values and then more of them is drawing all of them at once, with the
words taken in the same order, as long as the whole list can be addressed. So of two lists drawn from one
source the longer one begins with the shorter one.
-/
import Fixtures.Proofs.Draw.Outcome

namespace Fixtures.Draw

variable {σ α : Type} {m : Draw σ α} {bytes n k : Nat} {s s' s'' : σ} {l l' : List α}

/-! ## Parts -/

theorem replicate_zero (m : Draw σ α) : replicate 0 m = pure [] := rfl

theorem repeatOnto_eq (m : Draw σ α) (n : Nat) (acc : List α) :
    repeatOnto m n acc = (replicate n m >>= fun l => pure (acc.reverse ++ l) : Draw σ (List α)) := by
  induction n generalizing acc with
  | zero =>
    rw [repeatOnto_zero, replicate_zero, pure_bind]
    simp
  | succ n ih =>
    rw [replicate, repeatOnto_succ, repeatOnto_succ, bind_assoc]
    congr 1
    funext a
    rw [ih, ih, bind_assoc]
    simp

theorem replicate_succ (n : Nat) (m : Draw σ α) :
    replicate (n + 1) m = (do let a ← m; let l ← replicate n m; pure (a :: l) : Draw σ (List α)) := by
  rw [replicate, repeatOnto_succ]
  congr 1
  funext a
  rw [repeatOnto_eq]
  simp

theorem replicate_add (n k : Nat) (m : Draw σ α) :
    replicate (n + k) m =
      (do let l ← replicate n m; let l' ← replicate k m; pure (l ++ l') : Draw σ (List α)) := by
  induction n with
  | zero =>
    rw [replicate_zero]
    simp
  | succ n ih =>
    rw [Nat.succ_add, replicate_succ, replicate_succ, ih]
    simp only [bind_assoc, pure_bind, List.cons_append]

/-- A list that can be addressed is drawn in two parts as it is drawn at once. -/
theorem list_add (h : Memory.holds bytes (n + k) = true) :
    list bytes (n + k) m =
      (do let l ← list bytes n m; let l' ← list bytes k m; pure (l ++ l') : Draw σ (List α)) := by
  have hn : Memory.holds bytes n = true := Memory.holds_mono (Nat.le_add_right n k) h
  have hk : Memory.holds bytes k = true := Memory.holds_mono (Nat.le_add_left k n) h
  unfold list
  rw [if_pos h, if_pos hn, if_pos hk, replicate_add]

/-! ## Runs that end in a list -/

/-- Two lists that are drawn one behind the other are drawn as one list. -/
theorem run_append {first second : Draw σ (List α)} (h : first.run s = (.ok l, s'))
    (h' : second.run s' = (.ok l', s'')) :
    (do let l ← first; let l' ← second; pure (l ++ l') : Draw σ (List α)).run s = (.ok (l ++ l'), s'') := by
  rw [run_bind, h]
  simp only
  rw [run_bind, h']
  rfl

theorem holds_of_run_list (h : (list bytes n m).run s = (.ok l, s')) : Memory.holds bytes n = true := by
  cases hn : Memory.holds bytes n with
  | true => rfl
  | false =>
    rw [run_list_of_not_holds hn] at h
    cases h

theorem length_of_run_list (h : (list bytes n m).run s = (.ok l, s')) : l.length = n := by
  exact (((ends_any m).list fun _ => trivial).of_ok h).1

/-- Of two lists from one source the longer one begins with the shorter one. -/
theorem eq_take_of_run_list (hnk : n ≤ k) (h : (list bytes n m).run s = (.ok l, s'))
    (h' : (list bytes k m).run s = (.ok l', s'')) : l = l'.take n := by
  obtain ⟨d, rfl⟩ := Nat.exists_eq_add_of_le hnk
  have hlength := length_of_run_list h
  rw [list_add (holds_of_run_list h'), run_bind, h] at h'
  simp only at h'
  rw [run_bind] at h'
  rcases hrest : (list bytes d m).run s' with ⟨e | rest, s₂⟩ <;> rw [hrest] at h'
  · cases h'
  · cases h'
    rw [← hlength, List.take_left]

/-! ## Values and their sources -/

/-- If a value is drawn from every source, then from every source a list is drawn that can be addressed, and each of
its values is drawn from where the values before it stopped. -/
theorem exists_run_list {P : σ → α → Prop} (h : ∀ s, ∃ a s', m.run s = (.ok a, s') ∧ P s a)
    (hholds : Memory.holds bytes n = true) (s : σ) :
    ∃ l s', (list bytes n m).run s = (.ok l, s') ∧ l.length = n ∧
      ∀ i (hi : i < l.length), ∃ t, (list bytes i m).run s = (.ok (l.take i), t) ∧ P t l[i] := by
  induction n with
  | zero =>
    refine ⟨[], s, ?_, rfl, fun i hi => absurd hi (Nat.not_lt_zero i)⟩
    rw [list, if_pos hholds]
    rfl
  | succ n ih =>
    obtain ⟨l, t, hrun, hlength, hvalues⟩ := ih (Memory.holds_mono (Nat.le_succ n) hholds)
    obtain ⟨a, s', ha, hP⟩ := h t
    have hone : (list bytes 1 m).run t = (.ok [a], s') := by
      rw [list, if_pos (Memory.holds_mono (Nat.le_add_left 1 n) hholds), replicate_succ, run_bind, ha]
      rfl
    refine ⟨l ++ [a], s', ?_, by rw [List.length_append, hlength]; rfl, fun i hi => ?_⟩
    · rw [list_add hholds, run_append hrun hone]
    · -- a value of the list so far, or the one behind it
      rcases Nat.lt_or_ge i l.length with hlt | hge
      · obtain ⟨u, hu, hPu⟩ := hvalues i hlt
        rw [List.take_append_of_le_length (Nat.le_of_lt hlt), List.getElem_append_left hlt]
        exact ⟨u, hu, hPu⟩
      · have heq : i = l.length := by
          rw [List.length_append, List.length_singleton] at hi
          omega
        subst heq
        rw [List.take_left, List.getElem_concat_length rfl]
        exact ⟨t, hlength ▸ hrun, hP⟩

end Fixtures.Draw
