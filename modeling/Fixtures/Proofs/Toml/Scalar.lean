/-
Scalars of TOML at the end of a line. A string between quotation marks is read as the characters that are written in
it, in whatever way each of them is written, and an integer in decimal digits as the integer.
-/
import Fixtures.Proofs.Decimal.Digits
import Fixtures.Toml.Scalar

namespace Fixtures.Toml

variable {acc cs ds es rest : List Char} {c : Char} {n : Int}

/-! ## Strings -/

/-- What may be written for a character between quotation marks. -/
inductive Writes : Char → List Char → Prop
  | plain {c : Char} (hplain : isPlain c = true) (hquote : c ≠ '"') (hslash : c ≠ '\\') : Writes c [c]
  | short {c e : Char} (h : shortEscape? e = some c) : Writes c ['\\', e]
  | four {c a b d e : Char} (h : hexValue? [a, b, d, e] = some c.toNat) : Writes c ['\\', 'u', a, b, d, e]
  | eight {c a b d e f g i j : Char} (h : hexValue? [a, b, d, e, f, g, i, j] = some c.toNat) :
      Writes c ['\\', 'U', a, b, d, e, f, g, i, j]

/-- What may be written for a text between quotation marks. -/
inductive WritesAll : List Char → List Char → Prop
  | nil : WritesAll [] []
  | cons {c : Char} {cs e es : List Char} (hc : Writes c e) (hcs : WritesAll cs es) : WritesAll (c :: cs) (e ++ es)

/-- A way to write any character. -/
def escape (c : Char) : List Char :=
  if c = '"' ∨ c = '\\' then ['\\', c]
  else if isPlain c then [c]
  else ['\\', 'u', '0', '0', Nat.digitChar (c.toNat / 16), Nat.digitChar (c.toNat % 16)]

theorem writes_escape (c : Char) : Writes c (escape c) := by
  unfold escape
  split
  · rename_i hc
    exact .short (by rw [shortEscape?, if_pos hc])
  · rename_i hc
    rw [not_or] at hc
    split
    · rename_i hplain
      exact .plain hplain hc.1 hc.2
    · rename_i hplain
      -- the others are control characters
      have hlt : c.toNat < 128 := by
        simp only [isPlain, Bool.or_eq_true, Bool.and_eq_true, beq_iff_eq, decide_eq_true_eq, bne_iff_ne, not_or,
          not_and, Decidable.not_not] at hplain
        omega
      have hall : ∀ n < 128, hexValue? ['0', '0', Nat.digitChar (n / 16), Nat.digitChar (n % 16)] = some n := by decide
      exact .four (hall _ hlt)

/-- Every text can be written between quotation marks. -/
theorem writesAll_escape : ∀ cs, WritesAll cs (cs.flatMap escape)
  | [] => .nil
  | c :: cs => .cons (writes_escape c) (writesAll_escape cs)

theorem charOf?_toNat (c : Char) : charOf? c.toNat = some c := by
  have hvalid : c.toNat < 0xd800 ∨ (0xdfff < c.toNat ∧ c.toNat < 0x110000) := c.valid
  rw [charOf?, if_pos hvalid, Char.ofNat_toNat]

theorem readBasic?_writes {e : List Char} (h : Writes c e) :
    readBasic? acc (e ++ rest) = readBasic? (c :: acc) rest := by
  cases h with
  | plain hplain hquote hslash =>
    rw [List.singleton_append, readBasic?.eq_def]
    split <;> simp_all
  | short h =>
    rename_i e
    -- the letters of the long escapes are no short ones
    have hu : e ≠ 'u' := by rintro rfl; cases h
    have hU : e ≠ 'U' := by rintro rfl; cases h
    simp only [List.cons_append, List.nil_append]
    rw [readBasic?, h]
    all_goals simp [hu, hU]
  | four h =>
    simp only [List.cons_append, List.nil_append]
    rw [readBasic?, h, Option.bind_some, charOf?_toNat]
  | eight h =>
    simp only [List.cons_append, List.nil_append]
    rw [readBasic?, h, Option.bind_some, charOf?_toNat]

theorem readBasic?_writesAll (h : WritesAll cs es) :
    readBasic? acc (es ++ '"' :: rest) = some (acc.reverse ++ cs, rest) := by
  induction h generalizing acc with
  | nil => rw [List.nil_append, readBasic?, List.append_nil]
  | cons hc _ ih => rw [List.append_assoc, readBasic?_writes hc, ih, List.reverse_cons, List.append_assoc]; rfl

/-- The first character between quotation marks is no quotation mark. -/
theorem WritesAll.head? (h : WritesAll cs es) : es.head? ≠ some '"' := by
  cases h with
  | nil => exact nofun
  | cons hc =>
    cases hc with
    | plain _ hquote => simpa using hquote
    | _ => simp

/-- A string at the end of a line is read as what is written in it. -/
theorem readScalar?_writesAll (h : WritesAll cs es) :
    readScalar? ('"' :: (es ++ '"' :: '\n' :: rest)) = some (.text (String.ofList cs), '\n' :: rest) := by
  have hstring : readString? ('"' :: (es ++ '"' :: '\n' :: rest)) = some (cs, '\n' :: rest) := by
    have hread : readBasic? [] (es ++ '"' :: '\n' :: rest) = some (cs, '\n' :: rest) := readBasic?_writesAll h
    -- not even an empty string is followed by a third mark
    have hlong : ∀ rest', es ++ '"' :: '\n' :: rest ≠ '"' :: '"' :: rest' := by
      intro rest' heq
      have hhead := h.head?
      cases es with
      | nil => simp at heq
      | cons e es => cases List.head_eq_of_cons_eq heq; exact hhead rfl
    rw [readString?, hread]
    exact hlong
  rw [readScalar?, hstring]
  all_goals simp

/-! ## Integers -/

/-- Nothing is left of a line. -/
def AtLineEnd (cs : List Char) : Prop := cs = [] ∨ ∃ rest, cs = '\n' :: rest

theorem AtLineEnd.lineBreak (rest : List Char) : AtLineEnd ('\n' :: rest) := .inr ⟨rest, rfl⟩

section

variable (hend : AtLineEnd rest)
include hend

/-- Only an end of line can be left of a line. -/
theorem AtLineEnd.ne_cons (hbreak : c ≠ '\n') (rest' : List Char) : rest ≠ c :: rest' := by
  rintro rfl
  obtain heq | ⟨_, heq⟩ := hend
  · cases heq
  · exact hbreak (List.head_eq_of_cons_eq heq)

theorem more_append (hds : ∀ d ∈ ds, d.isDigit = true) :
    readDigits?.more Char.isDigit acc (ds ++ rest) = (acc.reverse ++ ds, rest) := by
  induction ds generalizing acc with
  | nil =>
    rw [List.nil_append, List.append_nil]
    obtain rfl | ⟨rest', rfl⟩ := hend
    · rfl
    · rw [readDigits?.more, if_neg (by decide)]
      simp
  | cons d ds ih =>
    have hd := hds d List.mem_cons_self
    have hmark : d ≠ '_' := by rintro rfl; exact absurd hd (by decide)
    rw [List.cons_append, readDigits?.more, if_pos hd, ih fun d' hd' => hds d' (List.mem_cons_of_mem _ hd'),
      List.reverse_cons, List.append_assoc]
    · rfl
    · simp [hmark]

theorem readDigits?_append (hne : ds ≠ []) (hds : ∀ d ∈ ds, d.isDigit = true) :
    readDigits? Char.isDigit (ds ++ rest) = some (ds, rest) := by
  obtain ⟨d, ds, rfl⟩ := List.exists_cons_of_ne_nil hne
  rw [List.cons_append, readDigits?, if_neg (by simp [hds d List.mem_cons_self]),
    more_append hend fun d' hd' => hds d' (List.mem_cons_of_mem _ hd')]
  rfl

omit hend in
/-- An integer starts with its sign or a digit, and with no other character, and has digits behind it. -/
theorem exists_intDigits_eq_cons (n : Int) :
    ∃ d ds, intDigits n = d :: ds ∧ (∀ m, m ≠ '-' → m.isDigit = false → d ≠ m) ∧ ∀ d' ∈ ds, d'.isDigit = true := by
  unfold intDigits
  split
  · exact ⟨'-', _, rfl, fun m hm _ => hm.symm, fun d hd => isDigit_of_mem_natDigits hd⟩
  · obtain ⟨d, ds, h, hall⟩ := exists_natDigits_eq_cons n.natAbs
    refine ⟨d, ds, h, ?_, fun d' hd' => hall d' (List.mem_cons_of_mem _ hd')⟩
    rintro m - hm rfl
    rw [hall d List.mem_cons_self] at hm
    cases hm

omit hend in
/-- The sign of an integer, before its digits. -/
theorem readSign_intDigits (n : Int) :
    readSign (intDigits n ++ rest) = (decide (n < 0), natDigits n.natAbs ++ rest) := by
  unfold intDigits
  split
  · rename_i hneg
    rw [List.cons_append, readSign, decide_eq_true hneg]
  · rename_i hpos
    rw [decide_eq_false hpos]
    obtain ⟨d, ds, h, hall⟩ := exists_natDigits_eq_cons n.natAbs
    have hd : d.isDigit = true := hall d List.mem_cons_self
    rw [h, List.cons_append, readSign]
    all_goals
      intro rest' heq
      cases List.head_eq_of_cons_eq heq
      exact absurd hd (by decide)

/-- The digits of a number are read as a whole: its first one is a zero only if it stands alone. -/
theorem readWhole?_intDigits (n : Int) :
    readWhole? (intDigits n ++ rest) = some (decide (n < 0), natDigits n.natAbs, rest) := by
  unfold readWhole?
  rw [readSign_intDigits]
  simp only
  by_cases hzero : n.natAbs = 0
  · rw [hzero]
    rfl
  · have hhead := head?_natDigits_ne_zero hzero
    split
    · rename_i h
      cases hdigits : natDigits n.natAbs with
      | nil => exact absurd hdigits natDigits_ne_nil
      | cons d ds =>
        rw [hdigits, List.cons_append] at h
        rw [hdigits, List.head_eq_of_cons_eq h] at hhead
        exact absurd rfl hhead
    · rw [readDigits?_append hend natDigits_ne_nil fun d => isDigit_of_mem_natDigits]
      rfl

/-- An integer is read if it fits. -/
theorem readInteger?_intDigits (n : Int) : readInteger? (intDigits n ++ rest) = fitting? n rest := by
  -- no letter stands behind the first digit
  have hbase : ∀ x, x.isDigit = false → x ≠ '\n' → ∀ rest', intDigits n ++ rest ≠ '0' :: x :: rest' := by
    intro x hx hbreak rest' heq
    obtain ⟨d, ds, hn, -, hds⟩ := exists_intDigits_eq_cons n
    rw [hn, List.cons_append] at heq
    have htail := List.tail_eq_of_cons_eq heq
    cases ds with
    | nil => exact hend.ne_cons hbreak rest' htail
    | cons d' ds =>
      have hd' := hds d' List.mem_cons_self
      rw [List.head_eq_of_cons_eq htail, hx] at hd'
      cases hd'
  rw [readInteger?, readWhole?_intDigits hend]
  · simp only [Option.bind_some, digitsValue_natDigits, decide_eq_true_eq]
    rw [show (if n < 0 then -(n.natAbs : Int) else n.natAbs) = n by split <;> omega]
  · exact hbase 'x' (by decide) (by decide)
  · exact hbase 'o' (by decide) (by decide)
  · exact hbase 'b' (by decide) (by decide)

/-! ## No day and no fraction -/

theorem readFixed?_intDigits {count : Nat} {r : Nat × List Char}
    (h : readFixed? (count + 1) (intDigits n ++ rest) = some r) :
    ∃ ds, (∀ d ∈ ds, d.isDigit = true) ∧ r.2 = ds ++ rest := by
  obtain ⟨d, ds, hn, -, hds⟩ := exists_intDigits_eq_cons n
  rw [readFixed?, hn] at h
  split at h
  · rename_i hdigits
    cases h
    simp only [List.cons_append, List.take_succ_cons, List.drop_succ_cons] at hdigits ⊢
    rcases Nat.lt_or_ge ds.length count with hlong | hshort
    · -- the digits would go on behind the end of the line
      obtain ⟨k, rfl⟩ : ∃ k, count = ds.length + (k + 1) := ⟨count - ds.length - 1, by omega⟩
      rw [List.take_length_add_append] at hdigits
      obtain rfl | ⟨rest', rfl⟩ := hend
      · exact absurd hdigits.1 (by simp)
      · rw [List.take_succ_cons] at hdigits
        exact absurd hdigits.2 (by simp)
    · exact ⟨ds.drop count, fun d hd => hds d (List.mem_of_mem_drop hd), List.drop_append_of_le_length hshort⟩
  · cases h

theorem readMark?_digits (hc : c.isDigit = false) (hbreak : c ≠ '\n') (hds : ∀ d ∈ ds, d.isDigit = true) :
    readMark? c (ds ++ rest) = none := by
  cases ds with
  | nil =>
    obtain rfl | ⟨rest', rfl⟩ := hend
    · rfl
    · exact if_neg hbreak.symm
  | cons d ds =>
    refine if_neg ?_
    rintro rfl
    rw [hds d List.mem_cons_self] at hc
    cases hc

theorem readMoment?_intDigits : readMoment? (intDigits n ++ rest) = none := by
  have hday : readDay? (intDigits n ++ rest) = none := by
    unfold readDay?
    cases h : readFixed? 4 (intDigits n ++ rest) with
    | none => rfl
    | some r =>
      obtain ⟨ds, hds, hr⟩ := readFixed?_intDigits hend h
      simp only [Option.bind_eq_bind, Option.bind_some, hr,
        readMark?_digits hend (c := '-') (by decide) (by decide) hds]
      rfl
  have hclock : readClock? (intDigits n ++ rest) = none := by
    unfold readClock? readFixedIn?
    cases h : readFixed? 2 (intDigits n ++ rest) with
    | none => rfl
    | some r =>
      obtain ⟨ds, hds, hr⟩ := readFixed?_intDigits hend h
      simp only [Option.bind_eq_bind, Option.bind_some, hr]
      split
      · simp only [Option.bind_some, readMark?_digits hend (c := ':') (by decide) (by decide) hds]
        rfl
      · rfl
  rw [readMoment?, hday]
  exact hclock

theorem readFloat?_intDigits : readFloat? (intDigits n ++ rest) = none := by
  have hnumeral : readNumeral? (intDigits n ++ rest) = none := by
    unfold readNumeral?
    rw [readWhole?_intDigits hend]
    obtain rfl | ⟨rest', rfl⟩ := hend <;> rfl
  rw [readFloat?, hnumeral, readSign_intDigits]
  obtain ⟨d, ds, h, hall⟩ := exists_natDigits_eq_cons n.natAbs
  have hd : d.isDigit = true := hall d List.mem_cons_self
  rw [h]
  simp only
  split
  · rename_i heq
    cases List.head_eq_of_cons_eq (congrArg Prod.snd heq)
    exact absurd hd (by decide)
  · rename_i heq
    cases List.head_eq_of_cons_eq (congrArg Prod.snd heq)
    exact absurd hd (by decide)
  · rfl

/-- An integer at the end of a line is read as one if it fits, and as nothing else. -/
theorem readScalar?_intDigits (n : Int) :
    readScalar? (intDigits n ++ rest) = (fitting? n rest).map fun (n, rest) => (.integer n, rest) := by
  obtain ⟨d, ds, hn, hd, -⟩ := exists_intDigits_eq_cons n
  -- the first character is none that a word or a string starts with
  have hfirst : ∀ m, m ≠ '-' → m.isDigit = false → ∀ rest', intDigits n ++ rest ≠ m :: rest' := by
    intro m hm hdigit rest' heq
    rw [hn, List.cons_append] at heq
    exact hd m hm hdigit (List.head_eq_of_cons_eq heq)
  have hstring : readString? (intDigits n ++ rest) = none := by
    rw [readString?]
    · exact fun _ => hfirst '"' (by decide) (by decide) _
    · exact fun _ => hfirst '"' (by decide) (by decide) _
    · exact fun _ => hfirst '\'' (by decide) (by decide) _
    · exact fun _ => hfirst '\'' (by decide) (by decide) _
  rw [readScalar?]
  · simp only [hstring, readMoment?_intDigits hend, readFloat?_intDigits hend, readInteger?_intDigits hend]
  · exact fun _ => hfirst 't' (by decide) (by decide) _
  · exact fun _ => hfirst 'f' (by decide) (by decide) _

end

end Fixtures.Toml
