/-
The seed of a run in its two places. The flag takes every number of 64 bits, and so do the options. The integers of the
settings have a sign, and reach half as far: a seed above them is taken from the flag, and the same seed in the
settings makes them unreadable.
-/
import Fixtures.Proofs.CommandLine.Arguments
import Fixtures.Proofs.Document.Reading
import Fixtures.Proofs.Options.Reading
import Fixtures.Proofs.Toml.Lines
import Fixtures.Settings

namespace Fixtures

/-! ## A document of one key -/

/-- The value of the only key stands at the end of the text, and nothing may stand behind it. -/
theorem Toml.read?_pair {key : String} {cs : List Char} (hkey : IsBareKey key)
    (hcs : ∀ c ∈ cs.head?, isSpace c = false)
    (hwhole : ∀ r, readValue? (depthLimit - 1) cs = some r → r.2 = []) :
    Toml.read? (key.toList ++ ' ' :: '=' :: ' ' :: cs) =
      (readValue? (depthLimit - 1) cs).map fun r => .table [(key, r.1)] := by
  have hmark : ∀ rest, key.toList ++ ' ' :: '=' :: ' ' :: cs ≠ '\ufeff' :: rest := by
    obtain ⟨c, ks, hcons, hc⟩ := hkey.exists_cons
    rw [hcons, List.cons_append]
    exact cons_ne_of_isBare hc (by decide)
  unfold Toml.read?
  split
  · rename_i heq
    exact absurd heq (hmark _)
  · simp only
    rw [readLines?_key hkey hcs]
    cases hread : readValue? (depthLimit - 1) cs with
    | none => rfl
    | some r =>
      obtain ⟨v, rest⟩ := r
      obtain rfl : rest = [] := hwhole _ hread
      -- there is a step left for the empty rest of the text
      rw [List.length_append, List.length_cons, ← Nat.add_assoc]
      rfl

namespace Settings

/-! ## Settings of a seed -/

/-- The settings that say a seed, and nothing else. -/
def seedText (s : UInt64) : List Char := "seed = ".toList ++ natDigits s.toNat

/-- The greatest integer of the settings. -/
def greatestInteger : Nat := 0x7fffffffffffffff

theorem fitting?_seed (s : UInt64) :
    Toml.fitting? s.toNat [] = if s.toNat ≤ greatestInteger then some ((s.toNat : Int), []) else none := by
  have hiff : (-0x8000000000000000 ≤ (s.toNat : Int) ∧ (s.toNat : Int) ≤ 0x7fffffffffffffff) ↔
      s.toNat ≤ greatestInteger := by
    unfold greatestInteger
    omega
  rw [Toml.fitting?]
  simp only [hiff]

theorem toml_seedText (s : UInt64) :
    Toml.read? (seedText s) =
      if s.toNat ≤ greatestInteger then some (.table [("seed", .integer s.toNat)]) else none := by
  have hdigits : natDigits s.toNat = intDigits (s.toNat : Int) := by
    rw [intDigits, if_neg (by omega), Int.natAbs_natCast]
  have hvalue := Toml.readValue?_integer (s.toNat : Int) (.inl rfl)
  rw [List.append_nil, fitting?_seed, ← hdigits] at hvalue
  have htext : seedText s = "seed".toList ++ ' ' :: '=' :: ' ' :: natDigits s.toNat := rfl
  have hkey : Toml.IsBareKey "seed" := ⟨by decide, List.all_eq_true.1 (by decide)⟩
  rw [htext, Toml.read?_pair hkey (hdigits ▸ Toml.isSpace_of_head?_intDigits _), hvalue]
  · split <;> rfl
  · rw [hvalue]
    intro r hr
    split at hr <;> cases hr
    rfl

theorem ofDocument?_seed (s : UInt64) :
    Options.ofDocument? (Toml.table [("seed", .integer s.toNat)]) = some { seed := some s } := by
  have hseed : Document.nullable Document.uint64? (Toml.integer s.toNat) = some (some s) := by
    rw [Document.nullable, uint64?_integer]
    rfl
  have hfields (names : List String) :
      Document.fields? names (Toml.table [("seed", .integer s.toNat)]) = some [("seed", .integer s.toNat)] := rfl
  unfold Options.ofDocument?
  rw [hfields]
  simp [Document.optional_head, Document.optional_tail, Document.optional_nil, hseed]

/-- A seed is read if it is no greater than the integers of the settings are. -/
theorem read?_seedText (s : UInt64) :
    Settings.read? (seedText s) = if s.toNat ≤ greatestInteger then some { seed := some s } else none := by
  rw [Settings.read?, toml_seedText]
  split
  · exact ofDocument?_seed s
  · rfl

/-- No settings are the defaults. -/
theorem read?_nil : Settings.read? [] = some {} := by
  have htoml : Toml.read? [] = some (.table []) := rfl
  have hfields (names : List String) : Document.fields? names (Toml.table []) = some [] := rfl
  rw [Settings.read?, htoml, Option.bind_some, Options.ofDocument?, hfields]
  simp [Document.optional_nil]

end Settings

namespace Arguments

open CommandLine (globalFlags)
open Settings (seedText greatestInteger)

/-! ## The flag of a seed -/

/-- The options of a run with some settings: its flags take the place of what they say. -/
def optionsWith? (a : Arguments) (settings : List Char) : Option Options :=
  (Settings.read? settings).map fun o => a.command.apply (a.globals.apply o)

/-- The arguments with a seed. -/
def withSeed (a : Arguments) (s : UInt64) : Arguments := { a with globals := { a.globals with seed := some s } }

/-- The flag of a seed, in decimal digits. -/
def seedFlag (s : UInt64) : WrittenFlag where
  name := "seed"
  value := .number s.toNat
  text := String.ofList (natDigits s.toNat)
  joined := false
  spelled := by
    rw [String.toList_ofList]
    exact ⟨natDigits_ne_nil, fun c => isDigit_of_mem_natDigits, by rw [digitsValue_natDigits]⟩

variable {a : Arguments} {s : UInt64}

theorem value?_seed (hseed : a.globals.seed = none) : a.value? "seed" = none := by
  rw [value?, command_value?_of_global (by decide), Option.none_or]
  show a.globals.seed.map _ = none
  rw [hseed]
  rfl

theorem value?_withSeed (a : Arguments) (s : UInt64) (name : String) :
    (a.withSeed s).value? name = if name = "seed" then some (.number s.toNat) else a.value? name := by
  split
  · rename_i hname
    rw [hname, value?, command_value?_of_global (by decide), Option.none_or]
    rfl
  · rename_i hname
    have hshared : (a.withSeed s).globals.value? name = a.globals.value? name := by
      unfold Globals.value?
      simp only [if_neg hname]
      rfl
    rw [value?, value?, hshared]
    rfl

/-- The flag adds the seed to what the other flags choose. -/
theorem writes_seedFlag {ws : List WrittenFlag} (hseed : a.globals.seed = none)
    (h : ∀ name, Writes ws name (a.value? name)) (name : String) :
    Writes (seedFlag s :: ws) name ((a.withSeed s).value? name) := by
  intro v
  rw [value?_withSeed]
  simp only [List.mem_cons, exists_eq_or_imp]
  by_cases hname : name = "seed"
  · subst hname
    -- no other flag is called like it
    have hother := h "seed" v
    rw [value?_seed hseed] at hother
    rw [if_pos rfl, hother]
    simp [seedFlag]
  · rw [if_neg hname, ← h name v]
    have hne : (seedFlag s).name ≠ name := Ne.symm hname
    simp [hne]

theorem name_ne_seed {ws : List WrittenFlag} (hseed : a.globals.seed = none)
    (h : ∀ name, Writes ws name (a.value? name)) : ∀ w ∈ ws, w.name ≠ "seed" := by
  intro w hw hname
  have hvalue := (h "seed" w.value).1 ⟨w, hw, hname, rfl⟩
  rw [value?_seed hseed] at hvalue
  cases hvalue

theorem seed_apply (c : Command) (o : Options) : (c.apply o).seed = o.seed := by
  cases c <;> rfl

/-- A seed in the options is as good as one in the flags. -/
theorem apply_withSeed (hseed : a.globals.seed = none) :
    (a.withSeed s).globals.apply {} = a.globals.apply { seed := some s } := by
  unfold Globals.apply withSeed
  simp [hseed]

/-- Arguments with the flag of a seed are read as the same arguments with the seed, for all seeds, and their options
with empty settings have it. Settings of a seed give the arguments without the flag the same options if the seed is no
greater than the integers of settings are, and cannot be read if it is. -/
theorem seed_replayed_iff (a : Arguments) (s : UInt64) (before after : List WrittenFlag)
    (hseed : a.globals.seed = none)
    (hchosen : ∀ name v, (∃ w ∈ before ++ after, w.name = name ∧ w.value = v) ↔ a.value? name = some v)
    (honce : ((before ++ after).map (·.name)).Nodup) (hbefore : ∀ w ∈ before, w.name ∈ globalFlags.map (·.name)) :
    Arguments.read (before.flatMap (·.words) ++ a.command.name :: after.flatMap (·.words)) = .ok a ∧
      Arguments.read ("--seed" :: String.ofList (natDigits s.toNat) ::
        (before.flatMap (·.words) ++ a.command.name :: after.flatMap (·.words))) = .ok (a.withSeed s) ∧
      Settings.read? (seedText s) = (if s.toNat ≤ greatestInteger then some { seed := some s } else none) ∧
      ∃ o : Options, o.seed = some s ∧ (a.withSeed s).optionsWith? [] = some o ∧
        a.optionsWith? (seedText s) = if s.toNat ≤ greatestInteger then some o else none := by
  refine ⟨read_eq hchosen honce hbefore, ?_, Settings.read?_seedText s,
    a.command.apply (a.globals.apply { seed := some s }), ?_, ?_, ?_⟩
  · have honce' : ((seedFlag s :: before ++ after).map (·.name)).Nodup := by
      rw [List.cons_append, List.map_cons, List.nodup_cons]
      refine ⟨fun hmem => ?_, honce⟩
      obtain ⟨w, hw, hname⟩ := List.mem_map.1 hmem
      exact name_ne_seed hseed hchosen w hw hname
    have hbefore' : ∀ w ∈ seedFlag s :: before, w.name ∈ globalFlags.map (·.name) := by
      rintro w (_ | ⟨_, hw⟩)
      · show "seed" ∈ _
        decide
      · exact hbefore w hw
    exact read_eq (a := a.withSeed s) (writes_seedFlag hseed hchosen) honce' hbefore'
  · rw [seed_apply, Globals.apply, hseed]
    rfl
  · rw [optionsWith?, Settings.read?_nil, Option.map_some, apply_withSeed hseed]
    rfl
  · rw [optionsWith?, Settings.read?_seedText]
    split <;> rfl

/-- The least seed that the settings do not take, beside other flags. -/
theorem seed_replayed_iff_below_signed :
    Arguments.read ["--seed", "9223372036854775808", "--out-dir=d", "csv", "--rows", "5"] =
        .ok ⟨{ seed := some 9223372036854775808, outDir := some (.ofText "d") }, .csv (some 5) none⟩ ∧
      (Arguments.mk { outDir := some (.ofText "d") } (.csv (some 5) none)).optionsWith?
        "seed = 9223372036854775808".toList = none := by
  let a : Arguments := ⟨{ outDir := some (.ofText "d") }, .csv (some 5) none⟩
  let before : List WrittenFlag := [⟨"out-dir", .path (.ofText "d"), "d", true, by decide, by decide, by decide⟩]
  let after : List WrittenFlag :=
    [⟨"rows", .number 5, "5", false, by decide, List.all_eq_true.1 (by decide), by decide⟩]
  have hchosen : ∀ name v, (∃ w ∈ before ++ after, w.name = name ∧ w.value = v) ↔ a.value? name = some v := by
    have hvalue : ∀ name, a.value? name = if name = "rows" then some (.number 5)
        else if name = "out-dir" then some (.path (.ofText "d")) else none := by
      intro name
      simp only [a, value?, Command.value?, Globals.value?]
      grind
    intro name v
    rw [hvalue]
    simp only [before, after, List.cons_append, List.nil_append, List.mem_cons, List.not_mem_nil, or_false,
      exists_eq_or_imp, exists_eq_left]
    grind
  obtain ⟨-, hread, -, o, -, -, hoptions⟩ :=
    seed_replayed_iff a 9223372036854775808 before after rfl hchosen (by decide) (by decide)
  refine ⟨?_, ?_⟩
  · exact (congrArg Arguments.read (by decide +kernel)).trans hread
  · exact (congrArg a.optionsWith? (by decide +kernel)).trans hoptions

/-- A seed that no settings say: they cannot be read. -/
theorem seed_not_replayed :
    Settings.read? "seed = 9223372036854775808".toList = none ∧
      ¬ ∀ s : UInt64, ∃ o, Settings.read? (seedText s) = some o ∧ o.seed = some s := by
  have hread : Settings.read? (seedText 9223372036854775808) = none := by
    rw [Settings.read?_seedText, if_neg (by decide)]
  refine ⟨(congrArg Settings.read? (by decide +kernel)).trans hread, fun h => ?_⟩
  obtain ⟨o, hsome, -⟩ := h 9223372036854775808
  rw [hread] at hsome
  cases hsome

end Arguments

end Fixtures
