/-
Reading the arguments of a subcommand. Each flag is written once, as one word or as two, the flags of the subcommand
behind its name and the shared ones anywhere. In every order they are read as what was chosen, and the subcommand
then changes the options that it has values for, and no others.
-/
import Fixtures.CommandLine.Arguments
import Fixtures.Proofs.Options.Field
import Fixtures.Proofs.Text.Span

namespace Fixtures

open CommandLine (Flag FlagType globalFlags ownFlags commandNames)

/-! ## Flags as they are chosen and as they are written -/

/-- The texts of a value on the command line: the digits of a number, or a path that does not look like a flag. -/
def FieldValue.IsArgument : FieldValue → List Char → Prop
  | number n, cs => cs ≠ [] ∧ (∀ c ∈ cs, c.isDigit = true) ∧ (digitsValue cs : Int) = n
  | path p, cs => cs ≠ [] ∧ cs.head? ≠ some '-' ∧ p = .ofText (String.ofList cs)
  | moment _, _ => False

/-- A flag as it is written, with the text of its value behind an equals sign or in a word of its own. -/
structure WrittenFlag where
  name : String
  value : FieldValue
  text : String
  joined : Bool
  spelled : value.IsArgument text.toList

namespace WrittenFlag

def words (w : WrittenFlag) : List String :=
  if w.joined then ["--" ++ w.name ++ "=" ++ w.text] else ["--" ++ w.name, w.text]

/-- The flag as it is kept once it is read. -/
def entry (w : WrittenFlag) : String × List Char := (w.name, w.text.toList)

end WrittenFlag

/-- The value that is chosen for a shared flag. -/
def Globals.value? (g : Globals) (flag : String) : Option FieldValue :=
  if flag = "config" then g.config.map .path
  else if flag = "seed" then g.seed.map fun n => .number n.toNat
  else if flag = "out-dir" then g.outDir.map .path
  else if flag = "log-file" then g.logFile.map .path
  else if flag = "report" then g.report.map .path
  else none

namespace Command

/-- The value that a subcommand has for a flag of its own. -/
def value? (c : Command) (flag : String) : Option FieldValue :=
  match c with
  | nested maxDepth keys out =>
    if flag = "max-depth" then maxDepth.map fun n => .number n.toNat
    else if flag = "num-keys" then keys.map fun n => .number n.toNat
    else if flag = "out" then out.map .path
    else none
  | array count out | ndjson count out =>
    if flag = "count" then count.map fun n => .number n.toNat
    else if flag = "out" then out.map .path
    else none
  | csv rows out =>
    if flag = "rows" then rows.map fun n => .number n.toNat
    else if flag = "out" then out.map .path
    else none
  | all => none

/-- The flag of a subcommand for an option. -/
def flag? : Command → Field → Option String
  | nested _ _ _, .maxDepth => some "max-depth"
  | nested _ _ _, .keys => some "num-keys"
  | nested _ _ _, .nestedOut => some "out"
  | array _ _, .arrayCount => some "count"
  | array _ _, .arrayOut => some "out"
  | ndjson _ _, .ndjsonCount => some "count"
  | ndjson _ _, .ndjsonOut => some "out"
  | csv _ _, .rows => some "rows"
  | csv _ _, .csvOut => some "out"
  | _, _ => none

theorem name_mem (c : Command) : c.name ∈ commandNames := by
  unfold Command.name
  cases c.kind? with
  | none => decide
  | some k => cases k <;> decide

/-- A subcommand changes the options that it has values for, and no others. -/
theorem value?_apply (c : Command) (o : Options) (f : Field) :
    (c.apply o).value? f = ((c.flag? f).bind c.value?).or (o.value? f) := by
  cases c with
  | nested maxDepth keys out =>
    cases f <;> first | rfl | (cases maxDepth <;> rfl) | (cases keys <;> rfl) | (cases out <;> rfl)
  | array count out => cases f <;> first | rfl | (cases count <;> rfl) | (cases out <;> rfl)
  | ndjson count out => cases f <;> first | rfl | (cases count <;> rfl) | (cases out <;> rfl)
  | csv rows out => cases f <;> first | rfl | (cases rows <;> rfl) | (cases out <;> rfl)
  | all => rfl

theorem shape_apply (c : Command) (o : Options) : (c.apply o).nested.shape = o.nested.shape := by
  cases c <;> rfl

theorem kind?_eq (c : Command) : c.kind? = Kind.ofId? c.name := by
  unfold Command.name
  cases c <;> rfl

end Command

namespace Arguments

variable {flags : List Flag} {command : Option String} {f : Flag} {l l' : Level} {vs : List (String × List Char)}
  {cs : List Char} {rest : List (List Char)} {name : String} {v : FieldValue} {w : WrittenFlag}
  {ws before after : List WrittenFlag} {c : Command} {g : Globals}

/-! ## Values -/

theorem number?_of_isArgument {n : UInt64} (h : (FieldValue.number n.toNat).IsArgument cs) : number? cs = some n := by
  obtain ⟨hne, hdigits, hvalue⟩ := h
  have hvalue : digitsValue cs = n.toNat := Int.ofNat.inj hvalue
  unfold number?
  simp only
  split
  · -- a digit is not a plus
    exact absurd (hdigits '+' List.mem_cons_self) (by decide)
  · rw [if_neg, hvalue, if_pos n.toNat_lt, UInt64.ofNat_toNat]
    simpa [hne] using hdigits

/-- No value looks like a flag. -/
theorem head?_ne_hyphen (h : v.IsArgument cs) : cs.head? ≠ some '-' := by
  cases v with
  | number n =>
    intro hhead
    exact absurd (h.2.1 '-' (List.mem_of_head? hhead)) (by decide)
  | path p => exact h.2.1
  | moment t => exact h.elim

/-- Whether values of a sort are what a flag takes. -/
def Takes (f : Flag) (v : FieldValue) : Prop := ∀ cs, v.IsArgument cs → admits f.type cs = true

theorem takes_number {n : UInt64} (h : f.type = .number) : Takes f (.number n.toNat) := by
  intro cs hcs
  rw [h, admits, number?_of_isArgument hcs]
  rfl

theorem takes_path {p : Path} (h : f.type = .path) : Takes f (.path p) := by
  rintro cs ⟨hne, -⟩
  rw [h, admits]
  simpa using hne

/-! ## One flag -/

theorem waits_of_settle (h : l.settle = .ok l') : l.waits = false := by
  unfold Level.settle at h
  unfold Level.waits
  rcases hpending : l.pending with _ | ⟨_, _ | _⟩ <;> rw [hpending] at h
  · cases h

theorem settle_value (htakes : admits f.type cs = true) (hnew : vs.lookup f.name = none) :
    (Level.mk vs (some (f, some cs))).settle = .ok ⟨vs ++ [(f.name, cs)], none⟩ := by
  simp [Level.settle, hnew, htakes]

theorem bne_equals_of_mem {name : List Char} (h : '=' ∉ name) : ∀ c ∈ name, (c != '=') = true := by
  intro c hc
  rw [bne_iff_ne]
  rintro rfl
  exact h hc

theorem splitFlag_joined {name value : List Char} (h : '=' ∉ name) :
    splitFlag (name ++ '=' :: value) = (name, some value) := by
  obtain ⟨htake, hdrop⟩ := span_append (bne_equals_of_mem h)
    (show ∀ c ∈ ('=' :: value).head?, (c != '=') = false by simp)
  unfold splitFlag
  rw [htake, hdrop]
  rfl

theorem splitFlag_alone {name : List Char} (h : '=' ∉ name) : splitFlag name = (name, none) := by
  obtain ⟨-, hdrop⟩ := span_append (bne_equals_of_mem h) (show ∀ c ∈ ([] : List Char).head?, (c != '=') = false by simp)
  rw [List.append_nil] at hdrop
  unfold splitFlag
  rw [hdrop]

/-- A word with two hyphens in front is read as a flag wherever it stands. -/
theorem scan_flag (hne : cs ≠ []) :
    scan flags command l (('-' :: '-' :: cs) :: rest) =
      match l.flag flags command (splitFlag cs).1 (splitFlag cs).2 with
      | .error e => .error e
      | .ok l => scan flags command l rest := by
  have hcommand : String.ofList ('-' :: '-' :: cs) ∉ commandNames := by
    intro hmem
    have hall : ∀ s ∈ commandNames, s.toList.head? ≠ some '-' := by decide
    exact hall _ hmem (by rw [String.toList_ofList]; rfl)
  rw [scan, if_neg (fun h => hcommand h.2.2), if_neg (fun h => by simp at h)]
  · obtain ⟨name, attached⟩ := splitFlag cs
    simp only
    rcases l.flag flags command name attached with e | l <;> rfl
  · exact hne

/-- A word behind a flag that waits for its value is the value, whatever else it could be. -/
theorem scan_value (hpending : l.pending = some (f, none)) (hflag : cs.head? ≠ some '-') :
    scan flags command l (cs :: rest) = scan flags command ⟨l.values, some (f, some cs)⟩ rest := by
  have hwaits : l.waits = true := by rw [Level.waits, hpending]
  have hplain : l.plain cs = .ok ⟨l.values, some (f, some cs)⟩ := by rw [Level.plain, hpending]
  have hhead : ∀ rest, cs ≠ '-' :: rest := fun rest h => hflag (by rw [h]; rfl)
  rw [scan, if_neg (by simp [hwaits]), if_neg (by simp [hwaits]), hplain]
  · rfl
  · exact hhead _
  · exact fun _ => hhead _
  · exact fun _ _ => hhead _

/-- What a reader of flags needs to know about their names. -/
def PlainNames (flags : List Flag) : Prop :=
  ∀ f ∈ flags, '=' ∉ f.name.toList ∧ f.name ≠ "" ∧ f.name ≠ "help" ∧ f.name ≠ "version"

/-- A flag is known, and its value is one that it takes. -/
def Accepts (flags : List Flag) (w : WrittenFlag) : Prop :=
  ∃ f, flags.find? (·.name == w.name) = some f ∧ admits f.type w.text.toList = true

/-- A flag that is known settles the one before it; a value that is attached to it is settled at once. -/
theorem flag_eq (hplain : PlainNames flags) (hf : flags.find? (·.name == name) = some f)
    (hsettle : l.settle = .ok ⟨vs, none⟩) (attached : Option (List Char)) :
    l.flag flags command name.toList attached =
      match attached with
      | none => .ok ⟨vs, some (f, none)⟩
      | some value => (Level.mk vs (some (f, some value))).settle := by
  obtain rfl : f.name = name := by simpa using List.find?_some hf
  obtain ⟨-, -, hhelp, hversion⟩ := hplain f (List.mem_of_find?_eq_some hf)
  unfold Level.flag
  rw [String.ofList_toList, if_neg (by simp [hhelp, hversion]), hf]
  cases attached <;> simp only [hsettle]

/-- A written flag is read, in one word or in two, and is settled before the next one or is so at once. -/
theorem scan_written (command : Option String) (rest : List (List Char)) (hplain : PlainNames flags)
    (hw : Accepts flags w) (hsettle : l.settle = .ok ⟨vs, none⟩) (hnew : vs.lookup w.name = none) :
    ∃ l', l'.settle = .ok ⟨vs ++ [w.entry], none⟩ ∧
      scan flags command l (w.words.map String.toList ++ rest) = scan flags command l' rest := by
  obtain ⟨f, hf, htakes⟩ := hw
  have hname : f.name = w.name := by simpa using List.find?_some hf
  obtain ⟨hequals, hempty, -, -⟩ := hplain f (List.mem_of_find?_eq_some hf)
  rw [hname] at hequals hempty
  have hne : w.name.toList ≠ [] := fun h => hempty (String.toList_eq_nil_iff.1 h)
  have hsettled := settle_value htakes (hname ▸ hnew)
  rw [hname] at hsettled
  unfold WrittenFlag.words
  cases w.joined with
  | true =>
    refine ⟨⟨vs ++ [w.entry], none⟩, rfl, ?_⟩
    have hword : ("--" ++ w.name ++ "=" ++ w.text).toList = '-' :: '-' :: (w.name.toList ++ '=' :: w.text.toList) := by
      simp
    rw [if_pos rfl, List.map_singleton, List.singleton_append, hword, scan_flag (by simp), splitFlag_joined hequals,
      flag_eq hplain hf hsettle]
    simp only [hsettled]
    rfl
  | false =>
    refine ⟨⟨vs, some (f, some w.text.toList)⟩, hsettled, ?_⟩
    have hword : ("--" ++ w.name).toList = '-' :: '-' :: w.name.toList := by simp
    rw [if_neg Bool.false_ne_true, List.map_cons, List.map_singleton, List.cons_append, List.singleton_append, hword,
      scan_flag hne, splitFlag_alone hequals, flag_eq hplain hf hsettle]
    simp only
    rw [scan_value rfl (head?_ne_hyphen w.spelled)]

/-! ## All flags of a level -/

theorem scan_allWritten (command : Option String) (rest : List (List Char)) (hplain : PlainNames flags) :
    ∀ {ws : List WrittenFlag} {l : Level} {vs : List (String × List Char)}, (∀ w ∈ ws, Accepts flags w) →
      (ws.map (·.name)).Nodup → (∀ w ∈ ws, vs.lookup w.name = none) → l.settle = .ok ⟨vs, none⟩ →
      ∃ l', l'.settle = .ok ⟨vs ++ ws.map (·.entry), none⟩ ∧
        scan flags command l ((ws.flatMap (·.words)).map String.toList ++ rest) = scan flags command l' rest
  | [], l, vs, _, _, _, hsettle => ⟨l, by rw [hsettle, List.map_nil, List.append_nil], rfl⟩
  | w :: ws, l, vs, hall, hnodup, hnew, hsettle => by
    rw [List.map_cons, List.nodup_cons] at hnodup
    obtain ⟨l₁, hsettle₁, hscan₁⟩ := scan_written command ((ws.flatMap (·.words)).map String.toList ++ rest) hplain
      (hall w List.mem_cons_self) hsettle (hnew w List.mem_cons_self)
    -- the other flags have other names
    have hnew₁ : ∀ w' ∈ ws, (vs ++ [w.entry]).lookup w'.name = none := fun w' hw' => by
      have hname : w'.name ≠ w.name := fun h => hnodup.1 (h ▸ List.mem_map_of_mem hw')
      rw [List.lookup_append, hnew w' (List.mem_cons_of_mem _ hw'), WrittenFlag.entry, List.lookup_cons,
        beq_eq_false_iff_ne.2 hname]
      rfl
    obtain ⟨l₂, hsettle₂, hscan₂⟩ := scan_allWritten command rest hplain
      (fun w' hw' => hall w' (List.mem_cons_of_mem _ hw')) hnodup.2 hnew₁ hsettle₁
    refine ⟨l₂, by rw [hsettle₂, List.map_cons, List.append_assoc, List.singleton_append], ?_⟩
    rw [List.flatMap_cons, List.map_append, List.append_assoc, hscan₁, hscan₂]

/-- A level is read from its start, up to what is no flag. -/
theorem scan_empty (command : Option String) (rest : List (List Char)) (hplain : PlainNames flags)
    (hall : ∀ w ∈ ws, Accepts flags w) (hnodup : (ws.map (·.name)).Nodup) :
    ∃ l, l.settle = .ok ⟨ws.map (·.entry), none⟩ ∧
      scan flags command .empty ((ws.flatMap (·.words)).map String.toList ++ rest) = scan flags command l rest := by
  have hsettle : Level.empty.settle = .ok ⟨[], none⟩ := rfl
  exact scan_allWritten command rest hplain hall hnodup (fun _ _ => rfl) hsettle

theorem lookup_entry (hnodup : (ws.map (·.name)).Nodup) (hw : w ∈ ws) :
    (ws.map (·.entry)).lookup w.name = some w.text.toList := by
  obtain ⟨ws₁, ws₂, rfl⟩ := List.append_of_mem hw
  rw [List.map_append, List.map_cons, List.nodup_append] at hnodup
  rw [List.map_append, List.map_cons, List.lookup_eq_some_iff]
  refine ⟨_, _, rfl, fun entry hentry => ?_⟩
  obtain ⟨w', hw', rfl⟩ := List.mem_map.1 hentry
  rw [bne_iff_ne]
  exact (hnodup.2.2 _ (List.mem_map_of_mem hw') _ List.mem_cons_self).symm

theorem lookup_entry_none (h : ∀ w ∈ ws, w.name ≠ name) : (ws.map (·.entry)).lookup name = none := by
  rw [List.lookup_eq_none_iff]
  intro entry hentry
  obtain ⟨w', hw', rfl⟩ := List.mem_map.1 hentry
  rw [bne_iff_ne]
  exact (h w' hw').symm

/-- The flags of a name among written ones have the value that is chosen for it. -/
def Writes (ws : List WrittenFlag) (name : String) (chosen : Option FieldValue) : Prop :=
  ∀ v, (∃ w ∈ ws, w.name = name ∧ w.value = v) ↔ chosen = some v

/-- The text that is found for a name says the value that is chosen for it. -/
theorem Writes.lookup {chosen : Option FieldValue} (hnodup : (ws.map (·.name)).Nodup) (h : Writes ws name chosen) :
    match chosen with
    | none => (ws.map (·.entry)).lookup name = none
    | some v => ∃ cs, (ws.map (·.entry)).lookup name = some cs ∧ v.IsArgument cs := by
  cases chosen with
  | none => exact lookup_entry_none fun w hw hname => by cases (h w.value).1 ⟨w, hw, hname, rfl⟩
  | some v =>
    obtain ⟨w, hw, rfl, rfl⟩ := (h v).2 rfl
    exact ⟨_, lookup_entry hnodup hw, w.spelled⟩

theorem numberOf_entries {n : Option UInt64} (hnodup : (ws.map (·.name)).Nodup)
    (h : Writes ws name (n.map fun n => .number n.toNat)) : numberOf (ws.map (·.entry)) name = n := by
  have hlookup := h.lookup hnodup
  unfold numberOf
  cases n with
  | none => rw [show (ws.map (·.entry)).lookup name = none from hlookup]; rfl
  | some n =>
    obtain ⟨cs, hlookup, hspelled⟩ := hlookup
    rw [hlookup, Option.bind_some, number?_of_isArgument hspelled]

theorem pathOf_entries {p : Option Path} (hnodup : (ws.map (·.name)).Nodup) (h : Writes ws name (p.map .path)) :
    pathOf (ws.map (·.entry)) name = p := by
  have hlookup := h.lookup hnodup
  unfold pathOf
  cases p with
  | none => rw [show (ws.map (·.entry)).lookup name = none from hlookup]; rfl
  | some p =>
    obtain ⟨cs, hlookup, -, -, rfl⟩ := hlookup
    rw [hlookup, Option.map_some]

/-! ## Both levels -/

/-- The value that is chosen for a flag. -/
def value? (a : Arguments) (flag : String) : Option FieldValue := (a.command.value? flag).or (a.globals.value? flag)

theorem plainNames_globalFlags : PlainNames globalFlags := by
  unfold PlainNames
  decide

theorem plainNames_ownFlags : ∀ name ∈ commandNames, PlainNames (ownFlags name ++ globalFlags) := by
  unfold PlainNames
  decide

theorem found_number {n : Option UInt64} (hf : flags.find? (·.name == name) = some f) (htype : f.type = .number)
    (h : (n.map fun n => .number n.toNat) = some v) :
    ∃ f, flags.find? (·.name == name) = some f ∧ Takes f v := by
  obtain ⟨n, -, rfl⟩ := Option.map_eq_some_iff.1 h
  exact ⟨f, hf, takes_number htype⟩

theorem found_path {p : Option Path} (hf : flags.find? (·.name == name) = some f) (htype : f.type = .path)
    (h : p.map .path = some v) : ∃ f, flags.find? (·.name == name) = some f ∧ Takes f v := by
  obtain ⟨p, -, rfl⟩ := Option.map_eq_some_iff.1 h
  exact ⟨f, hf, takes_path htype⟩

theorem find?_of_globals (h : g.value? name = some v) :
    ∃ f, globalFlags.find? (·.name == name) = some f ∧ Takes f v := by
  unfold Globals.value? at h
  split_ifs at h with hconfig hseed hdir hlog hreport
  · exact found_path (by rw [hconfig]; rfl) rfl h
  · exact found_number (by rw [hseed]; rfl) rfl h
  · exact found_path (by rw [hdir]; rfl) rfl h
  · exact found_path (by rw [hlog]; rfl) rfl h
  · exact found_path (by rw [hreport]; rfl) rfl h

theorem find?_of_command (h : c.value? name = some v) :
    ∃ f, (ownFlags c.name).find? (·.name == name) = some f ∧ Takes f v := by
  unfold Command.value? at h
  cases c <;> simp only at h
  case nested =>
    split_ifs at h with hdepth hkeys hout
    · exact found_number (by rw [hdepth]; rfl) rfl h
    · exact found_number (by rw [hkeys]; rfl) rfl h
    · exact found_path (by rw [hout]; rfl) rfl h
  case array | ndjson =>
    split_ifs at h with hcount hout
    · exact found_number (by rw [hcount]; rfl) rfl h
    · exact found_path (by rw [hout]; rfl) rfl h
  case csv =>
    split_ifs at h with hrows hout
    · exact found_number (by rw [hrows]; rfl) rfl h
    · exact found_path (by rw [hout]; rfl) rfl h
  case all => cases h

/-- No subcommand has a flag of its own that is called like a shared one. -/
theorem find?_ownFlags_eq_none :
    ∀ command ∈ commandNames, ∀ name ∈ globalFlags.map (·.name), (ownFlags command).find? (·.name == name) = none := by
  decide

theorem mem_globalFlags_of_value? (h : g.value? name = some v) : name ∈ globalFlags.map (·.name) := by
  obtain ⟨f, hf, -⟩ := find?_of_globals h
  obtain rfl : f.name = name := by simpa using List.find?_some hf
  exact List.mem_map_of_mem (List.mem_of_find?_eq_some hf)

theorem command_value?_of_global (hname : name ∈ globalFlags.map (·.name)) : c.value? name = none := by
  rw [Option.eq_none_iff_forall_ne_some]
  intro v hv
  obtain ⟨f, hf, -⟩ := find?_of_command hv
  rw [find?_ownFlags_eq_none _ c.name_mem _ hname] at hf
  cases hf

variable {a : Arguments}

/-- Behind the subcommand every flag is accepted for which a value is chosen. -/
theorem accepts_below (h : a.value? w.name = some w.value) : Accepts (ownFlags a.command.name ++ globalFlags) w := by
  rw [value?, Option.or_eq_some_iff] at h
  rcases h with h | ⟨-, h⟩
  · obtain ⟨f, hf, htakes⟩ := find?_of_command h
    exact ⟨f, by rw [List.find?_append, hf]; rfl, htakes _ w.spelled⟩
  · obtain ⟨f, hf, htakes⟩ := find?_of_globals h
    have hown := find?_ownFlags_eq_none _ a.command.name_mem _ (mem_globalFlags_of_value? h)
    exact ⟨f, by rw [List.find?_append, hown, hf]; rfl, htakes _ w.spelled⟩

/-- In front of the subcommand shared flags are accepted. -/
theorem accepts_top (hname : w.name ∈ globalFlags.map (·.name)) (h : a.value? w.name = some w.value) :
    Accepts globalFlags w := by
  rw [value?, command_value?_of_global hname, Option.none_or] at h
  obtain ⟨f, hf, htakes⟩ := find?_of_globals h
  exact ⟨f, hf, htakes _ w.spelled⟩

theorem globalsOf_entries (hnodup : (ws.map (·.name)).Nodup) (h : ∀ name, Writes ws name (a.value? name)) :
    globalsOf (ws.map (·.entry)) = a.globals := by
  have hshared : ∀ name ∈ globalFlags.map (·.name), Writes ws name (a.globals.value? name) := fun name hname => by
    have := h name
    rwa [value?, command_value?_of_global hname, Option.none_or] at this
  unfold globalsOf
  rw [pathOf_entries hnodup (hshared "config" (by decide)), numberOf_entries hnodup (hshared "seed" (by decide)),
    pathOf_entries hnodup (hshared "out-dir" (by decide)), pathOf_entries hnodup (hshared "log-file" (by decide)),
    pathOf_entries hnodup (hshared "report" (by decide))]

theorem commandOf_entries (hnodup : (ws.map (·.name)).Nodup)
    (h : ∀ name ∉ globalFlags.map (·.name), Writes ws name (c.value? name)) :
    commandOf c.name (ws.map (·.entry)) = c := by
  have hout := h "out" (by decide)
  cases c with
  | nested maxDepth keys out =>
    have hdepth := numberOf_entries hnodup (h "max-depth" (by decide))
    have hkeys := numberOf_entries hnodup (h "num-keys" (by decide))
    show Command.nested (numberOf _ _) (numberOf _ _) (pathOf _ _) = _
    rw [hdepth, hkeys, pathOf_entries hnodup hout]
  | array count out =>
    show Command.array (numberOf _ _) (pathOf _ _) = _
    rw [numberOf_entries hnodup (h "count" (by decide)), pathOf_entries hnodup hout]
  | ndjson count out =>
    show Command.ndjson (numberOf _ _) (pathOf _ _) = _
    rw [numberOf_entries hnodup (h "count" (by decide)), pathOf_entries hnodup hout]
  | csv rows out =>
    show Command.csv (numberOf _ _) (pathOf _ _) = _
    rw [numberOf_entries hnodup (h "rows" (by decide)), pathOf_entries hnodup hout]
  | all => rfl

/-- In front of the subcommand shared flags are read, up to its name. -/
theorem scan_top (hall : ∀ w ∈ before, Accepts globalFlags w) (hnodup : (before.map (·.name)).Nodup)
    (rest : List (List Char)) :
    ∃ top, top.settle = .ok ⟨before.map (·.entry), none⟩ ∧
      scan globalFlags none .empty ((before.flatMap (·.words)).map String.toList ++ c.name.toList :: rest) =
        .ok (top, some (c.name, rest)) := by
  obtain ⟨top, hsettle, hscan⟩ := scan_empty none (c.name.toList :: rest) plainNames_globalFlags hall hnodup
  refine ⟨top, hsettle, ?_⟩
  rw [hscan]
  unfold scan
  rw [if_pos ⟨rfl, by rw [waits_of_settle hsettle]; rfl, by rw [String.ofList_toList]; exact c.name_mem⟩,
    String.ofList_toList]

/-- Arguments that give each flag once are read as what they say, in whatever order they come. -/
theorem read_eq (hchosen : ∀ name, Writes (before ++ after) name (a.value? name))
    (honce : ((before ++ after).map (·.name)).Nodup) (hbefore : ∀ w ∈ before, w.name ∈ globalFlags.map (·.name)) :
    Arguments.read (before.flatMap (·.words) ++ a.command.name :: after.flatMap (·.words)) = .ok a := by
  have hvalue : ∀ w ∈ before ++ after, a.value? w.name = some w.value := fun w hw =>
    (hchosen w.name w.value).1 ⟨w, hw, rfl, rfl⟩
  have hsplit := honce
  rw [List.map_append, List.nodup_append] at hsplit
  obtain ⟨htopNodup, hbelowNodup, -⟩ := hsplit
  obtain ⟨top, htop, htopScan⟩ := scan_top (c := a.command)
    (fun w hw => accepts_top (hbefore w hw) (hvalue w (List.mem_append_left _ hw))) htopNodup
    ((after.flatMap (·.words)).map String.toList)
  obtain ⟨below, hbelow, hbelowScan⟩ := scan_empty (some a.command.name) [] (plainNames_ownFlags _ a.command.name_mem)
    (fun w hw => accepts_below (hvalue w (List.mem_append_right _ hw))) hbelowNodup
  rw [List.append_nil, scan] at hbelowScan
  -- the shared flags are those of both levels, in the order in which they are looked up
  have hglobals : globalsOf (after.map (·.entry) ++ before.map (·.entry)) = a.globals := by
    rw [← List.map_append]
    refine globalsOf_entries ?_ fun name v => ?_
    · exact ((List.perm_append_comm).map _).nodup_iff.1 honce
    · rw [← hchosen name v]
      simp only [List.mem_append, or_comm]
  have hcommand : commandOf a.command.name (after.map (·.entry)) = a.command := by
    refine commandOf_entries hbelowNodup fun name hname v => ?_
    have hown : a.value? name = a.command.value? name := by
      rw [value?, show a.globals.value? name = none from ?_, Option.or_none]
      rw [Option.eq_none_iff_forall_ne_some]
      exact fun v hv => hname (mem_globalFlags_of_value? hv)
    rw [← hown, ← hchosen name v]
    constructor
    · rintro ⟨w, hw, h⟩
      exact ⟨w, List.mem_append_right _ hw, h⟩
    · rintro ⟨w, hw, rfl, h⟩
      exact ⟨w, (List.mem_append.1 hw).resolve_left fun hw => hname (hbefore w hw), rfl, h⟩
  unfold Arguments.read
  rw [List.map_append, List.map_cons, htopScan]
  simp only
  rw [hbelowScan]
  show (below.settle.bind fun below => top.settle.bind fun top => _) = _
  rw [hbelow, htop]
  show Except.ok (Arguments.mk _ _) = _
  rw [hglobals, hcommand]

/-- A subcommand with each chosen flag once, its own behind its name and the shared ones anywhere, is read as what
was chosen. It is about the kind that it is called by, and it changes the options that its own flags have values for
and no others. -/
theorem read_chosen (a : Arguments) (before after : List WrittenFlag)
    (hchosen : ∀ name v, (∃ w ∈ before ++ after, w.name = name ∧ w.value = v) ↔ a.value? name = some v)
    (honce : ((before ++ after).map (·.name)).Nodup) (hbefore : ∀ w ∈ before, w.name ∈ globalFlags.map (·.name)) :
    Arguments.read (before.flatMap (·.words) ++ a.command.name :: after.flatMap (·.words)) = .ok a ∧
      a.command.kind? = Kind.ofId? a.command.name ∧
      ∀ o : Options, (∀ f, (a.command.apply o).value? f = ((a.command.flag? f).bind a.command.value?).or (o.value? f)) ∧
        (a.command.apply o).nested.shape.floatMin = o.nested.shape.floatMin ∧
        (a.command.apply o).nested.shape.floatMax = o.nested.shape.floatMax := by
  refine ⟨read_eq hchosen honce hbefore, a.command.kind?_eq, fun o => ⟨a.command.value?_apply o, ?_, ?_⟩⟩ <;>
    rw [a.command.shape_apply]

/-- Values that look like subcommands or hold equals signs, and a number with zeros in front. -/
theorem read_chosen_lookalikes :
    let a : Arguments := ⟨{ config := some (.ofText "csv"), outDir := some (.ofText "a=b"), seed := some 7 },
      .nested (some 18446744073709551615) none (some (.ofText "json"))⟩
    Arguments.read ["--config", "csv", "--out-dir=a=b", "json", "--out", "json", "--seed=007", "--max-depth",
        "18446744073709551615"] = .ok a ∧
      ∀ o : Options, (a.command.apply o).value? .keys = o.value? .keys := by
  intro a
  let before : List WrittenFlag := [
    ⟨"config", .path (.ofText "csv"), "csv", false, by decide, by decide, by decide⟩,
    ⟨"out-dir", .path (.ofText "a=b"), "a=b", true, by decide, by decide, by decide⟩]
  let after : List WrittenFlag := [
    ⟨"out", .path (.ofText "json"), "json", false, by decide, by decide, by decide⟩,
    ⟨"seed", .number 7, "007", true, by decide, List.all_eq_true.1 (by decide), by decide⟩,
    ⟨"max-depth", .number 18446744073709551615, "18446744073709551615", false,
      by decide, List.all_eq_true.1 (by decide), by decide⟩]
  have hchosen : ∀ name v, (∃ w ∈ before ++ after, w.name = name ∧ w.value = v) ↔ a.value? name = some v := by
    have hcommand : ∀ name, a.command.value? name =
        if name = "max-depth" then some (.number 18446744073709551615)
        else if name = "out" then some (.path (.ofText "json")) else none := by
      intro name
      simp only [a, Command.value?]
      grind
    have hglobals : ∀ name, a.globals.value? name =
        if name = "config" then some (.path (.ofText "csv")) else if name = "seed" then some (.number 7)
        else if name = "out-dir" then some (.path (.ofText "a=b")) else none := by
      intro name
      simp only [a, Globals.value?]
      grind
    intro name v
    rw [value?, hcommand, hglobals]
    simp only [before, after, List.cons_append, List.nil_append, List.mem_cons, List.not_mem_nil, or_false,
      exists_eq_or_imp, exists_eq_left]
    grind
  obtain ⟨hread, -, happly⟩ := read_chosen a before after hchosen (by decide) (by decide)
  exact ⟨hread, fun o => (happly o).1 .keys⟩

end Arguments

end Fixtures
