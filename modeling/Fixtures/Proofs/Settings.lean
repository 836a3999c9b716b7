/-
Settings that say some options. A text that gives options their values, those at its top first and the others below
the headers of their tables, is read as these options, and all others have their defaults. Only an end within a leap
second that is out of place is read as another one.
-/
import Fixtures.Proofs.Options.Reading
import Fixtures.Proofs.Toml.Lines
import Fixtures.Settings

namespace Fixtures

open Toml (Entries Line)

/-! ## Texts of values -/

/-- A text is a string between quotation marks, of which each character is written in one of its ways. -/
def IsQuoted (cs text : List Char) : Prop := ∃ es, Toml.WritesAll cs es ∧ text = '"' :: (es ++ ['"'])

/-- The texts of a value in settings: an integer of 64 bits with a sign in decimal digits, or a string. A path that is
no text has none. -/
def FieldValue.IsSetting : FieldValue → List Char → Prop
  | number n, text => -0x8000000000000000 ≤ n ∧ n ≤ 0x7fffffffffffffff ∧ text = intDigits n
  | path p, text => ∃ s, p = .ofText s ∧ IsQuoted s.toList text
  | moment t, text => IsQuoted t.text text

theorem FieldValue.IsSetting.isValueText {v : FieldValue} {text : List Char} (h : v.IsSetting text) :
    Toml.IsValueText text v.toToml := by
  cases v with
  | number n =>
    obtain ⟨hlow, hhigh, rfl⟩ := h
    exact Toml.isValueText_integer hlow hhigh
  | path p =>
    obtain ⟨s, rfl, es, hes, rfl⟩ := h
    have htext := Toml.isValueText_string hes
    rwa [String.ofList_toList, ← Path.display_ofText s] at htext
  | moment t =>
    obtain ⟨es, hes, rfl⟩ := h
    exact Toml.isValueText_string hes

theorem FieldValue.IsSetting.hasText {v : FieldValue} {text : List Char} (h : v.IsSetting text) : v.HasText := by
  cases v with
  | path p =>
    obtain ⟨s, hp, -⟩ := h
    exact ⟨s, hp⟩
  | number | moment => trivial

theorem isQuoted_escape (cs : List Char) : IsQuoted cs ('"' :: (cs.flatMap Toml.escape ++ ['"'])) :=
  ⟨_, Toml.writesAll_escape cs, rfl⟩

/-- An option as the settings say it, with the text of its value. -/
structure WrittenField where
  field : Field
  value : FieldValue
  text : List Char
  spelled : value.IsSetting text

/-- The line of an option. -/
def WrittenField.line (w : WrittenField) : Line := .pair w.field.key w.text w.value.toToml

theorem WrittenField.isPlain_line (w : WrittenField) : w.line.IsPlain := by
  have hkeys : ∀ f ∈ Field.all, f.key.toList ≠ [] ∧ f.key.toList.all Toml.isBare = true := by decide
  obtain ⟨hne, hbare⟩ := hkeys w.field w.field.mem_all
  exact ⟨⟨hne, List.all_eq_true.1 hbare⟩, w.spelled.isValueText⟩

namespace Settings

variable {o : Options} {ws : List WrittenField} {w : WrittenField} {t : Table} {tables opened : List Table}
  {done : List Field} {root : Entries} {path : List String}

/-- The lines of the options of a table. -/
def pairs (ws : List WrittenField) (t : Table) : List Line :=
  (ws.filter (·.field.table = t)).map (·.line)

/-- The header of a table, and the lines of its options. -/
def block (ws : List WrittenField) (t : Table) : List Line := .header t.path :: pairs ws t

/-- The lines of a settings text: the options at its top, and the tables. -/
def lines (ws : List WrittenField) (tables : List Table) : List Line := pairs ws .top ++ tables.flatMap (block ws)

/-- A settings text, line by line. -/
def text (ws : List WrittenField) (tables : List Table) : List Char := (lines ws tables).flatMap Line.text

/-! ## Settings that are read in part -/

/-- How a table stands once some tables were opened by their headers: the one above the bounds comes up with these. -/
def standing? (opened : List Table) (t : Table) : Option Toml.Mark :=
  if t ∈ opened then some (.table .stated) else if t = .nested ∧ .shape ∈ opened then some (.table .implied) else none

theorem standing?_eq_some {mark : Toml.Mark} (h : standing? opened t = some mark) :
    mark = .table .stated ∨ mark = .table .implied := by
  unfold standing? at h
  split_ifs at h <;> cases h
  · exact .inl rfl
  · exact .inr rfl

theorem standing?_eq_none (h : standing? opened t = none) : t ∉ opened ∧ ¬ (t = .nested ∧ .shape ∈ opened) := by
  unfold standing? at h
  split_ifs at h with hopened himplied
  exact ⟨hopened, himplied⟩

theorem standing?_of_notMem (h : t ∉ opened) :
    standing? opened t = none ∨ standing? opened t = some (.table .implied) := by
  rw [standing?, if_neg h]
  split
  · exact .inr rfl
  · exact .inl rfl

theorem standing?_open_self : standing? (opened ++ [t]) t = some (.table .stated) :=
  if_pos (List.mem_append_right _ List.mem_cons_self)

theorem standing?_open_above (h : standing? opened .nested = none) :
    standing? (opened ++ [.shape]) .nested = some (.table .implied) := by
  have hopened := (standing?_eq_none h).1
  rw [standing?, if_neg (by simpa using hopened), if_pos (by simp)]

/-- A header leaves the other tables as they stand, but for the one that comes up with it. -/
theorem standing?_open_of_ne {t' : Table} (hne : t' ≠ t)
    (habove : ¬ (t = .shape ∧ t' = .nested ∧ standing? opened t' = none)) :
    standing? (opened ++ [t]) t' = standing? opened t' := by
  have hopened : t' ∈ opened ++ [t] ↔ t' ∈ opened := by simp [hne]
  by_cases hmem : t' ∈ opened
  · rw [standing?, standing?, if_pos hmem, if_pos (hopened.2 hmem)]
  have himplied : t' = .nested ∧ .shape ∈ opened ++ [t] ↔ t' = .nested ∧ .shape ∈ opened := by
    refine and_congr_right fun hnested => ?_
    rw [List.mem_append, List.mem_singleton]
    refine or_iff_left_of_imp fun hshape => ?_
    by_contra hnew
    exact habove ⟨hshape.symm, hnested, by rw [standing?, if_neg hmem, if_neg fun h => hnew h.2]⟩
  simp only [standing?, hopened, himplied]

/-- The tables while a settings text is read: the options that came so far have their values, the tables that were
opened have come up by their headers, and there is nothing else. -/
structure Draft (o : Options) (done : List Field) (opened : List Table) (root : Entries) : Prop where
  values : ∀ f : Field, root.mark? f.table.path f.key = Options.markOf? done o f
  tables : ∀ (t : Table) (p : List String) (k : String), t.path = p ++ [k] → root.mark? p k = standing? opened t
  floats : ∀ key ∈ ["float_min", "float_max"], root.mark? Table.shape.path key = none

namespace Draft

theorem empty : Draft o [] [] [] where
  values f := by
    rw [Options.markOf?, if_neg (List.not_mem_nil), Entries.mark?, Entries.node?_empty]
    rfl
  tables t p k _ := by
    rw [Entries.mark?, Entries.node?_empty, standing?, if_neg List.not_mem_nil, if_neg fun h => List.not_mem_nil h.2]
    rfl
  floats key _ := by
    rw [Entries.mark?, Entries.node?_empty]
    rfl

/-- The tables on the way to any table have come up by headers, if they have come up. -/
theorem enterable (h : Draft o done opened root) (t : Table) : Entries.Enterable t.path root := by
  intro p k hstart mark hmark
  obtain ⟨t', hpath, -⟩ := Table.exists_of_prefix hstart
  rw [h.tables t' p k hpath] at hmark
  rcases standing?_eq_some hmark with rfl | rfl
  · exact ⟨.stated, by decide, rfl⟩
  · exact ⟨.implied, by decide, rfl⟩

/-- The line of a new option gives it its value, at the top or in a table that was opened, and changes nothing else. -/
theorem pair (h : Draft o done opened root) (hvalue : o.value? w.field = some w.value) (hnew : w.field ∉ done)
    (hopen : w.field.table = .top ∨ w.field.table ∈ opened) :
    ∃ root', Line.apply (w.field.table.path, root) w.line = some (w.field.table.path, root') ∧
      Draft o (done ++ [w.field]) opened root' := by
  have hnone : root.mark? w.field.table.path w.field.key = none := by
    rw [h.values, Options.markOf?, if_neg hnew]
  obtain ⟨root', hput, hmark⟩ := Entries.putBelow_spec w.value.toToml (h.enterable w.field.table) hnone
  -- the tables on the way are there
  have hway : ∀ p k, ¬ (p ++ [k] <+: w.field.table.path ∧ root.mark? p k = none) := by
    rintro p k ⟨hstart, hmissing⟩
    obtain ⟨t', hpath, ht'⟩ := Table.exists_of_prefix hstart
    rw [h.tables t' p k hpath] at hmissing
    obtain ⟨hopened, himplied⟩ := standing?_eq_none hmissing
    rcases ht' with rfl | ⟨hshape, rfl⟩
    · rcases hopen with htop | hopen
      · rw [htop] at hpath
        exact absurd hpath.symm (List.append_ne_nil_of_right_ne_nil _ (List.cons_ne_nil _ _))
      · exact hopened hopen
    · rw [hshape] at hopen
      exact himplied ⟨rfl, hopen.resolve_left (by decide)⟩
  refine ⟨root', by rw [WrittenField.line, Line.apply, hput]; rfl, ?_, ?_, ?_⟩
  · intro f
    rw [hmark, if_neg (hway _ _), h.values]
    split
    · rename_i heq
      obtain rfl : f = w.field := Field.ext_key (Table.path_inj heq.1) heq.2
      rw [Options.markOf?, if_pos (by simp), hvalue]
      rfl
    · rename_i hne
      have hf : f ≠ w.field := by
        rintro rfl
        exact hne ⟨rfl, rfl⟩
      simp only [Options.markOf?, List.mem_append, List.mem_singleton, hf, or_false]
  · intro t p k hpath
    rw [hmark, if_neg ?_, if_neg (hway _ _), h.tables t p k hpath]
    rintro ⟨rfl, rfl⟩
    exact Field.path_ne w.field t hpath.symm
  · intro key hkey
    rw [hmark, if_neg ?_, if_neg (hway _ _), h.floats key hkey]
    rintro ⟨-, rfl⟩
    have hall : ∀ f ∈ Field.all, f.key ∉ ["float_min", "float_max"] := by decide
    exact hall w.field w.field.mem_all hkey

/-- The header of a new table opens it, and the table above it comes up if it is missing. -/
theorem header (path : List String) (h : Draft o done opened root) (hnew : t ∉ opened) (htop : t ≠ .top) :
    ∃ root', Line.apply (path, root) (.header t.path) = some (t.path, root') ∧ Draft o done (opened ++ [t]) root' := by
  obtain ⟨p, k, hpath⟩ : ∃ p k, t.path = p ++ [k] :=
    (List.eq_nil_or_concat' t.path).resolve_left fun hnil => htop (Table.path_inj hnil)
  have hstart : p <+: t.path := ⟨[k], hpath.symm⟩
  have hold : root.mark? p k = none ∨ root.mark? p k = some (.table .implied) := by
    rw [h.tables t p k hpath]
    exact standing?_of_notMem hnew
  have hway : Entries.Enterable p root := fun p' k' hp' => h.enterable t p' k' (hp'.trans hstart)
  obtain ⟨root', htable, hmark⟩ := Entries.openTable_spec hway hold
  -- only tables come up
  have hsame : ∀ p' k', (∀ t' : Table, t'.path ≠ p' ++ [k']) → root'.mark? p' k' = root.mark? p' k' := by
    intro p' k' hne
    rw [hmark, if_neg, if_neg]
    · rintro ⟨hway', -⟩
      obtain ⟨t', hpath', -⟩ := Table.exists_of_prefix (hway'.trans hstart)
      exact hne t' hpath'
    · rintro ⟨rfl, rfl⟩
      exact hne t hpath
  refine ⟨root', by rw [Line.apply, hpath, htable]; rfl, ?_, ?_, ?_⟩
  · intro f
    rw [hsame _ _ fun t' heq => f.path_ne t' heq.symm, h.values]
  · intro t' p' k' hpath'
    rw [hmark]
    split
    · rename_i heq
      obtain rfl : t' = t := Table.path_inj (by rw [hpath', hpath, heq.1, heq.2])
      rw [standing?_open_self]
    rename_i hne
    have ht' : t' ≠ t := by
      rintro rfl
      rw [hpath] at hpath'
      exact hne ⟨(List.append_inj_left' hpath' rfl).symm, by simpa using (List.append_inj_right' hpath' rfl).symm⟩
    rw [h.tables t' p' k' hpath']
    split
    · -- on the way to a table there is only the one above the bounds
      rename_i hmissing
      obtain ⟨t'', hpath'', hcases⟩ := Table.exists_of_prefix (hmissing.1.trans hstart)
      obtain rfl : t'' = t' := Table.path_inj (hpath''.trans hpath'.symm)
      obtain ⟨rfl, rfl⟩ := hcases.resolve_left ht'
      exact (standing?_open_above hmissing.2).symm
    · rename_i hpresent
      refine (standing?_open_of_ne ht' ?_).symm
      rintro ⟨rfl, rfl, hnone⟩
      -- it would have come up on the way
      refine hpresent ⟨?_, hnone⟩
      rw [← hpath']
      exact ⟨[], List.append_inj_left' hpath rfl⟩
  · intro key hkey
    have hall : ∀ key ∈ ["float_min", "float_max"], ∀ t' ∈ Table.all, t'.path ≠ Table.shape.path ++ [key] := by decide
    rw [hsame _ _ fun t' => hall key hkey t' t'.mem_all, h.floats key hkey]

/-- The lines of new options of one table, one after the other. -/
theorem run_pairs (hall : ∀ w ∈ ws, o.value? w.field = some w.value ∧ w.field.table = t ∧ w.field ∉ done)
    (honce : (ws.map (·.field)).Nodup) (hopen : t = .top ∨ t ∈ opened) (h : Draft o done opened root) :
    ∃ root', (ws.map (·.line)).foldlM Line.apply (t.path, root) = some (t.path, root') ∧
      Draft o (done ++ ws.map (·.field)) opened root' := by
  induction ws generalizing done root with
  | nil => exact ⟨root, rfl, by rwa [List.map_nil, List.append_nil]⟩
  | cons w ws ih =>
    obtain ⟨hvalue, rfl, hnew⟩ := hall w List.mem_cons_self
    rw [List.map_cons, List.nodup_cons] at honce
    obtain ⟨root₁, hline, hdraft⟩ := h.pair hvalue hnew hopen
    have hrest : ∀ w' ∈ ws, o.value? w'.field = some w'.value ∧ w'.field.table = w.field.table ∧
        w'.field ∉ done ++ [w.field] := by
      intro w' hw'
      obtain ⟨hvalue', htable', hnew'⟩ := hall w' (List.mem_cons_of_mem _ hw')
      refine ⟨hvalue', htable', ?_⟩
      rw [List.mem_append, List.mem_singleton]
      rintro (hmem | heq)
      · exact hnew' hmem
      · exact honce.1 (heq ▸ List.mem_map_of_mem hw')
    obtain ⟨root₂, hlines, hdraft₂⟩ := ih hrest honce.2 hdraft
    refine ⟨root₂, ?_, ?_⟩
    · rw [List.map_cons, List.foldlM_cons, hline]
      exact hlines
    · rwa [List.map_cons, List.append_cons]

end Draft

/-- The options of a table among those that are written. -/
def fieldsOf (ws : List WrittenField) (t : Table) : List Field := (ws.filter (·.field.table = t)).map (·.field)

theorem mem_fieldsOf {f : Field} : f ∈ fieldsOf ws t ↔ f ∈ ws.map (·.field) ∧ f.table = t := by
  simp only [fieldsOf, List.mem_map, List.mem_filter, decide_eq_true_eq]
  constructor
  · rintro ⟨w, ⟨hw, ht⟩, rfl⟩
    exact ⟨⟨w, hw, rfl⟩, ht⟩
  · rintro ⟨⟨w, hw, rfl⟩, ht⟩
    exact ⟨w, ⟨hw, ht⟩, rfl⟩

section

variable (hvalues : ∀ w ∈ ws, o.value? w.field = some w.value) (honce : (ws.map (·.field)).Nodup)
include hvalues honce

theorem Draft.run_table (hnew : ∀ f ∈ done, f.table ≠ t) (hopen : t = .top ∨ t ∈ opened)
    (h : Draft o done opened root) :
    ∃ root', (pairs ws t).foldlM Line.apply (t.path, root) = some (t.path, root') ∧
      Draft o (done ++ fieldsOf ws t) opened root' := by
  refine Draft.run_pairs (fun w hw => ?_) (honce.sublist (List.filter_sublist.map _)) hopen h
  obtain ⟨hw, ht⟩ := List.mem_filter.1 hw
  have ht := of_decide_eq_true ht
  exact ⟨hvalues w hw, ht, fun hmem => hnew _ hmem ht⟩

/-- The tables of a settings text, one after the other. -/
theorem Draft.run_tables (path : List String) (htables : tables.Nodup) (htop : .top ∉ tables)
    (hopened : ∀ t ∈ tables, t ∉ opened) (hnew : ∀ f ∈ done, f.table ∉ tables) (h : Draft o done opened root) :
    ∃ state, (tables.flatMap (block ws)).foldlM Line.apply (path, root) = some state ∧
      Draft o (done ++ tables.flatMap (fieldsOf ws)) (opened ++ tables) state.2 := by
  induction tables generalizing done opened root path with
  | nil => exact ⟨(path, root), rfl, by rwa [List.flatMap_nil, List.append_nil, List.append_nil]⟩
  | cons t tables ih =>
    rw [List.nodup_cons] at htables
    rw [List.mem_cons, not_or] at htop
    obtain ⟨root₁, hheader, hdraft₁⟩ := h.header path (hopened t List.mem_cons_self) (Ne.symm htop.1)
    obtain ⟨root₂, hpairs, hdraft₂⟩ := hdraft₁.run_table hvalues honce
      (fun f hf ht => hnew f hf (ht ▸ List.mem_cons_self)) (.inr (by simp))
    have hopened₂ : ∀ t' ∈ tables, t' ∉ opened ++ [t] := by
      intro t' ht'
      rw [List.mem_append, List.mem_singleton]
      rintro (hmem | rfl)
      · exact hopened t' (List.mem_cons_of_mem _ ht') hmem
      · exact htables.1 ht'
    have hnew₂ : ∀ f ∈ done ++ fieldsOf ws t, f.table ∉ tables := by
      intro f hf hmem
      rcases List.mem_append.1 hf with hf | hf
      · exact hnew f hf (List.mem_cons_of_mem _ hmem)
      · exact htables.1 ((mem_fieldsOf.1 hf).2 ▸ hmem)
    obtain ⟨state, hstate, hdraft⟩ := ih t.path htables.2 htop.2 hopened₂ hnew₂ hdraft₂
    refine ⟨state, ?_, ?_⟩
    · rw [List.flatMap_cons, block, List.cons_append, List.foldlM_cons, hheader]
      show (pairs ws t ++ tables.flatMap (block ws)).foldlM Line.apply (t.path, root₁) = some state
      rw [List.foldlM_append, hpairs]
      exact hstate
    · rwa [List.flatMap_cons, ← List.append_assoc, List.append_cons opened]

end

theorem isPlain_lines (htop : .top ∉ tables) : ∀ line ∈ lines ws tables, line.IsPlain := by
  have hpairs : ∀ t, ∀ line ∈ pairs ws t, line.IsPlain := by
    intro t line hline
    obtain ⟨w, -, rfl⟩ := List.mem_map.1 hline
    exact w.isPlain_line
  intro line hline
  rcases List.mem_append.1 hline with hline | hline
  · exact hpairs _ line hline
  obtain ⟨t, ht, hline⟩ := List.mem_flatMap.1 hline
  rcases List.mem_cons.1 hline with rfl | hline
  · have hall : ∀ t ∈ Table.all, t ≠ .top → t.path ≠ [] ∧ t.path.length < Toml.depthLimit ∧
        ∀ key ∈ t.path, key.toList ≠ [] ∧ key.toList.all Toml.isBare = true := by decide
    obtain ⟨hne, hlength, hkeys⟩ := hall t t.mem_all fun heq => htop (heq ▸ ht)
    exact ⟨hne, hlength, fun key hkey => ⟨(hkeys key hkey).1, List.all_eq_true.1 (hkeys key hkey).2⟩⟩
  · exact hpairs t line hline

/-- Settings that give options their values, each once, those at the top first and the others in their tables, are read
as these options, and every other option has its default. An end is read as its text says; this is the end itself just
if it is within no leap second that is out of place. -/
theorem read?_assigned (o : Options) (ws : List WrittenField) (tables : List Table)
    (hvalues : ∀ w ∈ ws, o.value? w.field = some w.value) (honce : (ws.map (·.field)).Nodup) (htables : tables.Nodup)
    (hused : ∀ t, t ∈ tables ↔ t ≠ .top ∧ ∃ w ∈ ws, w.field.table = t) :
    ∃ o', Settings.read? (text ws tables) = some o' ∧
      (∀ f, o'.value? f = if f ∈ ws.map (·.field) then o.asRead.value? f else ({} : Options).value? f) ∧
      o'.nested.shape.floatMin = ({} : Shape).floatMin ∧ o'.nested.shape.floatMax = ({} : Shape).floatMax ∧
      ((∀ f ∈ ws.map (·.field), o'.value? f = o.value? f) ↔
        (.stop ∈ ws.map (·.field) → ∀ t, o.csv.stop = some t → t.time.InPlace)) := by
  have htop : .top ∉ tables := fun hmem => ((hused .top).1 hmem).1 rfl
  obtain ⟨root₁, hpairs, hdraft₁⟩ : ∃ root', (pairs ws .top).foldlM Line.apply ([], []) = some ([], root') ∧
      Draft o ([] ++ fieldsOf ws .top) [] root' :=
    Draft.empty.run_table hvalues honce (fun f hf => absurd hf List.not_mem_nil) (.inl rfl)
  obtain ⟨state, hblocks, hdraft⟩ := hdraft₁.run_tables hvalues honce [] htables htop (fun _ _ => List.not_mem_nil)
    (fun f hf hmem => by
      rw [List.nil_append] at hf
      rw [(mem_fieldsOf.1 hf).2] at hmem
      exact htop hmem)
  have hmem : ∀ f, f ∈ [] ++ fieldsOf ws .top ++ tables.flatMap (fieldsOf ws) ↔ f ∈ ws.map (·.field) := by
    intro f
    rw [List.nil_append, List.mem_append, List.mem_flatMap]
    constructor
    · rintro (hf | ⟨t, -, hf⟩) <;> exact (mem_fieldsOf.1 hf).1
    · intro hf
      by_cases ht : f.table = .top
      · exact .inl (mem_fieldsOf.2 ⟨hf, ht⟩)
      · obtain ⟨w, hw, rfl⟩ := List.mem_map.1 hf
        exact .inr ⟨_, (hused _).2 ⟨ht, w, hw, rfl⟩, mem_fieldsOf.2 ⟨hf, rfl⟩⟩
  have hsome : ∀ f ∈ [] ++ fieldsOf ws .top ++ tables.flatMap (fieldsOf ws), ∃ v, o.value? f = some v ∧ v.HasText := by
    intro f hf
    obtain ⟨w, hw, rfl⟩ := List.mem_map.1 ((hmem f).1 hf)
    exact ⟨w.value, hvalues w hw, w.spelled.hasText⟩
  have hread : Toml.read? (text ws tables) = some (.table (Toml.closeEntries state.2)) := by
    have hlines : (lines ws tables).foldlM Line.apply ([], []) = some state := by
      rw [lines, List.foldlM_append, hpairs]
      exact hblocks
    rw [text, Toml.read?_lines (isPlain_lines htop), hlines]
    rfl
  have hstands : ∀ (t : Table) p k, t.path = p ++ [k] → ∀ mark, state.2.mark? p k = some mark →
      ∃ origin, mark = .table origin := by
    intro t p k hpath mark hmark
    rw [hdraft.tables t p k hpath] at hmark
    rcases standing?_eq_some hmark with rfl | rfl <;> exact ⟨_, rfl⟩
  have htaken := Options.ofDocument?_taken hsome hdraft.values hstands hdraft.floats
  have hfields : ∀ f, (o.asRead.taken ([] ++ fieldsOf ws .top ++ tables.flatMap (fieldsOf ws))).value? f =
      if f ∈ ws.map (·.field) then o.asRead.value? f else ({} : Options).value? f := by
    intro f
    rw [Options.value?_taken]
    simp only [hmem]
  refine ⟨_, by rw [Settings.read?, hread]; exact htaken, hfields, rfl, rfl, ?_⟩
  constructor
  · intro hsame hstop
    have hend := hsame .stop hstop
    rw [hfields, if_pos hstop] at hend
    exact Options.stop_asRead_eq_iff.1 hend
  · intro hplace f hf
    rw [hfields, if_pos hf]
    by_cases hstop : f = .stop
    · subst hstop
      exact Options.stop_asRead_eq_iff.2 (hplace hf)
    · exact Options.value?_asRead hstop

/-- Every choice of options that have values can be written, if its numbers are none beyond those of settings and its
paths are texts. -/
theorem exists_written (o : Options) (fields : List Field) (hset : ∀ f ∈ fields, ∃ v, o.value? f = some v ∧ v.HasText)
    (hfits : ∀ f ∈ fields, ∀ n, o.value? f = some (.number n) → n ≤ 0x7fffffffffffffff) :
    ∃ ws : List WrittenField, ws.map (·.field) = fields ∧ ∀ w ∈ ws, o.value? w.field = some w.value := by
  induction fields with
  | nil => exact ⟨[], rfl, fun w hw => absurd hw List.not_mem_nil⟩
  | cons f fields ih =>
    obtain ⟨ws, hws, hvalues⟩ := ih (fun f' hf' => hset f' (List.mem_cons_of_mem _ hf'))
      fun f' hf' => hfits f' (List.mem_cons_of_mem _ hf')
    obtain ⟨v, hv, hpath⟩ := hset f List.mem_cons_self
    obtain ⟨text, htext⟩ : ∃ text, v.IsSetting text := by
      cases v with
      | number n => exact ⟨intDigits n, Options.le_of_value? hv, hfits f List.mem_cons_self n hv, rfl⟩
      | path p =>
        obtain ⟨s, hs⟩ := hpath
        exact ⟨_, s, hs, isQuoted_escape _⟩
      | moment t => exact ⟨_, isQuoted_escape _⟩
    refine ⟨⟨f, v, text, htext⟩ :: ws, by rw [List.map_cons, hws], fun w hw => ?_⟩
    rcases List.mem_cons.1 hw with rfl | hw
    · exact hv
    · exact hvalues w hw

/-- A quotation mark, a backslash, a control character, a blank, a letter beyond ASCII and an emoji. -/
theorem isQuoted_odd : IsQuoted "\"\\\x01 é😀".toList "\"\\\"\\\\\\u0001 é\\U0001F600\"".toList := by
  have hblank : Toml.Writes ' ' [' '] := .plain (by decide) (by decide) (by decide)
  have hletter : Toml.Writes 'é' ['é'] := .plain (by decide) (by decide) (by decide)
  have hemoji : Toml.Writes '😀' "\\U0001F600".toList := .eight (by decide)
  refine ⟨"\\\"\\\\\\u0001 é\\U0001F600".toList, ?_, by decide⟩
  exact .cons (.short (by decide)) <| .cons (.short (by decide)) <| .cons (.four (by decide)) <|
    .cons hblank <| .cons hletter <| .cons hemoji .nil

/-- The greatest seed, the least integer, a leap second of the year before the year 0, and a path that has to be written
with escapes; the options that are not written have their defaults. -/
theorem read?_assigned_extremes :
    ∃ o', Settings.read? ("out_dir = \"\\\"\\\\\\u0001 é\\U0001F600\"\nseed = 9223372036854775807\n[csv]\n" ++
        "end = \"-0001-12-31T23:59:60.500\"\n[nested.shape]\nint_min = -9223372036854775808\n").toList = some o' ∧
      o'.value? .outDir = some (.path (.ofText "\"\\\x01 é😀")) ∧
      o'.value? .seed = some (.number 0x7fffffffffffffff) ∧
      o'.value? .stop = (DateTime.read? "-0001-12-31T23:59:60.500".toList).map .moment ∧
      o'.value? .intMin = some (.number (-0x8000000000000000)) ∧ o'.value? .keys = some (.number 30) := by
  let stop : DateTime := ⟨⟨daysBeforeYear 0 - 1, by decide, by decide⟩, 86399, 1500000000, by decide, by decide⟩
  let o : Options := {
    outDir := .ofText "\"\\\x01 é😀", seed := some 0x7fffffffffffffff
    nested := { shape := { intMin := -0x8000000000000000 } }, csv := { stop := some stop } }
  let ws : List WrittenField := [
    ⟨.intMin, .number (-0x8000000000000000), "-9223372036854775808".toList, by decide, by decide, by decide⟩,
    ⟨.outDir, .path (.ofText "\"\\\x01 é😀"), "\"\\\"\\\\\\u0001 é\\U0001F600\"".toList, _, rfl, isQuoted_odd⟩,
    ⟨.stop, .moment stop, "\"-0001-12-31T23:59:60.500\"".toList, by
      rw [FieldValue.IsSetting, show stop.text = "-0001-12-31T23:59:60.500".toList by decide +kernel]
      exact isQuoted_escape _⟩,
    ⟨.seed, .number 0x7fffffffffffffff, "9223372036854775807".toList, by decide, by decide, by decide⟩]
  obtain ⟨o', hread, hfields, -, -, -⟩ := read?_assigned o ws [.csv, .shape]
    (by decide) (by decide) (by decide) (fun t => by cases t <;> decide)
  refine ⟨o', (congrArg Settings.read? (by decide +kernel)).trans hread, hfields .outDir, hfields .seed, ?_,
    hfields .intMin, hfields .keys⟩
  rw [show "-0001-12-31T23:59:60.500".toList = stop.text by decide +kernel, DateTime.read?_text]
  exact hfields .stop

/-- Settings with an end within a leap second behind the first second of a day, which say an instant of the next second,
are read as this instant. -/
theorem end_out_of_place :
    ∃ (o : Options) (w : WrittenField), w.field = .stop ∧ o.value? .stop = some w.value ∧
      text [w] [.csv] = "[csv]\nend = \"0001-01-01T00:00:01.500\"\n".toList ∧
      ∃ o', Settings.read? (text [w] [.csv]) = some o' ∧ o'.value? .stop ≠ o.value? .stop := by
  let t : DateTime := ⟨⟨daysBeforeYear 1, by decide, by decide⟩, 0, 1500000000, by decide, by decide⟩
  let w : WrittenField := ⟨.stop, .moment t, "\"0001-01-01T00:00:01.500\"".toList, by
    rw [FieldValue.IsSetting, show t.text = "0001-01-01T00:00:01.500".toList by decide +kernel]
    exact isQuoted_escape _⟩
  have hlines : text [w] [.csv] = "[csv]\nend = \"0001-01-01T00:00:01.500\"\n".toList := by decide +kernel
  have hread : (Settings.read? (text [w] [.csv])).map (fun o => o.value? .stop) =
      some (some (.moment ⟨t.date, 1, 500000000, by decide, by decide⟩)) := by
    rw [hlines]
    decide +kernel
  obtain ⟨o', ho', hstop⟩ := Option.map_eq_some_iff.1 hread
  refine ⟨{ csv := { stop := some t } }, w, rfl, rfl, hlines, o', ho', ?_⟩
  rw [hstop]
  decide

end Settings

end Fixtures
