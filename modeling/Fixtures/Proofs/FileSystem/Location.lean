/-
Where paths lead. There are no links, so the location to which a path leads, if it leads anywhere, can be told
from its parts: each of them is a name below the location so far, or the way up. The paths above another one have
fewer parts, and the content of a file is prepared under a name that no path to the file ends in.
-/
import Fixtures.FileSystem.Whole
import Fixtures.Proofs.FileSystem.Stay
import Fixtures.Proofs.Text.Utf8

namespace Fixtures

@[simp] theorem FileName.up_ne_here : FileName.up ≠ .here := by decide

/-- The name under which the next content of a file is prepared is another one than that of the file. -/
theorem FileName.temporary_ne (name : FileName) : FileName.ofText (name.display ++ ".tmp") ≠ name := by
  intro hsame
  have hdisplay := congrArg FileName.display hsame
  rw [FileName.display_ofText] at hdisplay
  have hlength := congrArg String.length hdisplay
  rw [String.length_append] at hlength
  exact absurd hlength (by simp)

namespace Path

/-! ## Segments -/

theorem split_eq_splitOn : ∀ bytes, split bytes = bytes.splitOn separator
  | [] => rfl
  | b :: rest => by
    rw [split, List.splitOn_cons_eq_if_modifyHead, split_eq_splitOn rest]
    by_cases hb : b = separator
    · simp [hb]
    · simp only [hb, if_false, beq_iff_eq]
      cases h : rest.splitOn separator with
      | nil => exact absurd h (List.splitOn_ne_nil _ _)
      | cons first others => rfl

theorem split_append (a b : List UInt8) : split (a ++ separator :: b) = split a ++ split b := by
  simp only [split_eq_splitOn, List.splitOn_append_cons_self]

theorem split_of_notMem {bytes : List UInt8} (h : separator ∉ bytes) : split bytes = [bytes] := by
  rw [split_eq_splitOn, List.splitOn_eq_singleton h]

theorem notMem_of_mem_split {bytes segment : List UInt8} (h : segment ∈ split bytes) : separator ∉ segment := by
  induction bytes generalizing segment with
  | nil =>
    rw [split, List.mem_singleton] at h
    simp [h]
  | cons b rest ih =>
    rw [split] at h
    by_cases hb : b = separator
    · rw [if_pos hb, List.mem_cons] at h
      rcases h with rfl | h
      · simp
      · exact ih h
    · rw [if_neg hb] at h
      cases hrest : split rest with
      | nil =>
        rw [hrest, List.mem_singleton] at h
        simp [h, Ne.symm hb]
      | cons first others =>
        rw [hrest] at h ih
        rcases List.mem_cons.1 h with rfl | h
        · simp [Ne.symm hb, ih List.mem_cons_self]
        · exact ih (List.mem_cons_of_mem first h)

variable (p : Path)

/-- The segments of a path that are not empty. -/
def segments : List FileName := (split p.bytes).filter (· ≠ [])

/-- The parts of a path. -/
def parts : List FileName := (split p.bytes).filter isPart

theorem filter_segments : p.segments.filter (· ≠ .here) = p.parts := by
  rw [segments, parts, List.filter_filter]
  congr 1
  funext segment
  simp [isPart, Bool.and_comm]

/-- Where the parts of a path are looked up. -/
def origin (workDir : Location) : Location := if p.isAbsolute then [] else workDir

/-- The location of a part below another location. -/
def follow (l : Location) (part : FileName) : Location := if part = .up then l.dropLast else l ++ [part]

/-- The location to which a path leads. -/
def target (workDir : Location) : Location := p.parts.foldl follow (p.origin workDir)

variable {p}

theorem parts_of_fileName {name : FileName} (h : p.fileName? = some name) :
    ∃ above, p.parts = above ++ [name] ∧ name ≠ .up := by
  unfold fileName? at h
  split at h
  · cases h
  rename_i hlast
  split at h
  · cases h
  rename_i hup
  cases h
  obtain ⟨above, habove⟩ := List.getLast?_eq_some_iff.1 hlast
  exact ⟨above, habove, hup⟩

theorem target_of_fileName {name : FileName} (h : p.fileName? = some name) (workDir : Location) :
    ∃ dir, p.target workDir = dir ++ [name] := by
  obtain ⟨above, hparts, hup⟩ := parts_of_fileName h
  refine ⟨above.foldl follow (p.origin workDir), ?_⟩
  rw [target, hparts, List.foldl_append, List.foldl_cons, List.foldl_nil, follow, if_neg hup]

theorem foldl_follow {names : List FileName} (h : .up ∉ names) (l : Location) : names.foldl follow l = l ++ names := by
  induction names generalizing l with
  | nil => simp
  | cons name rest ih =>
    rw [List.mem_cons, not_or] at h
    rw [List.foldl_cons, ih h.2, follow, if_neg (Ne.symm h.1), List.append_assoc, List.singleton_append]

/-- Without a way up, a path leads to its parts below the location from which it starts. -/
theorem target_eq (h : .up ∉ p.parts) (workDir : Location) : p.target workDir = p.origin workDir ++ p.parts :=
  foldl_follow h _

/-! ## Paths above -/

theorem isAbsolute_iff : p.isAbsolute = true ↔ ∃ segment rest, split p.bytes = [] :: segment :: rest := by
  unfold isAbsolute
  cases p.bytes with
  | nil => simp [split]
  | cons b rest =>
    rw [split]
    by_cases hb : b = separator
    · rw [if_pos hb]
      cases h : split rest with
      | nil =>
        rw [split_eq_splitOn] at h
        exact absurd h (List.splitOn_ne_nil _ _)
      | cons segment rest => simp [hb]
    · rw [if_neg hb]
      split <;> simp [hb]

theorem exists_isPart {before : List UInt8} {segments : List FileName} (h : bytesBehind before segments ≠ []) :
    ∃ segment ∈ segments, isPart segment = true := by
  induction segments generalizing before with
  | nil => exact absurd rfl h
  | cons segment rest ih =>
    by_cases hpart : isPart segment = true
    · exact ⟨segment, List.mem_cons_self, hpart⟩
    · rw [bytesBehind, if_neg hpart, List.append_nil] at h
      obtain ⟨part, hmem, hpart⟩ := ih h
      exact ⟨part, List.mem_cons_of_mem segment hmem, hpart⟩

theorem split_of_mem_bytesBehind {before bytes : List UInt8} {segments : List FileName}
    (hsegments : ∀ segment ∈ segments, separator ∉ segment) (h : bytes ∈ (bytesBehind before segments).tail) :
    ∃ segment a b, segments = segment :: a ++ b ∧ split bytes = split before ++ segment :: a ∧
      ∃ part ∈ b, isPart part = true := by
  -- the induction is that of `bytesBehind`: all but the longest lack a part
  induction segments generalizing before with
  | nil => simp [bytesBehind] at h
  | cons segment rest ih =>
    obtain ⟨hsegment, hrest⟩ := List.forall_mem_cons.1 hsegments
    have hsplit : split (before ++ separator :: segment) = split before ++ [segment] := by
      rw [split_append, split_of_notMem hsegment]
    rw [bytesBehind] at h
    cases hbehind : bytesBehind (before ++ separator :: segment) rest with
    | nil =>
      rw [hbehind] at h
      split at h <;> simp at h
    | cons longest others =>
      rw [hbehind, List.cons_append, List.tail_cons, List.mem_append] at h
      rcases h with h | h
      · obtain ⟨segment', a, b, rfl, hbytes, hpart⟩ := ih hrest (by rwa [hbehind])
        exact ⟨segment, segment' :: a, b, rfl, by rw [hbytes, hsplit]; simp, hpart⟩
      · have hbytes : bytes = before ++ separator :: segment := by
          split at h
          · exact List.mem_singleton.1 h
          · cases h
        obtain ⟨part, hmem, hpart⟩ := exists_isPart (hbehind ▸ List.cons_ne_nil longest others)
        exact ⟨segment, [], rest, rfl, hbytes ▸ hsplit, part, hmem, hpart⟩

/-- A path that goes on behind another one: both start at the same location, and it has more parts. -/
structure Below (p q : Path) : Prop where
  origin (workDir : Location) : q.origin workDir = p.origin workDir
  parts : ∃ names, names ≠ [] ∧ p.parts = q.parts ++ names

theorem below_of_split {q : Path} {a b : List FileName} (hp : split p.bytes = a ++ b)
    (hq : (split q.bytes).filter isPart = a.filter isPart) (hpart : ∃ part ∈ b, isPart part = true)
    (habsolute : q.isAbsolute = true ↔ p.isAbsolute = true) : p.Below q where
  origin workDir := by simp only [Path.origin, habsolute]
  parts := by
    obtain ⟨part, hmem, hpart⟩ := hpart
    refine ⟨b.filter isPart, List.ne_nil_of_mem (List.mem_filter.2 ⟨hmem, hpart⟩), ?_⟩
    rw [Path.parts, Path.parts, hp, hq, List.filter_append]

theorem mem_tail_stages {q : Path} {stages : List (List UInt8)} {first : List UInt8}
    (h : q ∈ ((stages ++ [first]).map Path.mk).tail) : q.bytes ∈ stages.tail ∨ q.bytes = first ∧ stages ≠ [] := by
  cases stages with
  | nil => simp at h
  | cons longest stages =>
    obtain ⟨bytes, hbytes, rfl⟩ := List.mem_map.1 (by simpa using h : q ∈ (stages ++ [first]).map Path.mk)
    rcases List.mem_append.1 hbytes with hbytes | hbytes
    · exact .inl hbytes
    · exact .inr ⟨List.mem_singleton.1 hbytes, List.cons_ne_nil _ _⟩

theorem below_of_mem_stages {q : Path} (h : q ∈ p.stages.tail) : p.Below q := by
  have hsegments : ∀ segment ∈ split p.bytes, separator ∉ segment := fun _ => notMem_of_mem_split
  unfold stages at h
  split at h
  · cases h
  · cases h
  · -- an absolute path: below the root, or the root itself
    rename_i rest hne hsplit
    rw [hsplit] at hsegments
    obtain ⟨-, hrest⟩ := List.forall_mem_cons.1 hsegments
    rcases mem_tail_stages h with h | ⟨hroot, hbehind⟩
    · obtain ⟨segment, a, b, rfl, hq, hpart⟩ := split_of_mem_bytesBehind hrest h
      refine below_of_split (a := [] :: segment :: a) hsplit (by rw [hq]; rfl) hpart ?_
      rw [isAbsolute_iff, isAbsolute_iff, hq, hsplit]
      simp [split]
    · refine below_of_split (a := [[]]) hsplit (by rw [hroot]; rfl) (exists_isPart hbehind) ?_
      rw [isAbsolute_iff, isAbsolute_iff, hroot, hsplit]
      cases rest with
      | nil => exact absurd rfl hne
      | cons segment rest => simp [split]
  · -- a relative path: below its first segment, or this segment itself
    rename_i first rest hempty hroot hsplit
    rw [hsplit] at hsegments
    obtain ⟨hfirst, hrest⟩ := List.forall_mem_cons.1 hsegments
    rcases mem_tail_stages h with h | ⟨hbase, hbehind⟩
    · obtain ⟨segment, a, b, rfl, hq, hpart⟩ := split_of_mem_bytesBehind hrest h
      rw [split_of_notMem hfirst] at hq
      refine below_of_split (a := first :: segment :: a) hsplit (by rw [hq]; rfl) hpart ?_
      rw [isAbsolute_iff, isAbsolute_iff, hq, hsplit]
      simp
    · refine below_of_split (a := [first]) hsplit ?_ (exists_isPart hbehind) ?_
      · rw [hbase, split_of_notMem hfirst]
      rw [isAbsolute_iff, isAbsolute_iff, hbase, hsplit, split_of_notMem hfirst]
      simp [show first ≠ [] from hroot]

theorem below_of_mem_above {q : Path} (h : q ∈ p.above) : p.Below q := by
  unfold above at h
  split at h
  · rename_i dir hparent
    split at h
    · cases h
    rename_i hdir
    have hbelow : p.Below dir := by
      unfold parent? at hparent
      split at hparent
      · cases hparent
      · split at hparent
        · cases hparent
        · cases hparent
          exact absurd rfl hdir
      · rename_i hstages
        cases hparent
        exact below_of_mem_stages (by simp [hstages])
    rcases List.mem_cons.1 h with rfl | h
    · exact hbelow
    · obtain ⟨horigin, names, -, hnames⟩ := below_of_mem_stages h
      obtain ⟨horigin', names', hne, hnames'⟩ := hbelow
      refine ⟨fun w => (horigin w).trans (horigin' w), names ++ names', by simp [hne], ?_⟩
      rw [hnames', hnames, List.append_assoc]
  · cases h

/-! ## Names -/

theorem getLast?_segments_join (dir : Path) {name : FileName} (hname : name ≠ []) (hseparator : separator ∉ name) :
    (dir.join ⟨name⟩).segments.getLast? = some name := by
  have hbehind : ∀ {p : Path} (before : List UInt8), p.bytes = before ++ separator :: name →
      p.segments.getLast? = some name := by
    intro p before heq
    rw [segments, heq, split_append, split_of_notMem hseparator]
    simp [hname]
  -- the name stands alone, behind a separator of the path, or behind one that the join adds
  unfold join
  split
  · simp [segments, split_of_notMem hseparator, hname]
  split
  · rename_i hends
    obtain ⟨before, hbefore⟩ := List.getLast?_eq_some_iff.1 (by simpa [isEnded] using hends)
    exact hbehind before (by simp [hbefore])
  · exact hbehind dir.bytes rfl

/-- The file in which the next content of a path is prepared has its name with an ending. -/
theorem temporary?_eq_some {prepared : Path} (h : FileSystem.temporary? p = some prepared) :
    ∃ name, p.fileName? = some name ∧ prepared.segments.getLast? = some (.ofText (name.display ++ ".tmp")) := by
  unfold FileSystem.temporary? at h
  rw [Option.map_eq_some_iff] at h
  obtain ⟨name, hname, rfl⟩ := h
  refine ⟨name, hname, ?_⟩
  have hseparator : separator ∉ FileName.ofText (name.display ++ ".tmp") := by
    obtain ⟨above, hparts, -⟩ := parts_of_fileName hname
    have hmem : name ∈ p.parts := by simp [hparts]
    have hslash := FileName.slash_notMem_display (notMem_of_mem_split (List.mem_filter.1 hmem).1)
    rw [FileName.separator_mem_ofText]
    simpa using hslash
  have hempty : FileName.ofText (name.display ++ ".tmp") ≠ [] := by
    intro hempty
    have hdisplay := congrArg FileName.display hempty
    rw [FileName.display_ofText] at hdisplay
    have hlength := congrArg String.length hdisplay
    rw [String.length_append] at hlength
    exact absurd hlength (by rw [show (FileName.display []).length = 0 from rfl]; simp)
  unfold withFileName
  split
  · exact getLast?_segments_join _ hempty hseparator
  · exact getLast?_segments_join p hempty hseparator

end Path

namespace FileSystem

variable {fs fs' : FileSystem} {p : Path} {l dir dir' : Location} {segment : FileName} {segments : List FileName}

/-! ## Walks -/

theorem enter_eq (h : fs.enter dir segment = .ok dir') :
    dir' = ([segment].filter (· ≠ .here)).foldl Path.follow dir := by
  unfold enter at h
  split at h
  · rename_i hdot
    cases h
    simp [hdot]
  · rename_i hdot
    split at h
    · rename_i hup
      cases h
      simp [hup, Path.follow]
    · rename_i hup
      split at h
      · cases h
      split at h <;> cases h
      simp [hdot, hup, Path.follow]

theorem enterAll_eq (h : fs.enterAll dir segments = .ok dir') :
    dir' = (segments.filter (· ≠ .here)).foldl Path.follow dir := by
  induction segments generalizing dir with
  | nil =>
    cases h
    rfl
  | cons segment rest ih =>
    rw [enterAll] at h
    split at h
    · rename_i henter
      rw [ih h, enter_eq henter, ← List.foldl_append, ← List.filter_append, List.singleton_append]
    · cases h

/-- A walk, in terms of the segments of its path. -/
theorem walk_eq (fs : FileSystem) (p : Path) : fs.walk p =
    if p.isEmpty then .error .notFound
    else if 0 ∈ p.bytes then .error .invalidInput
    else if pathLimit ≤ p.bytes.length then .error .invalidFilename
    else match fs.enterAll (p.origin fs.workDir) p.segments.dropLast with
      | .ok dir => .ok ⟨dir, p.segments.getLast?, p.isEnded⟩
      | .error e => .error e := rfl

/-- A walk enters all segments but the last one, which it leaves to be looked up, and depends on nothing else. -/
theorem walk_spec {place : Place} (h : fs.walk p = .ok place) :
    fs.enterAll (p.origin fs.workDir) p.segments.dropLast = .ok place.dir ∧ place.last = p.segments.getLast? ∧
      ∀ {fs' : FileSystem}, fs'.workDir = fs.workDir →
        fs'.enterAll (p.origin fs.workDir) p.segments.dropLast = .ok place.dir → fs'.walk p = .ok place := by
  rw [walk_eq] at h
  split at h
  · cases h
  split at h
  · cases h
  split at h
  · cases h
  split at h
  · rename_i henter
    cases h
    refine ⟨henter, rfl, fun {fs'} hdir henter' => ?_⟩
    rw [walk_eq, hdir, if_neg (by assumption), if_neg (by assumption), if_neg (by assumption), henter']
  · cases h

theorem segments_of_last {place : Place} (h : fs.walk p = .ok place) {name : FileName}
    (hname : place.last = some name) :
    p.segments = p.segments.dropLast ++ [name] := by
  obtain ⟨before, hbefore⟩ := List.getLast?_eq_some_iff.1 ((walk_spec h).2.1 ▸ hname)
  rw [hbefore, List.dropLast_concat]

/-- A path that leads somewhere leads to the location that its parts tell. -/
theorem find_eq_target (h : fs.find p = .ok l) : l = p.target fs.workDir := by
  unfold find at h
  split at h
  · cases h
  rename_i place hwalk
  obtain ⟨henter, hlast, -⟩ := walk_spec hwalk
  have hdir := enterAll_eq henter
  rw [Path.target, ← Path.filter_segments]
  split at h
  · rename_i hnone
    cases h
    rw [hnone] at hlast
    rw [hdir, List.getLast?_eq_none_iff.1 hlast.symm]
    rfl
  · rename_i name hname
    rw [segments_of_last hwalk hname, List.filter_append, List.foldl_append, ← hdir]
    split at h
    · rename_i hdot
      cases h
      simp [hdot]
    rename_i hdot
    split at h
    · rename_i hup
      cases h
      simp [hup, Path.follow]
    rename_i hup
    split at h
    · cases h
    split at h
    · cases h
    · cases h
      simp [hdot, hup, Path.follow]
    · split at h <;> cases h
      simp [hdot, hup, Path.follow]

theorem find_fileName {name : FileName} (h : fs.find p = .ok l) (hname : p.fileName? = some name) :
    ∃ dir, l = dir ++ [name] := by
  rw [find_eq_target h]
  exact Path.target_of_fileName hname _

/-- A file that is opened lies where the parts of its path tell. -/
theorem openFile_eq_target {empty : Bool} (h : fs.openFile empty p = .ok (l, fs')) : l = p.target fs.workDir := by
  unfold openFile at h
  split at h
  · cases h
  rename_i place hwalk
  split at h
  · cases h
  rename_i name hname
  simp only at h
  split at h
  · cases h
  rename_i hplain
  simp only [not_or] at hplain
  split at h
  · cases h
  obtain ⟨henter, hlast, -⟩ := walk_spec hwalk
  have htarget : place.dir ++ [name] = p.target fs.workDir := by
    rw [Path.target, ← Path.filter_segments, segments_of_last hwalk hname, List.filter_append, List.foldl_append,
      ← enterAll_eq henter]
    simp [hplain.2.1, hplain.2.2, Path.follow]
  rw [← htarget]
  split at h <;> cases h <;> rfl

theorem openFile_last {empty : Bool} (h : fs.openFile empty p = .ok (l, fs')) :
    ∃ dir name, p.segments.getLast? = some name ∧ l = dir ++ [name] := by
  unfold openFile at h
  split at h
  · cases h
  rename_i place hwalk
  split at h
  · cases h
  rename_i name hlast
  simp only at h
  split at h
  · cases h
  split at h
  · cases h
  rw [(walk_spec hwalk).2.1] at hlast
  split at h <;> cases h <;> exact ⟨place.dir, name, hlast, rfl⟩

end FileSystem

end Fixtures
