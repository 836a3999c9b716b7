/-
What a fixture depends on. A run that succeeds leaves at the path of each kind exactly what the seed and
the options of that kind say, if the paths name different files and the log is another one. So two runs
with one seed and the same options for a kind write the same bytes for it, whatever else they write,
wherever they write it, and whatever was there before.
-/
import Fixtures.Proofs.FileSystem.Stay
import Fixtures.Proofs.Run.Content
import Fixtures.Run.Basic

namespace Fixtures

/-! ## Options of a kind -/

namespace Options

/-- Both options say the same about what the fixture of a kind holds; for rows the end is stated. -/
def AgreeOn (o o' : Options) : Kind → Prop
  | .nested => o.nested.maxDepth = o'.nested.maxDepth ∧ o.nested.keys = o'.nested.keys ∧
      o.nested.shape = o'.nested.shape
  | .array => o.array.count = o'.array.count
  | .ndjson => o.ndjson.count = o'.ndjson.count
  | .csv => o.csv.rows = o'.csv.rows ∧ o.csv.spanDays = o'.csv.spanDays ∧
      ∃ stop, o.csv.stop = some stop ∧ o'.csv.stop = some stop

/-- Options that state the end of the rows agree with themselves, whatever the time. -/
theorem agreeOn_self {o : Options} {stop : DateTime} (k : Kind) (h : o.csv.stop = some stop) : o.AgreeOn o k := by
  cases k with
  | nested => exact ⟨rfl, rfl, rfl⟩
  | array => exact rfl
  | ndjson => exact rfl
  | csv => exact ⟨rfl, rfl, stop, h, h⟩

end Options

/-- The content of a kind is drawn from the options of that kind only. -/
theorem Content.ofSeed_eq {o o' : Options} {k : Kind} (h : o.AgreeOn o' k) (now now' : DateTime) (seed : UInt64) :
    Content.ofSeed o now k seed = Content.ofSeed o' now' k seed := by
  unfold Content.ofSeed Content.draw
  cases k with
  | nested =>
    obtain ⟨hdepth, hkeys, hshape⟩ := h
    simp only [hdepth, hkeys, hshape]
  | array =>
    have hcount : o.array.count = o'.array.count := h
    simp only [hcount]
  | ndjson =>
    have hcount : o.ndjson.count = o'.ndjson.count := h
    simp only [hcount]
  | csv =>
    obtain ⟨hrows, hspan, stop, hstop, hstop'⟩ := h
    simp only [CsvOptions.window?, hrows, hspan, hstop, hstop', Option.getD_some]

/-! ## The log -/

namespace Session

/-- Of the files, what is told to a session changes the log only. -/
structure Told (s s' : Session) : Prop where
  now : s'.now = s.now
  journal : s'.journal = s.journal
  keeps : s.files.KeepsNodes s'.files
  node {l : Location} : s.journal.location ≠ some l → s'.files.node? l = s.files.node? l

theorem Told.refl (s : Session) : Told s s := ⟨rfl, rfl, .refl _, fun _ => rfl⟩

theorem Told.trans {s s' s'' : Session} (h : Told s s') (h' : Told s' s'') : Told s s'' where
  now := h'.now.trans h.now
  journal := h'.journal.trans h.journal
  keeps := h.keeps.trans h'.keeps
  node hl := by rw [h'.node (by rwa [h.journal]), h.node hl]

/-- An event is added to the log, as far as that can be done, or not told at all. -/
theorem tell_cases (s : Session) (e : Event) : s.tell e = s ∨ ∃ l taken files,
    s.journal.location = some l ∧ s.files.Appended l taken files ∧ s.tell e = { s with files } := by
  unfold tell
  split
  · exact .inl rfl
  rename_i l hlog
  split
  · rcases hwrite : Sink.writeAll (OpenFile.mk s.files l) (String.ofList (e.line s.now)).toUTF8 with ⟨outcome, f⟩
    obtain ⟨taken, -, -, happended, -⟩ := OpenFile.appended_of_writeAll hwrite
    exact .inr ⟨l, taken, f.files, hlog, happended, rfl⟩
  · exact .inl rfl

theorem told_tell (s : Session) (e : Event) : Told s (s.tell e) := by
  rcases s.tell_cases e with heq | ⟨l, taken, files, hlog, happended, heq⟩ <;> rw [heq]
  · exact .refl s
  · exact ⟨rfl, rfl, happended.keepsNodes, fun hl => happended.other fun h => hl (h ▸ hlog)⟩

end Session

/-! ## Runs that succeed -/

namespace Run

variable {o : Options} {seed : UInt64} {k : Kind} {kinds : List Kind} {s s' s'' : Session}

/-- What the fixtures of some kinds leave when they are written. -/
structure Written (o : Options) (seed : UInt64) (kinds : List Kind) (s s' : Session) : Prop where
  now : s'.now = s.now
  journal : s'.journal = s.journal
  keeps : s.files.KeepsNodes s'.files
  /-- A node that is neither the log nor at one of the paths is as it was. -/
  spares {l : Location} {node : FileNode} : s.files.node? l = some node → s.journal.location ≠ some l →
    (∀ j ∈ kinds, s'.files.find (o.outputPath j) ≠ .ok l) → s'.files.node? l = some node
  /-- A file that is neither the log nor at the path of another kind holds the content of its own kind. -/
  content {k : Kind} : k ∈ kinds → ∃ content l node, Content.ofSeed o s.now k seed = .ok content ∧
    s'.files.find (o.outputPath k) = .ok l ∧ s'.files.node? l = some node ∧
      (s.journal.location ≠ some l → (∀ j ∈ kinds, j ≠ k → s'.files.find (o.outputPath j) ≠ .ok l) →
        s'.files.read (o.outputPath k) = .ok content.bytes)

theorem Written.nil (o : Options) (seed : UInt64) (s : Session) : Written o seed [] s s where
  now := rfl
  journal := rfl
  keeps := .refl _
  spares h _ _ := h
  content h := absurd h List.not_mem_nil

/-- A fixture to whose file no later one was written is read at its path. -/
theorem Written.read_of_no_later (h : Written o seed [k] s s') (h' : Written o seed kinds s' s'')
    (hlog : ∀ l, s''.files.find (o.outputPath k) = .ok l → s.journal.location ≠ some l)
    (hlater : ∀ j ∈ kinds, s''.files.find (o.outputPath j) ≠ s''.files.find (o.outputPath k)) :
    ∃ content, Content.ofSeed o s.now k seed = .ok content ∧ s''.files.read (o.outputPath k) = .ok content.bytes := by
  obtain ⟨content, l, node, hcontent, hfind, hnode, hread⟩ := h.content List.mem_cons_self
  have hfind' := FileSystem.find_of_keepsNodes h'.keeps hfind hnode
  have hread' := hread (hlog l hfind') fun j hj hne => absurd (List.mem_singleton.1 hj) hne
  refine ⟨content, hcontent, FileSystem.read_of_keepsNodes h'.keeps hread' fun {l' node'} hl' hnode' => ?_⟩
  refine h'.spares hnode' (by rw [h.journal]; exact hlog l' hl') fun j hj => ?_
  rw [← hl']
  exact hlater j hj

/-- The nodes that the fixtures after the first one spare include the file of the first one. -/
theorem Written.cons (h : Written o seed [k] s s') (h' : Written o seed kinds s' s'') (hk : k ∉ kinds) :
    Written o seed (k :: kinds) s s'' where
  now := h'.now.trans h.now
  journal := h'.journal.trans h.journal
  keeps := h.keeps.trans h'.keeps
  spares {l node} hnode hlog hpaths := by
    obtain ⟨_, _, _, _, hfind, hnode', -⟩ := h.content List.mem_cons_self
    have hnode₁ : s'.files.node? l = some node := by
      refine h.spares hnode hlog fun j hj hjl => ?_
      rw [List.mem_singleton.1 hj, hfind] at hjl
      cases hjl
      exact hpaths k List.mem_cons_self (FileSystem.find_of_keepsNodes h'.keeps hfind hnode')
    exact h'.spares hnode₁ (by rwa [h.journal]) fun j hj => hpaths j (List.mem_cons_of_mem k hj)
  content {k'} hk' := by
    rcases List.mem_cons.1 hk' with rfl | hk'
    · obtain ⟨content, l, node, hcontent, hfind, hnode, -⟩ := h.content List.mem_cons_self
      obtain ⟨node', hnode', -⟩ := h'.keeps.node hnode
      have hfind' := FileSystem.find_of_keepsNodes h'.keeps hfind hnode
      refine ⟨content, l, node', hcontent, hfind', hnode', ?_⟩
      intro hlog hpaths
      have hlog' : ∀ l', s''.files.find (o.outputPath k') = .ok l' → s.journal.location ≠ some l' := by
        rw [hfind']
        rintro l' ⟨⟩
        exact hlog
      have hlater : ∀ j ∈ kinds, s''.files.find (o.outputPath j) ≠ s''.files.find (o.outputPath k') := by
        intro j hj
        rw [hfind']
        exact hpaths j (List.mem_cons_of_mem k' hj) fun heq => hk (heq ▸ hj)
      obtain ⟨content', hcontent', hread⟩ := h.read_of_no_later h' hlog' hlater
      rw [hcontent] at hcontent'
      cases hcontent'
      exact hread
    · obtain ⟨content, l, node, hcontent, hfind, hnode, hread⟩ := h'.content hk'
      rw [h.now] at hcontent
      refine ⟨content, l, node, hcontent, hfind, hnode, fun hlog hpaths => ?_⟩
      exact hread (by rwa [h.journal]) fun j hj hne => hpaths j (List.mem_cons_of_mem k hj) hne

/-- A fixture that succeeds: what is told before and after the content is written changes the log only. -/
theorem fixture_eq_ok {r : Report} (h : fixture o seed k s = (.ok r, s')) : ∃ content s₁ files,
    s.Told s₁ ∧ Content.ofSeed o s.now k seed = .ok content ∧
      content.write (o.outputPath k) s₁.files = (.ok r.bytesWritten, files) ∧ Session.Told { s₁ with files } s' ∧
      r.kind = k ∧ r.path = o.outputPath k ∧ r.seed = seed := by
  unfold fixture at h
  simp only at h
  have htold := (s.told_tell (.generating k seed (o.outputPath k))).trans (Session.told_tell _ (o.preparation k))
  generalize (s.tell (.generating k seed (o.outputPath k))).tell (o.preparation k) = s₁ at h htold
  split at h
  · cases h
  rename_i content hcontent
  rw [htold.now] at hcontent
  split at h
  · cases h
  rename_i bytes files hwrite
  obtain ⟨hr, rfl⟩ := Prod.mk.inj h
  cases hr
  exact ⟨content, s₁, files, htold, hcontent, hwrite, Session.told_tell _ _, rfl, rfl, rfl⟩

theorem fixtures_cons {rs : List Report} (h : fixtures o seed (k :: kinds) s = (.ok rs, s')) : ∃ r s₁ rs',
    fixture o seed k s = (.ok r, s₁) ∧ fixtures o seed kinds s₁ = (.ok rs', s') ∧ rs = r :: rs' := by
  unfold fixtures at h
  split at h
  · cases h
  rename_i r s₁ hfirst
  split at h
  · cases h
  rename_i rs' s₂ hrest
  cases h
  exact ⟨r, s₁, rs', hfirst, hrest, rfl⟩

theorem written_fixture {r : Report} (h : fixture o seed k s = (.ok r, s')) : Written o seed [k] s s' := by
  obtain ⟨content, s₁, files, hfirst, hcontent, hwrite, hlast, -⟩ := fixture_eq_ok h
  have hstores := content.stores_write (o.outputPath k) s₁.files
  rw [hwrite] at hstores
  obtain ⟨hread, -, honly⟩ := hstores
  obtain ⟨l, node, hfind, hnode, -⟩ := FileSystem.read_eq_ok hread
  obtain ⟨node', hnode', -⟩ := hlast.keeps.node hnode
  have hfind' := FileSystem.find_of_keepsNodes hlast.keeps hfind hnode
  exact {
    now := hlast.now.trans hfirst.now
    journal := hlast.journal.trans hfirst.journal
    keeps := hfirst.keeps.trans (honly.keepsNodes.trans hlast.keeps)
    spares := fun {l' node''} hbefore hlog hpaths => by
      rw [hlast.node (by rw [hfirst.journal]; exact hlog)]
      refine honly.node_of_ne (by rw [hfirst.node hlog]; exact hbefore) fun heq => ?_
      rw [hfind] at heq
      cases heq
      exact hpaths k List.mem_cons_self hfind'
    content := fun {k'} hk' => by
      obtain rfl := List.mem_singleton.1 hk'
      refine ⟨content, l, node', hcontent, hfind', hnode', fun hlog _ => ?_⟩
      refine FileSystem.read_of_keepsNodes hlast.keeps hread fun heq hbefore => ?_
      rw [hfind'] at heq
      cases heq
      rw [hlast.node (by rw [hfirst.journal]; exact hlog)]
      exact hbefore }

theorem written_fixtures {rs : List Report} (hkinds : kinds.Nodup) (h : fixtures o seed kinds s = (.ok rs, s')) :
    Written o seed kinds s s' := by
  induction kinds generalizing s rs with
  | nil =>
    cases h
    exact .nil o seed _
  | cons k rest ih =>
    obtain ⟨hk, hrest⟩ := List.nodup_cons.1 hkinds
    obtain ⟨r, s₁, rs', hfirst, hothers, -⟩ := fixtures_cons h
    exact (written_fixture hfirst).cons (ih hrest hothers) hk

/-- What is told before the fixtures of a run does not count. -/
theorem Written.after_told (htold : s.Told s') (h : Written o seed kinds s' s'') : Written o seed kinds s s'' where
  now := h.now.trans htold.now
  journal := h.journal.trans htold.journal
  keeps := htold.keeps.trans h.keeps
  spares hnode hlog := h.spares (by rwa [htold.node hlog]) (by rwa [htold.journal])
  content hk := by
    obtain ⟨content, l, node, hcontent, hfind, hnode, hread⟩ := h.content hk
    rw [htold.now] at hcontent
    rw [htold.journal] at hread
    exact ⟨content, l, node, hcontent, hfind, hnode, hread⟩

/-- A run of a kind, or one of all kinds whose paths lead to different files, that succeeds. -/
inductive Completes (o : Options) (k : Kind) (s s' : Session) : Prop where
  | one {r : Report} (h : one o k s = (.ok r, s'))
  | all {rs : List Report} (h : all o s = (.ok rs, s'))
      (hpaths : ∀ i j, i ≠ j → s'.files.find (o.outputPath i) ≠ s'.files.find (o.outputPath j))

/-- A run that succeeds has passed its check. -/
theorem Completes.error? (h : Completes o k s s') : o.error? s.now = none := by
  cases h with
  | one h =>
    unfold Run.one at h
    split at h
    · cases h
    · assumption
  | all h =>
    unfold Run.all at h
    split at h
    · cases h
    · assumption

/-- A run that succeeds leaves the content of its seed at the path of a kind. -/
theorem Completes.read_runSeed (h : Completes o k s s')
    (hlog : ∀ l, s'.files.find (o.outputPath k) = .ok l → s.journal.location ≠ some l) :
    ∃ content, Content.ofSeed o s.now k (o.runSeed s) = .ok content ∧
      s'.files.read (o.outputPath k) = .ok content.bytes := by
  have hcheck := h.error?
  cases h with
  | one h =>
    unfold Run.one at h
    rw [hcheck] at h
    obtain ⟨content, l, -, hcontent, hfind, -, hread⟩ := (written_fixture h).content List.mem_cons_self
    exact ⟨content, hcontent, hread (hlog l hfind) fun j hj hne => absurd (List.mem_singleton.1 hj) hne⟩
  | all h hpaths =>
    unfold Run.all at h
    rw [hcheck] at h
    have hwritten := (written_fixtures (by decide) h).after_told (Session.told_tell s _)
    obtain ⟨content, l, -, hcontent, hfind, -, hread⟩ := hwritten.content k.mem_all
    exact ⟨content, hcontent, hread (hlog l hfind) fun j _ hne heq => hpaths j k hne (heq.trans hfind.symm)⟩

theorem Completes.read (h : Completes o k s s') (hseed : o.seed = some seed)
    (hlog : ∀ l, s'.files.find (o.outputPath k) = .ok l → s.journal.location ≠ some l) :
    ∃ content, Content.ofSeed o s.now k seed = .ok content ∧ s'.files.read (o.outputPath k) = .ok content.bytes := by
  have hrun : o.runSeed s = seed := by rw [Options.runSeed, hseed, Option.getD_some]
  rw [← hrun]
  exact h.read_runSeed hlog

/-- Two runs that succeed with one seed leave the same bytes for a kind on whose options they agree, each at
its own path: whether they run the kind or all kinds, on whatever files, at whatever time, and whatever their
other options are. A log is not to be the file itself. -/
theorem same_bytes_of_agreeOn {o₁ o₂ : Options} {s₁ s₁' s₂ s₂' : Session} (hseed₁ : o₁.seed = some seed)
    (hseed₂ : o₂.seed = some seed) (hagree : o₁.AgreeOn o₂ k) (h₁ : Completes o₁ k s₁ s₁') (h₂ : Completes o₂ k s₂ s₂')
    (hlog₁ : ∀ l, s₁'.files.find (o₁.outputPath k) = .ok l → s₁.journal.location ≠ some l)
    (hlog₂ : ∀ l, s₂'.files.find (o₂.outputPath k) = .ok l → s₂.journal.location ≠ some l) :
    ∃ bytes, s₁'.files.read (o₁.outputPath k) = .ok bytes ∧ s₂'.files.read (o₂.outputPath k) = .ok bytes := by
  obtain ⟨content₁, hcontent₁, hread₁⟩ := h₁.read hseed₁ hlog₁
  obtain ⟨content₂, hcontent₂, hread₂⟩ := h₂.read hseed₂ hlog₂
  -- both contents are drawn from the options on which they agree
  rw [Content.ofSeed_eq hagree s₁.now s₂.now seed, hcontent₂] at hcontent₁
  cases hcontent₁
  exact ⟨_, hread₁, hread₂⟩

/-- One person as the only fixture of a run, and among the fixtures of a run over other files. -/
theorem same_bytes_of_agreeOn_person :
    let csv : CsvOptions := { rows := 0, stop := some (.startOf ⟨daysBeforeYear 2025, by decide, by decide⟩) }
    let o₁ : Options := { seed := some 42, ndjson := ⟨1, some (.ofText "person.ndjson")⟩, csv }
    let o₂ : Options := {
      seed := some 42, outDir := .ofText "out", nested := { keys := 0 }, array := ⟨0, none⟩, ndjson := ⟨1, none⟩, csv }
    let s₁ : Session := {
      files := { entries := [], workDir := [] }, now := .first, freshSeed := 0, durations := fun _ => 0 }
    let s₂ : Session := {
      s₁ with files := {
        entries := [(.ofTexts ["out"], .directory), (.ofTexts ["out", "random_data.ndjson"], .file "x".toUTF8)]
        workDir := [] } }
    Completes o₁ .ndjson s₁ (one o₁ .ndjson s₁).2 ∧ Completes o₂ .ndjson s₂ (all o₂ s₂).2 ∧
      ∃ bytes, (one o₁ .ndjson s₁).2.files.read (o₁.outputPath .ndjson) = .ok bytes ∧
        (all o₂ s₂).2.files.read (o₂.outputPath .ndjson) = .ok bytes := by
  intro csv o₁ o₂ s₁ s₂
  have h₁ : Completes o₁ .ndjson s₁ (one o₁ .ndjson s₁).2 := by
    have hok : (one o₁ .ndjson s₁).1.toBool = true := by decide +kernel
    rcases hrun : one o₁ .ndjson s₁ with ⟨_ | r, s'⟩
    · rw [hrun] at hok
      cases hok
    · exact .one hrun
  have h₂ : Completes o₂ .ndjson s₂ (all o₂ s₂).2 := by
    have hok : (all o₂ s₂).1.toBool = true ∧ ∀ i ∈ Kind.all, ∀ j ∈ Kind.all, i ≠ j →
        ((all o₂ s₂).2.files.find (o₂.outputPath i)).toOption ≠
          ((all o₂ s₂).2.files.find (o₂.outputPath j)).toOption := by
      decide +kernel
    rcases hrun : all o₂ s₂ with ⟨_ | rs, s'⟩ <;> rw [hrun] at hok
    · cases hok.1
    · exact .all hrun fun i j hne heq => hok.2 i i.mem_all j j.mem_all hne (congrArg Except.toOption heq)
  refine ⟨h₁, h₂, same_bytes_of_agreeOn rfl rfl rfl h₁ h₂ (fun _ _ h => ?_) (fun _ _ h => ?_)⟩
  · cases h
  · cases h

end Run

end Fixtures
