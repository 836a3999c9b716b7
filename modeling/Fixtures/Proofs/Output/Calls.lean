/-
Sequences of calls on a counter. Whatever the sink behind it does, offer by offer, after every call the
counter shows how many bytes the sink has accepted, and the sink has accepted, call after call, a first part
of what each call handed over: what the call reports, all of it after a success of `writeAll`, and not all of
it after a failure.

A single call is read off the laws of the sink; a sequence of calls follows by induction, the parts of the
calls one behind the other.
-/
import Fixtures.Output.Scripted
import Fixtures.Proofs.Output.Layers

namespace Fixtures

open LawfulSink

/-! ## Sinks of which the accepted bytes are seen -/

/-- A sink that shows the bytes which it has accepted. -/
class OpenSink (ω : Type) [Sink ω] extends LawfulSink ω where
  accepted : ω → ByteArray
  accepted_of_took {s s' : ω} {data : ByteArray} : Took s data s' → accepted s' = accepted s ++ data

/-- A sink that is interrupted no more often than its patience says. -/
class PatientSink (ω : Type) [Sink ω] : Prop where
  write_ok {s s' : ω} {data : ByteArray} {n : Nat} : Sink.write s data = (.ok n, s') →
    Sink.patience s' ≤ Sink.patience s
  write_interrupted {s s' : ω} {data : ByteArray} : Sink.write s data = (.error .interrupted, s') →
    Sink.patience s' < Sink.patience s

namespace Scripted

variable {s s' : Scripted} {data : ByteArray} {n : Nat}

theorem accept_spec {limit : Nat} (h : s.accept limit data = (.ok n, s')) :
    n ≤ data.size ∧ s'.accepted = s.accepted ++ data.extract 0 n ∧ s'.plan = s.plan := by
  cases h
  rw [ByteArray.size_extract, Nat.min_eq_left (Nat.min_le_right _ _), Nat.sub_zero]
  exact ⟨Nat.min_le_right _ _, rfl, rfl⟩

theorem write_ok (h : Sink.write s data = (.ok n, s')) :
    n ≤ data.size ∧ s'.accepted = s.accepted ++ data.extract 0 n ∧ s'.plan = s.plan.tail := by
  simp only [Sink.write] at h
  split at h
  · rename_i hplan
    obtain ⟨hn, haccepted, hrest⟩ := accept_spec h
    exact ⟨hn, haccepted, by rw [hrest, hplan]; rfl⟩
  · rename_i hplan
    obtain ⟨hn, haccepted, hrest⟩ := accept_spec h
    exact ⟨hn, haccepted, by rw [hrest, hplan]; rfl⟩
  · cases h
  · cases h

theorem write_error {e : FileError} (h : Sink.write s data = (.error e, s')) :
    s'.accepted = s.accepted ∧ s'.plan.length < s.plan.length := by
  simp only [Sink.write] at h
  split at h
  · cases h
  · cases h
  · rename_i hplan
    cases h
    rw [hplan]
    exact ⟨rfl, Nat.lt_succ_self _⟩
  · rename_i hplan
    cases h
    rw [hplan]
    exact ⟨rfl, Nat.lt_succ_self _⟩

instance : OpenSink Scripted where
  Took s data s' := s'.accepted = s.accepted ++ data
  nothing s := ByteArray.append_empty.symm
  more h h' := by rw [h', h, ByteArray.append_assoc]
  write_ok h := ⟨(write_ok h).1, (write_ok h).2.1⟩
  write_error h := by rw [(write_error h).1, ByteArray.append_empty]
  flush h := by cases h; exact ByteArray.append_empty.symm
  accepted := Scripted.accepted
  accepted_of_took h := h

instance : PatientSink Scripted where
  write_ok {s s' _ _} h := by
    show s'.plan.length ≤ s.plan.length
    rw [(write_ok h).2.2, List.length_tail]
    exact Nat.sub_le _ _
  write_interrupted h := (write_error h).2

end Scripted

instance {ω : Type} [Sink ω] [PatientSink ω] : PatientSink (Counting ω) where
  write_ok {c c' data n} h := by
    simp only [Sink.write] at h
    split at h <;> cases h
    rename_i inner hwrite
    show Sink.patience inner ≤ Sink.patience c.inner
    exact PatientSink.write_ok hwrite
  write_interrupted {c c' data} h := by
    simp only [Sink.write] at h
    split at h <;> cases h
    rename_i inner hwrite
    show Sink.patience inner < Sink.patience c.inner
    exact PatientSink.write_interrupted hwrite

namespace Sink

variable {ω : Type} [Sink ω]

/-! ## Failures -/

/-- A failure leaves something, and it is no interruption as long as there is an offer for every byte and for
every interruption. -/
theorem drainWithin_error [PatientSink ω] : ∀ (fuel : Nat) {s s' : ω} {data left : ByteArray} {e : FileError},
    drainWithin fuel s data = (.error e, left, s') →
      left.size ≠ 0 ∧ (data.size + patience s ≤ fuel → e ≠ .interrupted)
  | 0, s, s', data, left, e, h => by
    simp only [drainWithin, Prod.mk.injEq] at h
    obtain ⟨herror, rfl, rfl⟩ := h
    split at herror
    · cases herror
    · exact ⟨‹_›, fun hfuel => by omega⟩
  | fuel + 1, s, s', data, left, e, h => by
    rw [drainWithin] at h
    split at h
    · cases h
    · rename_i hdata
      split at h
      · cases h
        exact ⟨hdata, fun _ hinterrupted => by cases hinterrupted⟩
      · -- some bytes are taken, and the rest is shorter
        rename_i n sink hwrite
        have hpatience := PatientSink.write_ok hwrite
        obtain ⟨hleft, herror⟩ := drainWithin_error fuel h
        refine ⟨hleft, fun hfuel => herror ?_⟩
        rw [ByteArray.size_extract]
        omega
      · -- nothing is taken, and there is less patience left
        rename_i sink hwrite
        have hpatience := PatientSink.write_interrupted hwrite
        obtain ⟨hleft, herror⟩ := drainWithin_error fuel h
        exact ⟨hleft, fun hfuel => herror (by omega)⟩
      · rename_i hother _
        cases h
        exact ⟨hdata, fun _ hinterrupted => by subst hinterrupted; simp_all⟩

/-! ## Calls -/

/-- A call on a sink. -/
inductive Call where
  | write (data : ByteArray)
  | writeAll (data : ByteArray)
  | flush

namespace Call

/-- Makes a call; gives how many bytes it reports to be taken. -/
def make : Call → ω → Except FileError Nat × ω
  | write data, s => Sink.write s data
  | writeAll data, s => ((Sink.writeAll s data).1.map fun _ => data.size, (Sink.writeAll s data).2)
  | flush, s => ((Sink.flush s).1.map fun _ => 0, (Sink.flush s).2)

/-- Makes calls one after the other; gives what each one reports, with the sink after it. -/
def makeAll : List Call → ω → List (Except FileError Nat × ω)
  | [], _ => []
  | call :: calls, s => call.make s :: makeAll calls (call.make s).2

/-- A part of the bytes that a call hands over may be what is taken of them, by the way in which the call
ends. -/
inductive Takes : Call → Except FileError Nat → ByteArray → Prop
  /-- The number that is reported counts the bytes from the first one on. -/
  | written {data : ByteArray} {n : Nat} : n ≤ data.size → Takes (write data) (.ok n) (data.extract 0 n)
  | refused {data : ByteArray} {e : FileError} : Takes (write data) (.error e) .empty
  | whole {data : ByteArray} : Takes (writeAll data) (.ok data.size) data
  /-- Something is left, and it was not an interruption that ended the call. -/
  | broken {taken left : ByteArray} {e : FileError} : left.size ≠ 0 → e ≠ .interrupted →
      Takes (writeAll (taken ++ left)) (.error e) taken
  | flushed {outcome : Except FileError Nat} : Takes flush outcome .empty

variable [LawfulSink ω] [PatientSink ω]

theorem make_spec (call : Call) (s : ω) :
    ∃ taken, Takes call (call.make s).1 taken ∧ Took s taken (call.make s).2 := by
  cases call with
  | write data =>
    rcases hwrite : Sink.write s data with ⟨e | n, s'⟩ <;> simp only [make, hwrite]
    · exact ⟨.empty, .refused, LawfulSink.write_error hwrite⟩
    · obtain ⟨hn, htook⟩ := LawfulSink.write_ok hwrite
      exact ⟨_, .written hn, htook⟩
  | writeAll data =>
    rcases hdrain : drain s data with ⟨e | _, left, s'⟩ <;> simp only [make, Sink.writeAll, hdrain]
    · obtain ⟨taken, rfl, htook, -⟩ := drain_spec hdrain
      obtain ⟨hleft, herror⟩ := drainWithin_error _ hdrain
      exact ⟨taken, .broken hleft (herror (Nat.le_refl _)), htook⟩
    · obtain ⟨taken, rfl, htook, hok⟩ := drain_spec hdrain
      rw [hok rfl, ByteArray.append_empty]
      exact ⟨taken, .whole, htook⟩
  | flush =>
    rcases hflush : Sink.flush s with ⟨outcome, s'⟩
    simp only [make, hflush]
    exact ⟨.empty, .flushed, LawfulSink.flush hflush⟩

/-- After every one of some calls the sink has taken the parts of the calls up to it, in order. -/
theorem makeAll_spec (calls : List Call) (s : ω) :
    ∃ taken : List ByteArray, taken.length = calls.length ∧
      ∀ i call, calls[i]? = some call → ∃ outcome s' part, (makeAll calls s)[i]? = some (outcome, s') ∧
        taken[i]? = some part ∧ Takes call outcome part ∧ Took s (joined (taken.take (i + 1))) s' := by
  induction calls generalizing s with
  | nil => exact ⟨[], rfl, fun i call h => by simp at h⟩
  | cons call calls ih =>
    obtain ⟨part, htakes, htook⟩ := make_spec call s
    obtain ⟨taken, hlength, hcalls⟩ := ih (call.make s).2
    refine ⟨part :: taken, congrArg Nat.succ hlength, ?_⟩
    rintro (_ | i) later hlater
    · cases hlater
      refine ⟨_, _, part, rfl, rfl, htakes, ?_⟩
      show Took s (part ++ .empty) _
      rw [ByteArray.append_empty]
      exact htook
    · obtain ⟨outcome, s', laterPart, hrun, hpart, htakes', htook'⟩ := hcalls i later hlater
      exact ⟨outcome, s', laterPart, hrun, hpart, htakes', more htook htook'⟩

end Call

end Sink

/-! ## Counted bytes -/

namespace Counting

open Sink OpenSink

variable {ω : Type} [Sink ω] [OpenSink ω]

theorem spec_of_took {inner : ω} {data : ByteArray} {c : Counting ω} (h : Took (start inner) data c) :
    accepted c.inner = accepted inner ++ data ∧ c.bytes.toNat = min data.size (UInt64.size - 1) := by
  refine ⟨accepted_of_took h.1, ?_⟩
  rw [h.2, toNat_saturatingAdd]
  show min (0 + _) _ = _
  rw [Nat.zero_add]

/-- After every one of some calls, whether it succeeded or not, the sink behind a new counter has accepted a first
part of the bytes of each call, in order, and the counter shows how many these are, at most the largest number of 64
bits. -/
def Accounts (inner : ω) (calls : List Call) : Prop :=
  ∃ taken : List ByteArray, taken.length = calls.length ∧
    ∀ i call, calls[i]? = some call →
      ∃ outcome c part, (Call.makeAll calls (start inner))[i]? = some (outcome, c) ∧
        taken[i]? = some part ∧ Call.Takes call outcome part ∧
        accepted c.inner = accepted inner ++ joined (taken.take (i + 1)) ∧
        c.bytes.toNat = min (joined (taken.take (i + 1))).size (UInt64.size - 1)

/-- A new counter gives account of every sequence of calls, over any sink that shows what it accepts and is not
interrupted for ever. If all chunks of a sequence are written, the sink has accepted the chunks one behind the other. -/
theorem counts_accepted [PatientSink ω] (inner : ω) :
    (∀ calls : List Call, Accounts inner calls) ∧
    ∀ (chunks : List ByteArray) (c : Counting ω), writeChunks (start inner) chunks = (.ok (), c) →
      accepted c.inner = accepted inner ++ joined chunks ∧
      c.bytes.toNat = min (joined chunks).size (UInt64.size - 1) := by
  refine ⟨fun calls => ?_, fun chunks c hwrites => ?_⟩
  · obtain ⟨taken, hlength, hcalls⟩ := Call.makeAll_spec calls (start inner)
    refine ⟨taken, hlength, fun i call hcall => ?_⟩
    obtain ⟨outcome, c, part, hrun, hpart, htakes, htook⟩ := hcalls i call hcall
    exact ⟨outcome, c, part, hrun, hpart, htakes, spec_of_took htook⟩
  · have hwrote := wrote_writeChunks (start inner) chunks
    rw [hwrites] at hwrote
    exact spec_of_took hwrote

/-- A sink that is interrupted, takes less than it is offered, and then nothing for good; and one that takes all in
the end. -/
theorem counts_accepted_short :
    let failing : Scripted := ⟨[.interrupt, .accept 2, .interrupt, .accept 1, .full], true, "ab".toUTF8⟩
    let lasting : Scripted := ⟨[.interrupt, .accept 2, .interrupt, .accept 1], false, "ab".toUTF8⟩
    Accounts failing [.writeAll "cd".toUTF8, .write "ef".toUTF8, .flush, .writeAll "gh".toUTF8, .write "i".toUTF8] ∧
      ∃ c, writeChunks (start lasting) ["cde".toUTF8, "fgh".toUTF8] = (.ok (), c) ∧
        accepted c.inner = "abcdefgh".toUTF8 ∧ c.bytes.toNat = 6 := by
  intro failing lasting
  have hwrites : writeChunks (start lasting) ["cde".toUTF8, "fgh".toUTF8] =
      (.ok (), (writeChunks (start lasting) ["cde".toUTF8, "fgh".toUTF8]).2) := by
    refine Prod.ext ?_ rfl
    rfl
  obtain ⟨haccepted, hbytes⟩ := (counts_accepted lasting).2 _ _ hwrites
  refine ⟨(counts_accepted failing).1 _, _, hwrites, ?_, ?_⟩
  · rw [haccepted]
    decide +kernel
  · rw [hbytes]
    decide +kernel

end Counting

end Fixtures
