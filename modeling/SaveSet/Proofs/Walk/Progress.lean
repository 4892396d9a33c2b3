import SaveSet.Proofs.Walk.InStep
import SaveSet.Proofs.Walk.Defects
import SaveSet.Proofs.Walk.Steps

namespace SaveSet

variable {σ τ : Type}

lemma Mimics.refl [Sink σ] : Mimics (Eq : σ → σ → Prop) where
  openFile h _ _ _ hopen := ⟨_, h ▸ hopen, rfl⟩
  write h _ _ _ hwrite := ⟨_, h ▸ hwrite, rfl⟩
  closeFile h _ _ hclose := ⟨_, h ▸ hclose, rfl⟩
  overwritten h := h ▸ rfl

namespace Session

lemma CutShort.first_fault {s : Session (Journaled σ)} {t : Session (Journaled τ)} {f : Fault} (h : CutShort s t f) :
    t.sink.calls.findSome? Call.fault? = some f := by
  rcases h with ⟨⟨c, after, hfails, -⟩, -⟩ | ⟨handle, ⟨data, hfails⟩, -⟩
  · exact hfails.first_fault
  · exact hfails.first_fault

def journaled (s : Session σ) : Session (Journaled σ) := s.through .start

lemma inStep_journaled (s : Session σ) : InStep Eq s.journaled s.journaled :=
  .mk s.catalog s.active s.report ⟨rfl, rfl, fun _ hc => absurd hc List.not_mem_nil⟩

lemma fault_eq_of_tracks {o : Outcome (Session (Journaled σ))} (h : Outcome.Tracks (InStep Eq) CutShort o o) :
    o.fault = o.state.sink.calls.findSome? Call.fault? := by
  rcases h with ⟨s, t, rfl, -, hsound⟩ | ⟨t, f, rfl, hcut⟩
  · cases hsound with
    | mk catalog active report sinks => exact (List.findSome?_eq_none_iff.mpr sinks.sound).symm
  · exact hcut.first_fault.symm

variable [Sink σ] (rules : PassRules) (last : Bool) (s : Session σ)

lemma apply_journaled (e : Event) :
    s.apply rules last e = (s.journaled.apply rules last e).map (through Journaled.sink) :=
  Journaled.isView.apply rules last e s.journaled

lemma applyAll_journaled (es : List Event) :
    s.applyAll rules last es = (s.journaled.applyAll rules last es).map (through Journaled.sink) :=
  Outcome.map_each (fun e => Journaled.isView.apply rules last e) es s.journaled

lemma fault_apply (e : Event) :
    (s.apply rules last e).fault = (s.journaled.apply rules last e).state.sink.calls.findSome? Call.fault? := by
  rw [apply_journaled]
  exact fault_eq_of_tracks (s.inStep_journaled.apply rules Mimics.refl last e)

lemma fault_applyAll (es : List Event) :
    (s.applyAll rules last es).fault = (s.journaled.applyAll rules last es).state.sink.calls.findSome? Call.fault? := by
  rw [applyAll_journaled]
  exact fault_eq_of_tracks (s.inStep_journaled.applyAll rules Mimics.refl last es)

lemma answer_record (block : Bytes) (cursor : Nat) :
    (s.record rules last block cursor).1 =
      match (s.journaled.record rules last block cursor).2.sink.calls.findSome? Call.fault? with
      | some f => .error f
      | none => .ok ((nextRecord? block cursor).isSome, (nextRecord? block cursor).getD cursor) := by
  rw [record_eq, record_eq, Outcome.state_answer, ← fault_apply, Outcome.answer]
  cases (s.apply rules last (readRecord block.length cursor (block.drop cursor)).event).fault <;> rfl

lemma answer_block (g : Geometry) (bytes : Bytes) :
    (s.block rules last g bytes).answer =
        (match (s.journaled.block rules last g bytes).session.sink.calls.findSome? Call.fault? with
        | some f => .error f
        | none => .ok (readBlock g bytes).sound) ∧
      ((s.journaled.block rules last g bytes).session.sink.calls.findSome? Call.fault? = none →
        (s.block rules last g bytes).cursors = g.cursors bytes) := by
  have h := s.block_eq rules last g bytes
  rw [(s.journaled.block_eq rules last g bytes).session, ← fault_applyAll]
  refine ⟨?_, h.cursors⟩
  rw [h.answer, Outcome.answer]
  cases (s.applyAll rules last (readBlock g bytes).events).fault <;> rfl

lemma active_badRecord (w : Warning) : (s.apply rules last (.badRecord w)).state.active = none := by
  apply Outcome.state_andThen (P := fun t : Session σ => t.active = none) s.active_close
  intro h
  change (if reportsRecord rules last then warn _ w else _ : Session σ).active = none
  split <;> exact h

lemma active_lost {block : Bytes} {cursor : Nat} (h : nextRecord? block cursor = none) :
    (s.record rules last block cursor).2.active = none := by
  rw [record_eq, Outcome.state_answer]
  rcases readRecord_cases block.length cursor (block.drop cursor) with ⟨next, hnext, -⟩ | ⟨w, hw, -⟩
  · exact absurd (h.symm.trans hnext) (Option.some_ne_none _).symm
  · rw [hw]
    exact s.active_badRecord rules last w

lemma block_congr (g : Geometry) {bytes other : Bytes} (hheader : BlockHeader.decode other = BlockHeader.decode bytes)
    (htake : other.take g.blockSize = bytes.take g.blockSize) :
    s.block rules last g other = s.block rules last g bytes := by
  rw [block, block, hheader, htake]

end Session

namespace Geometry

lemma cursors_cases (g : Geometry) (bytes : Bytes) :
    g.cursors bytes = [] ∨ g.cursors bytes = recordCursors (bytes.take g.blockSize) g.headerSize := by
  rw [cursors]
  split
  · exact .inl rfl
  · split
    · exact .inr rfl
    · exact .inl rfl

lemma cursors_bounds (g : Geometry) (bytes : Bytes) :
    (∀ c ∈ g.cursors bytes, g.headerSize ≤ c ∧ c < min g.blockSize bytes.length) ∧
      (g.cursors bytes).Pairwise (fun c d => c + 16 ≤ d) ∧
      16 * (g.cursors bytes).length ≤ min g.blockSize bytes.length - g.headerSize + 15 := by
  rcases g.cursors_cases bytes with hnone | hrecords
  · rw [hnone]
    exact ⟨fun c hc => absurd hc List.not_mem_nil, .nil, Nat.zero_le _⟩
  · obtain ⟨hbounds, hapart⟩ := recordCursors_bounds (bytes.take g.blockSize) g.headerSize
    have hlength := length_recordCursors (bytes.take g.blockSize) g.headerSize
    rw [List.length_take] at hbounds hlength
    rw [hrecords]
    exact ⟨hbounds, hapart, hlength⟩

end Geometry

/-- Unless a call to the sink fails, a record leads on by its header at least or ends its block, and a block is walked
from place to place as its bytes say, whatever the pass, the options and the files so far. -/
theorem Session.walks_follow_the_bytes [Sink σ] (rules : PassRules) (last : Bool) (g : Geometry) (s : Session σ) :
    (∀ block cursor,
      (s.journaled.record rules last block cursor).2.sink.calls.findSome? Call.fault? = none →
        (∃ next, (s.record rules last block cursor).1 = .ok (true, next) ∧ cursor < next ∧ cursor + 16 ≤ next ∧
          next ≤ block.length) ∨
        ((s.record rules last block cursor).1 = .ok (false, cursor) ∧
          (s.record rules last block cursor).2.active = none)) ∧
      ∀ bytes,
        ((s.journaled.block rules last g bytes).session.sink.calls.findSome? Call.fault? = none →
          (s.block rules last g bytes).answer = .ok (readBlock g bytes).sound ∧
            (s.block rules last g bytes).cursors = g.cursors bytes) ∧
        ((∀ c ∈ g.cursors bytes, g.headerSize ≤ c ∧ c < min g.blockSize bytes.length) ∧
          (g.cursors bytes).Pairwise (fun c d => c + 16 ≤ d) ∧
          16 * (g.cursors bytes).length ≤ min g.blockSize bytes.length - g.headerSize + 15) ∧
        (∀ other, BlockHeader.decode other = BlockHeader.decode bytes →
          other.take g.blockSize = bytes.take g.blockSize →
            s.block rules last g other = s.block rules last g bytes) ∧
        (s.block rules last g bytes).Agrees (s.applyAll rules last (readBlock g bytes).events)
          (readBlock g bytes).sound (g.cursors bytes) := by
  refine ⟨fun block cursor hcalls => ?_, fun bytes => ⟨fun hcalls => ?_, g.cursors_bounds bytes, ?_, ?_⟩⟩
  · have hanswer := s.answer_record rules last block cursor
    rw [hcalls] at hanswer
    cases hn : nextRecord? block cursor with
    | none =>
      rw [hn] at hanswer
      exact .inr ⟨hanswer, s.active_lost rules last hn⟩
    | some next =>
      obtain ⟨hroom, hend⟩ := nextRecord?_bounds hn
      rw [hn] at hanswer
      exact .inl ⟨next, hanswer, by omega, hroom, hend⟩
  · obtain ⟨hanswer, hcursors⟩ := s.answer_block rules last g bytes
    rw [hcalls] at hanswer
    exact ⟨hanswer, hcursors hcalls⟩
  · intro other hheader htake
    exact s.block_congr rules last g hheader htake
  · exact s.block_eq rules last g bytes

def oddBlock : Bytes :=
  List.replicate 256 0 ++ [1, 0, 1, 0] ++ List.replicate 12 0 ++ [7] ++ [2, 0, 99, 0] ++ List.replicate 20 0

theorem Session.the_odd_block_is_walked_alike :
    let s : Session MemorySink := { catalog := ⟨⟨false, []⟩, .all, .ascii, .empty, .empty⟩, sink := {} }
    let found (rules : PassRules) (last : Bool) := s.block rules last ⟨300, 256⟩ oddBlock
    (∃ next, (s.record ⟨.extract, true, .none⟩ false oddBlock 256).1 = .ok (true, next) ∧ 272 ≤ next) ∧
      (s.record ⟨.extract, true, .none⟩ false oddBlock 273).1 = .ok (false, 273) ∧
      (found ⟨.scan, true, .none⟩ true).answer = .ok false ∧ (found ⟨.scan, true, .none⟩ true).cursors = [256, 273] ∧
      (found ⟨.extract, false, .none⟩ false).answer = .ok false ∧
      (found ⟨.extract, false, .none⟩ false).cursors = [256, 273] := by
  intro s found
  obtain ⟨hrecord, -⟩ := s.walks_follow_the_bytes ⟨.extract, true, .none⟩ false ⟨300, 256⟩
  obtain ⟨hscan, -⟩ := (s.walks_follow_the_bytes ⟨.scan, true, .none⟩ true ⟨300, 256⟩).2 oddBlock
  obtain ⟨hextract, -⟩ := (s.walks_follow_the_bytes ⟨.extract, false, .none⟩ false ⟨300, 256⟩).2 oddBlock
  have hcursors : Geometry.cursors ⟨300, 256⟩ oddBlock = [256, 273] := by decide +kernel
  have hsound : (readBlock ⟨300, 256⟩ oddBlock).sound = false := by decide +kernel
  rw [hcursors, hsound] at hscan hextract
  obtain ⟨hanswer, hplaces⟩ := hscan (by decide +kernel)
  obtain ⟨hanswer', hplaces'⟩ := hextract (by decide +kernel)
  refine ⟨?_, ?_, hanswer, hplaces, hanswer', hplaces'⟩
  · rcases hrecord oddBlock 256 (by decide +kernel) with ⟨next, hnext, -, hroom, -⟩ | ⟨hlost, -⟩
    · exact ⟨next, hnext, hroom⟩
    · have hsome : (s.record ⟨.extract, true, .none⟩ false oddBlock 256).1.toOption ≠ some (false, 256) := by
        decide +kernel
      exact absurd (congrArg Except.toOption hlost) hsome
  · rcases hrecord oddBlock 273 (by decide +kernel) with ⟨next, hnext, -⟩ | ⟨hlost, -⟩
    · have hsome : (s.record ⟨.extract, true, .none⟩ false oddBlock 273).1.toOption = some (false, 273) := by
        decide +kernel
      exact absurd ((congrArg Except.toOption hnext).symm.trans hsome) (by simp [Except.toOption])
    · exact hlost

end SaveSet
