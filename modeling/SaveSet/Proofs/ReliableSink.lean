import Mathlib.Data.List.Induction
import SaveSet.Proofs.Runs
import SaveSet.Proofs.Walk.Views

namespace SaveSet

class ReliableSink (σ : Type) [Sink σ] where
  IsOpen : Handle → σ → Prop
  openFile_ok : ∀ r s, ∃ h t, Sink.openFile r s = (.ok h, t) ∧ IsOpen h t
  write_ok : ∀ {h s} b, IsOpen h s → ∃ t, Sink.write h b s = .ok t ∧ IsOpen h t
  closeFile_ok : ∀ {h s}, IsOpen h s → ∃ t, Sink.closeFile h s = .ok t
  overwritten_none : ∀ s : σ, Sink.overwritten s = none

instance : ReliableSink MemorySink where
  IsOpen h s := h.index < s.files.size
  openFile_ok r s := ⟨⟨s.files.size⟩, (s.openFile r).2, rfl, by simp [MemorySink.openFile]⟩
  write_ok {h s} b hi := ⟨_, if_pos hi, by simpa using hi⟩
  closeFile_ok {h s} _ := ⟨s.closeFile h, rfl⟩
  overwritten_none := FileSink.overwritten_none

namespace Call

def request? : Call → Option OpenRequest
  | opened r _ => some r
  | refused _ _ | written _ _ _ | closed _ _ => none

def files (fs : List OutputFile) : Call → List OutputFile
  | opened r _ => fs ++ [.ofRequest r]
  | written _ data none => fs.modify (fs.length - 1) (·.append data)
  | written _ _ (some _) | refused _ _ | closed _ _ => fs

end Call

def filesOf (calls : List Call) : List OutputFile := calls.foldl Call.files []

lemma filesOf_snoc (calls : List Call) (c : Call) : filesOf (calls ++ [c]) = c.files (filesOf calls) := by
  simp [filesOf]

lemma requests_files (fs : List OutputFile) (c : Call) :
    (c.files fs).map OutputFile.request = fs.map OutputFile.request ++ c.request?.toList := by
  cases c with
  | opened r h => simp [Call.files, Call.request?, OutputFile.ofRequest, OutputFile.request]
  | refused r f => simp [Call.files, Call.request?]
  | closed h f => simp [Call.files, Call.request?]
  | written h data fault =>
    cases fault with
    | some f => simp [Call.files, Call.request?]
    | none =>
      rcases fs.eq_nil_or_concat with rfl | ⟨fs, f, rfl⟩
      · rfl
      · simp only [List.concat_eq_append, Call.files, List.length_append, List.length_singleton, Nat.add_sub_cancel,
          modify_last]
        simp [Call.request?, OutputFile.append, OutputFile.request]

lemma requests_filesOf (calls : List Call) :
    (filesOf calls).map OutputFile.request = calls.filterMap Call.request? := by
  induction calls using List.reverseRecOn with
  | nil => rfl
  | append_singleton calls c ih =>
    rw [filesOf_snoc, requests_files, ih, List.filterMap_append]
    cases c <;> rfl

variable {σ : Type} [Sink σ]

instance [ReliableSink σ] : FileSink (Journaled σ) where
  files s := filesOf s.calls
  IsOpen h s := ReliableSink.IsOpen h s.sink
  openFile_ok r s := by
    obtain ⟨h, t, hopen, ho⟩ := ReliableSink.openFile_ok r s.sink
    refine ⟨h, ⟨t, s.calls ++ [.opened r h]⟩, ?_, ho, filesOf_snoc _ _⟩
    change Journaled.openFile r s = _
    rw [Journaled.openFile, hopen]
  write_ok {h s fs f} b ho hf := by
    obtain ⟨t, hwrite, ht⟩ := ReliableSink.write_ok b ho
    refine ⟨⟨t, s.calls ++ [.written h b none]⟩, ?_, ht, ?_⟩
    · change Journaled.write h b s = _
      rw [Journaled.write, hwrite]
      rfl
    · rw [filesOf_snoc, hf, Call.files, List.length_append, List.length_singleton, Nat.add_sub_cancel, modify_last]
  closeFile_ok {h s} ho := by
    obtain ⟨t, hclose⟩ := ReliableSink.closeFile_ok ho
    refine ⟨⟨t, s.calls ++ [.closed h none]⟩, ?_, filesOf_snoc _ _⟩
    change Journaled.closeFile h s = _
    rw [Journaled.closeFile, hclose]
    rfl
  overwritten_none s := ReliableSink.overwritten_none s.sink

lemma result_journaled (o : Options) (r : Reader) (s : σ) :
    (run o r (Journaled.start s)).result = (run o r s).result := by
  have hview : run o r s = ⟨_, _, _⟩ := Journaled.isView.run o r (Journaled.start s)
  rw [hview]

variable [ReliableSink σ] {o : Options} {r : Reader} {s : σ}

lemma summary_framed (o : Options) (hr : r.Reliable) (s : σ) {h : BlockHeader} (hh : framing r.rest = .ok h) :
    (run o r s).result = .ok (o.summary h (h.passages r.rest)) := by
  rw [← result_journaled]
  exact (run_framed o hr (Journaled.start s) hh).1

lemma framed_of_ok (hr : r.Reliable) {summary : Summary} (h : (run o r s).result = .ok summary) :
    ∃ header, framing r.rest = .ok header ∧ summary = o.summary header (header.passages r.rest) := by
  rw [← result_journaled] at h
  exact run_ok hr h

lemma result_refused (o : Options) (hr : r.Reliable) (s : σ) (e : RunError) :
    (run o r s).result = .error e ↔ framing r.rest = .error e := by
  constructor
  · intro h
    cases hf : framing r.rest with
    | error e' =>
      rw [(run_refused o hr s hf).1] at h
      cases h
      rfl
    | ok header =>
      rw [summary_framed o hr s hf] at h
      cases h
  · intro hf
    exact (run_refused o hr s hf).1

end SaveSet
