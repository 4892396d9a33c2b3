import Mathlib.Tactic.Lemma
import SaveSet.Output.Memory

namespace SaveSet

structure OutputFile where
  name : String
  created : Stamp
  modified : Stamp
  data : Bytes
  deriving DecidableEq, Repr

namespace OutputFile

def ofRequest (r : OpenRequest) : OutputFile := ⟨r.name, r.created, r.modified, []⟩

def request (f : OutputFile) : OpenRequest := ⟨f.name, f.created, f.modified⟩

def append (f : OutputFile) (bytes : Bytes) : OutputFile := { f with data := f.data ++ bytes }

@[simp] lemma append_nil (f : OutputFile) : f.append [] = f := by simp [append]

@[simp] lemma append_append (f : OutputFile) (xs ys : Bytes) :
    (f.append xs).append ys = f.append (xs ++ ys) := by
  simp [append]

end OutputFile

class FileSink (σ : Type) [Sink σ] where
  files : σ → List OutputFile
  IsOpen : Handle → σ → Prop
  openFile_ok : ∀ r s, ∃ h t, Sink.openFile r s = (.ok h, t) ∧ IsOpen h t ∧
    files t = files s ++ [.ofRequest r]
  write_ok : ∀ {h s fs f} b, IsOpen h s → files s = fs ++ [f] →
    ∃ t, Sink.write h b s = .ok t ∧ IsOpen h t ∧ files t = fs ++ [f.append b]
  closeFile_ok : ∀ {h s}, IsOpen h s → ∃ t, Sink.closeFile h s = .ok t ∧ files t = files s
  overwritten_none : ∀ s : σ, Sink.overwritten s = none

namespace FileSink

variable {σ : Type} [Sink σ] [FileSink σ]

lemma deliver_ok {h : Handle} {s : σ} {fs : List OutputFile} {f : OutputFile} (final : Content)
    (ws : List Write) (ho : IsOpen h s) (hf : files s = fs ++ [f]) :
    ∃ t, deliver h final ws s = .ok (final, t) ∧ IsOpen h t ∧
      files t = fs ++ [f.append (ws.flatMap Write.bytes)] := by
  induction ws generalizing s f with
  | nil => exact ⟨s, rfl, ho, by simpa using hf⟩
  | cons w ws ih =>
    obtain ⟨t, hw, hot, hft⟩ := write_ok w.bytes ho hf
    obtain ⟨u, hd, hou, hfu⟩ := ih hot hft
    exact ⟨u, by rw [deliver, hw]; exact hd, hou, by simpa using hfu⟩

end FileSink

lemma modify_last {α : Type} (xs : List α) (x : α) (f : α → α) : (xs ++ [x]).modify xs.length f = xs ++ [f x] := by
  rw [List.modify_eq_take_cons_drop (by simp)]
  simp

namespace MemorySink

def output (f : MemoryFile) : OutputFile := ⟨f.name, f.created, f.modified, f.data⟩

lemma output_append (f : MemoryFile) (bytes : Bytes) : output (f.append bytes) = (output f).append bytes := by
  rw [output, MemoryFile.data_append]
  rfl

def outputs (s : MemorySink) : List OutputFile := s.files.toList.map output

lemma write_last {h : Handle} {s : MemorySink} {fs : List OutputFile} {f : OutputFile} (bytes : Bytes)
    (hi : h.index + 1 = s.files.size) (hf : s.outputs = fs ++ [f]) :
    ∃ t, s.write h bytes = .ok t ∧ h.index + 1 = t.files.size ∧ t.outputs = fs ++ [f.append bytes] := by
  obtain ⟨ms, last, hs, rfl, hl⟩ := List.map_eq_append_iff.mp hf
  obtain ⟨m, rfl, rfl⟩ := List.map_eq_singleton_iff.mp hl
  have hlen : h.index = ms.length := by
    have hlength := congrArg List.length hs
    rw [Array.length_toList, List.length_append, List.length_singleton] at hlength
    omega
  refine ⟨{ s with files := s.files.modify h.index (·.append bytes) }, ?_, by simpa using hi, ?_⟩
  · rw [write, if_pos (by omega)]
  · rw [outputs, Array.toList_modify, hs, hlen, modify_last]
    simp [output_append]

instance : FileSink MemorySink where
  files := outputs
  IsOpen h s := h.index + 1 = s.files.size
  openFile_ok r s := ⟨⟨s.files.size⟩, (s.openFile r).2, rfl, by simp [openFile],
    by simp [outputs, openFile, output, OutputFile.ofRequest, MemoryFile.data]⟩
  write_ok bytes hi hf := write_last bytes hi hf
  closeFile_ok {h s} _ := ⟨s.closeFile h, rfl, rfl⟩
  overwritten_none _ := rfl

end MemorySink

end SaveSet
