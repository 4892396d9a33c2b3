import SaveSet.Proofs.Output.FileSink
import SaveSet.Walk.Catalog

namespace SaveSet.Target

variable {σ : Type} [Sink σ] {t : Target} {h : Handle}

lemma put_closed (hh : t.handle = none) (e : Emission Content) (s : σ) :
    t.put e s = .ok ({ t with content := e.value }, s) := by
  rw [put, hh]

lemma feed_closed (hh : t.handle = none) (payload : Bytes) (s : σ) :
    t.feed payload s = .ok ({ t with content := (t.content.feed false payload).value }, s) := by
  rw [feed, put_closed hh, hh, Option.isSome_none]

lemma feed_held (hh : t.handle = some h) (payload : Bytes) (s : σ) :
    t.feed payload s = t.put (t.content.feed true payload) s := by
  rw [feed, hh, Option.isSome_some]

lemma finish_held (hh : t.handle = some h) (s : σ) : t.finish s = t.put t.content.finish s := by
  rw [finish, hh, Option.isSome_some, if_pos rfl]

variable [FileSink σ] {s : σ} {fs : List OutputFile} {f : OutputFile}

lemma put_open (e : Emission Content) (hh : t.handle = some h) (ho : FileSink.IsOpen h s)
    (hf : FileSink.files s = fs ++ [f]) :
    ∃ out, t.put e s = .ok ({ t with content := e.value }, out) ∧ FileSink.IsOpen h out ∧
      FileSink.files out = fs ++ [f.append e.bytes] := by
  obtain ⟨out, hd, hout, hfiles⟩ := FileSink.deliver_ok e.value e.writes ho hf
  refine ⟨out, ?_, hout, hfiles⟩
  rw [put, hh]
  dsimp only
  rw [hd]
  rfl

lemma feed_open (payload : Bytes) (hh : t.handle = some h) (ho : FileSink.IsOpen h s)
    (hf : FileSink.files s = fs ++ [f]) :
    ∃ out, t.feed payload s = .ok ({ t with content := (t.content.feed true payload).value }, out) ∧
      FileSink.IsOpen h out ∧ FileSink.files out = fs ++ [f.append (t.content.feed true payload).bytes] := by
  rw [feed_held hh]
  exact put_open _ hh ho hf

lemma finish_open (hh : t.handle = some h) (ho : FileSink.IsOpen h s) (hf : FileSink.files s = fs ++ [f]) :
    ∃ out, t.finish s = .ok ({ t with content := t.content.finish.value }, out) ∧ FileSink.IsOpen h out ∧
      FileSink.files out = fs ++ [f.append t.content.finish.bytes] := by
  rw [finish_held hh]
  exact put_open _ hh ho hf

end SaveSet.Target
