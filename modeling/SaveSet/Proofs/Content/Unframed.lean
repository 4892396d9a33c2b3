import SaveSet.Proofs.Content.HostLines
import SaveSet.Proofs.Content.Verbatim

namespace SaveSet

namespace Content

open LineEnds

variable {c : Content}

lemma absorb_text (hm : c.mode = .ascii) (hf : c.format.isStreamLike = true) (hs : c.settled = false)
    (payload : Bytes) :
    (c.absorb true payload).bytes = (c.lines.normalize (payload.take c.remaining)).2 ∧
      (c.absorb true payload).value = { c.moved (payload.take c.remaining).length with
        lines := (c.lines.normalize (payload.take c.remaining)).1 } := by
  have hr : ¬ (c.mode = .raw ∨ c.format = .udf) := by
    rintro (hraw | hudf)
    · rw [hm] at hraw
      cases hraw
    · rw [hudf] at hf
      cases hf
  have hemit (data : Bytes) : c.emit true data =
      ⟨piece (c.lines.normalize data).2 { c with lines := (c.lines.normalize data).1 },
        ({ c with lines := (c.lines.normalize data).1 }, true)⟩ := by
    rw [emit, Bool.not_true, if_neg Bool.false_ne_true, if_pos hm]
  rw [absorb_unsettled hs, feed, if_neg hr, if_pos hf, copyStream, hemit]
  exact ⟨bytes_piece _ _ _, rfl⟩

lemma absorbAll_text (payloads : List Bytes) (hm : c.mode = .ascii) (hf : c.format.isStreamLike = true)
    (hs : c.settled = false) :
    (absorbAll true payloads c).bytes = (hostText c.lines.pending (payloads.flatten.take c.remaining)).2 ∧
      (absorbAll true payloads c).value.lines.pending =
        (hostText c.lines.pending (payloads.flatten.take c.remaining)).1 ∧
      (absorbAll true payloads c).value.position = c.position + (payloads.flatten.take c.remaining).length := by
  induction payloads generalizing c with
  | nil => simp [absorbAll]
  | cons p ps ih =>
    obtain ⟨hb, hv⟩ := absorb_text hm hf hs p
    let next : Content := { c.moved (p.take c.remaining).length with
      lines := (c.lines.normalize (p.take c.remaining)).1 }
    have hrest : next.remaining = c.remaining - p.length := by
      simp only [next, remaining, moved, List.length_take]
      omega
    obtain ⟨hbs, hpending, hposition⟩ := ih (c := next) hm hf hs
    rw [hrest] at hbs hpending hposition
    rw [absorbAll, Emission.bytes_andThen, Emission.value_andThen, hb, hv, hbs, hpending, hposition,
      List.flatten_cons, List.take_append, hostText_append, List.length_append, ← Nat.add_assoc]
    exact ⟨rfl, rfl, rfl⟩

lemma output_text (hm : c.mode = .ascii) (hf : c.format.isStreamLike = true) (payloads : List Bytes) :
    c.reset.output payloads = normalized (payloads.flatten.take c.size) := by
  obtain ⟨hb, hpending, -⟩ := absorbAll_text payloads (c := c.reset) hm hf rfl
  rw [output, Emission.bytes_andThen, bytes_finish, hb, hpending]
  rfl

lemma reached_text (hm : c.mode = .ascii) (hf : c.format.isStreamLike = true) (payloads : List Bytes) :
    c.reset.reached payloads = min c.size payloads.flatten.length := by
  obtain ⟨-, -, hposition⟩ := absorbAll_text payloads (c := c.reset) hm hf rfl
  rw [reached, hposition, List.length_take]
  exact Nat.zero_add _

end Content

namespace Target

open Content LineEnds

variable {σ : Type} [Sink σ] [FileSink σ] {t : Target} {h : Handle} {s : σ} {fs : List OutputFile} {f : OutputFile}

lemma feedAll_finish (payloads : List Bytes) (hs : t.content.settled = false) (hh : t.handle = some h)
    (ho : FileSink.IsOpen h s) (hfs : FileSink.files s = fs ++ [f]) :
    ∃ u out, ((t.feedAll payloads s).andThen fun r => r.1.finish r.2) = .ok (u, out) ∧
      u.content.position = t.content.reached payloads ∧
      FileSink.files out = fs ++ [f.append (t.content.output payloads)] := by
  obtain ⟨out, hall, hout, hfiles⟩ := feedAll_unsettled payloads hs hh ho hfs
  let u : Target := { t with content := (absorbAll true payloads t.content).value }
  obtain ⟨out', hfinish, -, hfiles'⟩ := finish_open (t := u) hh hout hfiles
  refine ⟨{ u with content := u.content.finish.value }, out', ?_, rfl, ?_⟩
  · rw [hall, Outcome.andThen_ok]
    exact hfinish
  · rw [hfiles', OutputFile.append_append, output, Emission.bytes_andThen]

/-- A file without records gets the first bytes of all payloads, as many as its size allows: as they are, or as text
with the line ends of the host. -/
theorem payloads_are_copied_up_to_size (hfresh : t.content = t.content.reset) (hh : t.handle = some h)
    (ho : FileSink.IsOpen h s) (hfs : FileSink.files s = fs ++ [f])
    (hcopied : Verbatim t.content.mode t.content.format ∨
      t.content.mode = .ascii ∧ t.content.format.isStreamLike = true) (payloads : List Bytes) :
    let data := payloads.flatten.take (min t.content.size payloads.flatten.length)
    ∃ u out, ((t.feedAll payloads s).andThen fun r => r.1.finish r.2) = .ok (u, out) ∧
      (Verbatim t.content.mode t.content.format → FileSink.files out = fs ++ [f.append data]) ∧
      (t.content.mode = .ascii ∧ t.content.format.isStreamLike = true →
        FileSink.files out = fs ++ [f.append (normalized data)]) ∧
      u.content.position = data.length ∧ u.content.position ≤ t.content.size := by
  intro data
  have hdata : data = payloads.flatten.take t.content.size := List.take_eq_take_min.symm
  have hlength : data.length = min t.content.size payloads.flatten.length := by rw [hdata, List.length_take]
  have hsettled : t.content.settled = false := by rw [hfresh]; rfl
  obtain ⟨u, out, hout, hposition, hfiles⟩ := feedAll_finish payloads hsettled hh ho hfs
  rw [hfresh] at hposition hfiles
  have hreached : u.content.position = data.length := by
    rw [hposition, hlength]
    rcases hcopied with hv | ⟨hm, hf⟩
    · exact reached_verbatim hv payloads
    · exact reached_text hm hf payloads
  refine ⟨u, out, hout, fun hv => ?_, fun ⟨hm, hf⟩ => ?_, hreached, ?_⟩
  · rw [hfiles, output_verbatim hv, hdata]
  · rw [hfiles, output_text hm hf, hdata]
  · rw [hreached, hlength]
    exact Nat.min_le_left _ _

def openText : Target := { openRecords with content := { size := 5, format := .stm, mode := .ascii } }

theorem text_is_copied_up_to_a_cr :
    ∃ u out, ((openText.feedAll [[65, 13], [10, 66, 13, 10]] openedRecords).andThen fun r => r.1.finish r.2) =
        .ok (u, out) ∧
      FileSink.files out = [⟨"A.B;1", ⟨0⟩, ⟨0⟩, [65, 10, 66, 10]⟩] ∧ u.content.position = 5 := by
  obtain ⟨u, out, hout, -, htext, hposition, -⟩ :=
    payloads_are_copied_up_to_size (t := openText) rfl rfl rfl files_openedRecords (Or.inr ⟨rfl, rfl⟩)
      [[65, 13], [10, 66, 13, 10]]
  exact ⟨u, out, hout, htext ⟨rfl, rfl⟩, hposition⟩

end Target

end SaveSet
