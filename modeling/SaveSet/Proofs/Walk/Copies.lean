import SaveSet.Proofs.Content.Verbatim
import SaveSet.Proofs.Walk.Extraction

namespace SaveSet

open Content

variable {o : Options} {ms : List Member} {m d : Member}

lemma verbatim_modeOf {format : RecordFormat} (h : Verbatim o.mode format) (ms : List Member) (key : String) :
    Verbatim (o.modeOf ms key) format := by
  rcases h with hraw | hudf | ⟨hbinary, hlike⟩
  · rw [modeOf_of_ne_smart (by rw [hraw]; decide)]
    exact Or.inl hraw
  · exact Or.inr (Or.inl hudf)
  · rw [modeOf_of_ne_smart (by rw [hbinary]; decide)]
    exact Or.inr (Or.inr ⟨hbinary, hlike⟩)

lemma started_declared (hd : declared ms m.key = some d) :
    m.started o ms = (d.content (o.modeOf ms m.key)).reset := by
  rw [Member.started, hd]
  rfl

lemma data_written (hd : declared ms m.key = some d) (hv : Verbatim o.mode d.attributes.recordFormat) :
    (m.written o ms).data = m.payloads.flatten.take d.attributes.fileSize := by
  have hv' : Verbatim (o.modeOf ms m.key) d.attributes.recordFormat := verbatim_modeOf hv ms m.key
  rw [Member.written, started_declared hd]
  exact (List.nil_append _).trans (output_verbatim (c := d.content (o.modeOf ms m.key)) hv' m.payloads)

lemma size_ended (hd : declared ms m.key = some d) : (m.ended o ms).size = d.attributes.fileSize := by
  have hreset : (m.ended o ms).reset.size = (d.content (o.modeOf ms m.key)).reset.reset.size := by
    rw [Member.ended, reset_absorbAll, started_declared hd]
  exact hreset

lemma isComplete_ended (hd : declared ms m.key = some d) (hv : Verbatim o.mode d.attributes.recordFormat) :
    (m.ended o ms).isComplete = true ↔ d.attributes.fileSize ≤ m.payloads.flatten.length := by
  have hv' : Verbatim (o.modeOf ms m.key) d.attributes.recordFormat := verbatim_modeOf hv ms m.key
  have hposition : (m.ended o ms).position = min d.attributes.fileSize m.payloads.flatten.length := by
    rw [Member.ended, started_declared hd]
    exact reached_verbatim (c := d.content (o.modeOf ms m.key)) hv' m.payloads
  rw [isComplete, hposition, size_ended hd, beq_iff_eq]
  omega

lemma shortfall_ended (hd : declared ms m.key = some d) (hv : Verbatim o.mode d.attributes.recordFormat) :
    Session.shortfall m.key (m.ended o ms) = [] ↔ d.attributes.fileSize ≤ m.payloads.flatten.length := by
  rw [← isComplete_ended hd hv, Session.shortfall]
  cases (m.ended o ms).isComplete <;> simp

end SaveSet
