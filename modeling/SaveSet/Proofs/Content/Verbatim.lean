import SaveSet.Proofs.Content.Payloads

namespace SaveSet.Content

def Verbatim (mode : ContentMode) (format : RecordFormat) : Prop :=
  mode = .raw ∨ format = .udf ∨ (mode = .binary ∧ format.isStreamLike)

lemma bytes_piece {α : Type} (bytes : Bytes) (refused : Content) (a : α) :
    (⟨piece bytes refused, a⟩ : Emission α).bytes = bytes :=
  flatMap_piece bytes refused

lemma emit_binary {c : Content} (hm : c.mode = .binary) (hl : c.lines = {}) (data : Bytes) :
    c.emit true data = ⟨piece data c, (c, true)⟩ := by
  rcases c with ⟨size, format, mode, position, settled, carry, offset, lines⟩
  cases hm
  cases hl
  rfl

lemma absorb_verbatim {c : Content} (h : Verbatim c.mode c.format) (hs : c.settled = false)
    (hl : c.lines = {}) (payload : Bytes) :
    (c.absorb true payload).bytes = payload.take c.remaining ∧
      (c.absorb true payload).value = c.moved (payload.take c.remaining).length := by
  rw [absorb, hs, if_neg Bool.false_ne_true, feed]
  by_cases hr : c.mode = .raw ∨ c.format = .udf
  · rw [if_pos hr]
    exact ⟨bytes_piece _ _ _, rfl⟩
  · obtain ⟨hm, hf⟩ : c.mode = .binary ∧ c.format.isStreamLike := by
      rcases h with h | h | h
      · exact absurd (Or.inl h) hr
      · exact absurd (Or.inr h) hr
      · exact h
    rw [if_neg hr, if_pos hf, copyStream, emit_binary hm hl]
    exact ⟨bytes_piece _ _ _, rfl⟩

lemma absorbAll_verbatim (payloads : List Bytes) {c : Content} (h : Verbatim c.mode c.format)
    (hs : c.settled = false) (hl : c.lines = {}) :
    (absorbAll true payloads c).bytes = payloads.flatten.take c.remaining ∧
      (absorbAll true payloads c).value = c.moved (payloads.flatten.take c.remaining).length := by
  induction payloads generalizing c with
  | nil => simp [absorbAll, moved]
  | cons p ps ih =>
    obtain ⟨hb, hv⟩ := absorb_verbatim h hs hl p
    have hrest : (c.moved (p.take c.remaining).length).remaining = c.remaining - p.length := by
      simp only [remaining, moved, List.length_take]
      omega
    obtain ⟨hbs, hvs⟩ := ih (c := c.moved (p.take c.remaining).length) h hs hl
    rw [hrest] at hbs hvs
    rw [absorbAll, Emission.bytes_andThen, Emission.value_andThen, hb, hv, hbs, hvs, List.flatten_cons,
      List.take_append]
    refine ⟨rfl, ?_⟩
    simp only [moved, List.length_append, Nat.add_assoc]

lemma output_verbatim {c : Content} (h : Verbatim c.mode c.format) (payloads : List Bytes) :
    c.reset.output payloads = payloads.flatten.take c.size := by
  obtain ⟨hb, hv⟩ := absorbAll_verbatim payloads (c := c.reset) h rfl rfl
  rw [output, Emission.bytes_andThen, hb, hv]
  exact List.append_nil _

lemma reached_verbatim {c : Content} (h : Verbatim c.mode c.format) (payloads : List Bytes) :
    c.reset.reached payloads = min c.size payloads.flatten.length := by
  obtain ⟨-, hv⟩ := absorbAll_verbatim payloads (c := c.reset) h rfl rfl
  rw [reached, hv, moved, List.length_take]
  exact Nat.zero_add _

end SaveSet.Content
