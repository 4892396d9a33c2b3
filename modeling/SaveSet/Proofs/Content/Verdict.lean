import SaveSet.Proofs.Content.Partitions
import SaveSet.Proofs.Content.Sniffing
import SaveSet.Proofs.Content.Verbatim

namespace SaveSet

namespace Content

open ByteMachine

variable {c : Content} {ps qs : List Bytes}

def sniffAll (payloads : List Bytes) (c : Content) : Content :=
  payloads.foldl (fun c payload => (c.feed false payload).value) c

lemma kept_sniffAll (payloads : List Bytes) (hm : c.mode ≠ .smart) :
    (sniffAll payloads c).reset = c.reset ∧ (sniffAll payloads c).settled = c.settled := by
  induction payloads generalizing c with
  | nil => exact ⟨rfl, rfl⟩
  | cons p ps ih =>
    obtain ⟨hreset, hsettled⟩ := kept_feed (Or.inr hm) p
    obtain ⟨hreset', hsettled'⟩ := ih (c := (c.feed false p).value) (by rwa [mode_of_reset hreset])
    exact ⟨hreset'.trans hreset, hsettled'.trans hsettled⟩

lemma studies_sniffAll (payloads : List Bytes) (h : Undecided c) (hf : c.format ≠ .udf) :
    Studies c (.silent (sniffAll payloads c)) (absorbAll true payloads c.asBinary) := by
  induction payloads generalizing c with
  | nil => exact .silent h rfl
  | cons p ps ih =>
    have hfeed := studies_feed h hf p
    have hs : c.asBinary.settled = false := h.unsettled
    rw [absorbAll_cons hs]
    cases hp : high (c.asBinary.feed true p).bytes with
    | true =>
      -- The mode is settled by the first payload, and no later one is sniffed.
      obtain ⟨hsettled, hreset, -⟩ := hfeed.binary hp
      have hbinary : (c.feed false p).value.mode = .binary := mode_of_reset (c := c.asBinary) hreset
      obtain ⟨hreset', hsettled'⟩ := kept_sniffAll ps (by rw [hbinary]; decide)
      refine ⟨rfl, fun hplain => ?_, fun _ => ⟨hsettled'.trans hsettled, hreset'.trans hreset, rfl⟩⟩
      rw [Emission.bytes_map, Emission.bytes_andThen, high_append, hp] at hplain
      cases hplain
    | false =>
      obtain ⟨hu, hreset, hv⟩ := hfeed.plain hp
      have hu : Undecided (c.feed false p).value := hu
      have hreset : (c.feed false p).value.reset = c.reset := hreset
      have hnext : (c.asBinary.feed true p).value = (c.feed false p).value.asBinary := congrArg Prod.fst hv
      have hformat : (c.feed false p).value.format ≠ .udf := by rwa [format_of_reset hreset]
      have hrest := (ih hu hformat).of_reset hreset
      have hbytes : high ((c.asBinary.feed true p).andThen (absorbAll true ps)).bytes =
          high (absorbAll true ps (c.feed false p).value.asBinary).bytes := by
        rw [Emission.bytes_andThen, high_append, hp, Bool.false_or, hnext]
      refine ⟨rfl, fun hplain => ?_, fun hhigh => ?_⟩
      · rw [Emission.bytes_map, hbytes] at hplain
        obtain ⟨hu', hreset', hv'⟩ := hrest.plain hplain
        refine ⟨hu', hreset', ?_⟩
        rw [Emission.value_map, Emission.value_andThen, hnext]
        exact hv'
      · rw [Emission.bytes_map, hbytes] at hhigh
        exact hrest.binary hhigh

lemma sniffAll_high (h : Undecided c) (hf : c.format ≠ .udf)
    (hhigh : high (absorbAll true ps c.asBinary).bytes = true) :
    (sniffAll ps c).mode = .binary ∧ (sniffAll ps c).settled = true := by
  obtain ⟨hsettled, hreset, -⟩ := (studies_sniffAll ps h hf).binary hhigh
  exact ⟨mode_of_reset (c := c.asBinary) hreset, hsettled⟩

lemma sniffAll_plain (h : Undecided c) (hf : c.format ≠ .udf)
    (hplain : high (absorbAll true ps c.asBinary).bytes = false) :
    (sniffAll ps c).mode = .smart ∧ (sniffAll ps c).settled = false ∧
      (absorbAll true ps c.asBinary).value = (sniffAll ps c).asBinary := by
  obtain ⟨hu, -, hvalue⟩ := (studies_sniffAll ps h hf).plain hplain
  have hu : Undecided (sniffAll ps c) := hu
  exact ⟨hu.smart, hu.unsettled, congrArg Prod.fst hvalue⟩

lemma bytes_absorbAll_flatten (hf : c.format.isStreamLike = true ∨ c.format.isVariable = true) (hm : c.mode = .binary)
    (hpq : ps.flatten = qs.flatten) : (absorbAll true ps c.reset).bytes = (absorbAll true qs c.reset).bytes := by
  rcases hf with hstream | hvariable
  · have hv : Verbatim c.reset.mode c.reset.format := Or.inr (Or.inr ⟨hm, hstream⟩)
    rw [(absorbAll_verbatim ps hv rfl rfl).1, (absorbAll_verbatim qs hv rfl rfl).1, hpq]
  · have hframed := framed_reset hvariable (Or.inl hm)
    obtain ⟨hp, -⟩ := follows_absorbAll ps hframed (follows_reset c)
    obtain ⟨hq, -⟩ := follows_absorbAll qs hframed (follows_reset c)
    rw [hpq] at hp
    exact hp.symm.trans hq

end Content

namespace Target

open Content

variable {σ : Type} [Sink σ] {t : Target} {s : σ}

lemma feedAll_closed (payloads : List Bytes) (hh : t.handle = none) :
    t.feedAll payloads s = .ok ({ t with content := sniffAll payloads t.content }, s) := by
  induction payloads generalizing t with
  | nil => rfl
  | cons p ps ih =>
    rw [feedAll, Outcome.each_cons, feed_closed hh, Outcome.andThen_ok]
    exact ih (t := { t with content := (t.content.feed false p).value }) hh

variable [FileSink σ] {h : Handle} {fs : List OutputFile} {f : OutputFile}

/-- A file that is only looked at is found to be binary if and only if a byte above seven bits would be written of it
as binary, and else it has come as far as if it had been written. Where it is cut has no part in the verdict. -/
theorem sniffing_sees_what_is_written (hf : t.content.format.isStreamLike = true ∨ t.content.format.isVariable = true)
    (hm : t.content.mode = .smart) (hfresh : t.content = t.content.reset) (hclosed : t.handle = none)
    (ho : FileSink.IsOpen h s) (hfs : FileSink.files s = fs ++ [f]) (payloads : List Bytes) :
    ∃ u v out bytes, t.feedAll payloads s = .ok (u, s) ∧
      { t with content := t.content.asBinary, handle := some h }.feedAll payloads s = .ok (v, out) ∧
      FileSink.Grew bytes s out ∧
      (u.content.mode = .binary ∧ u.content.settled = true ↔ bytes.any Bytes.isHigh = true) ∧
      (bytes.any Bytes.isHigh = false →
        u.content.mode = .smart ∧ u.content.settled = false ∧ v.content = u.content.asBinary) ∧
      ∀ qs : List Bytes, qs.flatten = payloads.flatten → ∃ w, t.feedAll qs s = .ok (w, s) ∧
        w.content.mode = u.content.mode ∧ w.content.settled = u.content.settled := by
  have hundecided : Undecided t.content := ⟨hm, by rw [hfresh]; rfl, by rw [hfresh]; rfl⟩
  have hudf : t.content.format ≠ .udf := by
    intro hudf
    rw [hudf] at hf
    simp [RecordFormat.isStreamLike, RecordFormat.isVariable] at hf
  let c := t.content.asBinary
  have hreset : c.reset = c := congrArg asBinary hfresh.symm
  obtain ⟨out, hall, -, hfiles⟩ :=
    feedAll_unsettled (t := { t with content := c, handle := some h }) payloads hundecided.unsettled rfl ho hfs
  have hcuts (qs : List Bytes) (hqs : qs.flatten = payloads.flatten) :
      (absorbAll true qs c).bytes = (absorbAll true payloads c).bytes := by
    rw [← hreset]
    exact bytes_absorbAll_flatten hf rfl hqs
  refine ⟨_, _, out, (absorbAll true payloads c).bytes, feedAll_closed payloads hclosed, hall, ⟨fs, f, hfs, hfiles⟩,
    ⟨fun hbinary => ?_, fun hhigh => sniffAll_high hundecided hudf hhigh⟩,
    fun hplain => sniffAll_plain hundecided hudf hplain, fun qs hqs => ⟨_, feedAll_closed qs hclosed, ?_⟩⟩
  · apply Classical.byContradiction
    intro hplain
    obtain ⟨hsmart, -, -⟩ := sniffAll_plain hundecided hudf (Bool.eq_false_iff.mpr hplain)
    exact absurd (hbinary.1.symm.trans hsmart) (by decide)
  · cases hhigh : high (absorbAll true payloads c).bytes with
    | true =>
      obtain ⟨hmode, hsettled⟩ := sniffAll_high hundecided hudf hhigh
      obtain ⟨hmode', hsettled'⟩ := sniffAll_high hundecided hudf ((congrArg high (hcuts qs hqs)).trans hhigh)
      exact ⟨hmode'.trans hmode.symm, hsettled'.trans hsettled.symm⟩
    | false =>
      obtain ⟨hmode, hsettled, -⟩ := sniffAll_plain hundecided hudf hhigh
      obtain ⟨hmode', hsettled', -⟩ := sniffAll_plain hundecided hudf ((congrArg high (hcuts qs hqs)).trans hhigh)
      exact ⟨hmode'.trans hmode.symm, hsettled'.trans hsettled.symm⟩

def unopenedRecords : Target :=
  { openRecords with content := { size := 16, format := .vfc, mode := .smart }, handle := none }

def markedRecords : List Bytes :=
  [[5, 0, 0xFF], [0xFE, 65, 66, 67, 0xFD, 0xFF], [0xFF, 3, 0, 0x80, 0x81, 68, 0xFC, 0xFF]]

theorem control_areas_are_not_sniffed :
    ∃ u, unopenedRecords.feedAll markedRecords openedRecords = .ok (u, openedRecords) ∧ u.content.mode = .smart ∧
      u.content.settled = false := by
  obtain ⟨u, v, out, bytes, hsniffed, hwritten, hgrew, -, hplain, -⟩ :=
    sniffing_sees_what_is_written (t := unopenedRecords) (h := ⟨0⟩) (Or.inr rfl) rfl rfl rfl rfl files_openedRecords
      markedRecords
  let written := { unopenedRecords with content := unopenedRecords.content.asBinary, handle := some ⟨0⟩ }.feedAll
    markedRecords openedRecords
  have hfiles : FileSink.files written.state.2 = [⟨"A.B;1", ⟨0⟩, ⟨0⟩, [65, 66, 67, 68]⟩] := by decide +kernel
  have hout : written.state.2 = out := congrArg (fun o => o.state.2) hwritten
  have hdata : FileSink.Grew [65, 66, 67, 68] openedRecords out := ⟨[], _, files_openedRecords, hout ▸ hfiles⟩
  obtain ⟨hsmart, hsettled, -⟩ := hplain (by rw [hgrew.unique hdata]; decide)
  exact ⟨u, hsniffed, hsmart, hsettled⟩

end Target

end SaveSet
