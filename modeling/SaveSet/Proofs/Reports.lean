import SaveSet.Proofs.Damage
import SaveSet.Proofs.ReliableSink
import SaveSet.Proofs.Walk.Defects

/-! The damage that a run reports. Every lost block is reported once, in the order of the blocks; only what stands
behind the last record of a save set may go without a word. -/

namespace SaveSet

namespace Geometry

variable (g : Geometry)

def blockCount (bytes : Bytes) : Nat := (bytes.length + g.blockSize - 1) / g.blockSize

def block (bytes : Bytes) (i : Nat) : Bytes := (bytes.drop (i * g.blockSize)).take g.blockSize

lemma block_succ (bytes : Bytes) (i : Nat) : g.block bytes (i + 1) = g.block (bytes.drop g.blockSize) i := by
  rw [block, block, List.drop_drop, Nat.add_mul, Nat.one_mul, Nat.add_comm]

lemma blockCount_cons {bytes : Bytes} (hb : bytes ≠ []) (hg : g.blockSize ≠ 0) :
    g.blockCount bytes = g.blockCount (bytes.drop g.blockSize) + 1 := by
  have hlength : 0 < bytes.length := List.length_pos_iff.mpr hb
  rw [blockCount, blockCount, List.length_drop, ← Nat.add_div_right _ (Nat.pos_of_ne_zero hg)]
  rcases Nat.le_total g.blockSize bytes.length with hle | hle
  · congr 1
    omega
  · rw [Nat.div_eq_of_lt_le (k := 1) (by omega) (by omega), Nat.div_eq_of_lt_le (k := 1) (by omega) (by omega)]

lemma blockCount_drop_eq_zero {bytes : Bytes} (hg : g.blockSize ≠ 0) :
    g.blockCount (bytes.drop g.blockSize) = 0 ↔ bytes.length ≤ g.blockSize := by
  rw [blockCount, List.length_drop, Nat.div_eq_zero_iff]
  omega

lemma blocks_eq_range (bytes : Bytes) (hg : g.blockSize ≠ 0) :
    g.blocks bytes = (List.range (g.blockCount bytes)).map fun i =>
      ⟨g.block bytes i, i + 1 = g.blockCount bytes⟩ := by
  fun_induction g.blocks bytes with
  | case1 bytes h =>
    have hb : bytes = [] := h.resolve_right hg
    have hcount : g.blockCount bytes = 0 := by
      rw [hb, blockCount, Nat.div_eq_zero_iff]
      right
      rw [List.length_nil]
      omega
    rw [hcount]
    rfl
  | case2 bytes h ih =>
    have hb := (not_or.mp h).1
    rw [g.blockCount_cons hb hg, List.range_succ_eq_map, List.map_cons, List.map_map, ih]
    congr 1
    · congr 1
      · rw [block, Nat.zero_mul, List.drop_zero]
      · rw [decide_eq_decide, ← g.blockCount_drop_eq_zero hg]
        omega
    · apply List.map_congr_left
      intro i _
      rw [Function.comp_apply, g.block_succ]
      congr 1
      rw [decide_eq_decide]
      omega

end Geometry

def Defect.report? (detail : Detail) (last : Bool) : Defect → Option Warning
  | .block w => if last then none else some w
  | .record w => if last && detail == .none then none else some w

lemma Defect.warning_of_report {detail : Detail} {last : Bool} {d : Defect} {w : Warning}
    (h : d.report? detail last = some w) : d.warning = w := by
  cases d with
  | block w' =>
    obtain ⟨-, hw⟩ := Option.ite_none_left_eq_some.mp h
    exact Option.some.inj hw
  | record w' =>
    obtain ⟨-, hw⟩ := Option.ite_none_left_eq_some.mp h
    exact Option.some.inj hw

def Geometry.report? (g : Geometry) (detail : Detail) (bytes : Bytes) (i : Nat) : Option Warning :=
  (g.defect? (g.block bytes i)).bind (Defect.report? detail (i + 1 = g.blockCount bytes))

def PlacedEvent.report? (detail : Detail) (e : PlacedEvent) : Option Warning :=
  e.event.defect?.bind (Defect.report? detail e.last)

def Warning.isDamage (w : Warning) : Bool := !w.isIncomplete

namespace Passage

def unfinished (o : Options) (ms : List Member) : Passage → List Warning
  | member m => if o.extract && o.wants ms m then Session.shortfall m.key (m.ended o ms) else []
  | badRecord _ _ | badBlock _ _ => []

def damage (detail : Detail) : Passage → List Warning
  | member _ => []
  | badRecord w last => ((Defect.record w).report? detail last).toList
  | badBlock w last => ((Defect.block w).report? detail last).toList

lemma warned_eq (o : Options) (ms : List Member) (p : Passage) :
    p.warned o ms = p.unfinished o ms ++ p.damage o.detail := by
  cases p with
  | member m => exact (List.append_nil _).symm
  | badRecord w last =>
    change (if (!(last && o.detail == .none)) then [w] else []) =
      (if last && o.detail == .none then none else some w).toList
    cases last && o.detail == .none <;> rfl
  | badBlock w last => cases last <;> rfl

lemma unfinished_listing {o : Options} (hx : o.extract = false) (ms : List Member) (p : Passage) :
    p.unfinished o ms = [] := by
  cases p with
  | member m => simp [unfinished, hx]
  | badRecord w last => rfl
  | badBlock w last => rfl

lemma filter_unfinished (o : Options) (ms : List Member) (p : Passage) :
    (p.unfinished o ms).filter Warning.isDamage = [] := by
  cases p with
  | member m =>
    rw [unfinished, Session.shortfall]
    split
    · split <;> rfl
    · rfl
  | badRecord w last => rfl
  | badBlock w last => rfl

lemma flatMap_damage (detail : Detail) (es : List PlacedEvent) :
    (passages es).flatMap (damage detail) = es.flatMap fun e => (e.report? detail).toList := by
  induction es with
  | nil => rfl
  | cons e es ih =>
    rcases e with ⟨e, last⟩
    cases e with
    | idle => exact ih
    | boundary => exact ih
    | data p => exact ih
    | file a flags => exact ih
    | badRecord w => exact congrArg (((Defect.record w).report? detail last).toList ++ ·) ih
    | badBlock w => exact congrArg (((Defect.block w).report? detail last).toList ++ ·) ih

end Passage

namespace Geometry

variable (g : Geometry) {bytes : Bytes} {detail : Detail} {i : Nat}

lemma flatMap_report (detail : Detail) (b : Block) :
    ((b.events g).flatMap fun e => (e.report? detail).toList) =
      ((g.defect? b.bytes).bind (Defect.report? detail b.last)).toList := by
  have hevents : ((b.events g).flatMap fun e => (e.report? detail).toList) =
      ((readBlock g b.bytes).events.filterMap Event.defect?).filterMap (Defect.report? detail b.last) := by
    rw [List.filterMap_filterMap, List.filterMap_eq_flatMap_toList, Block.events, List.flatMap_map]
    rfl
  rw [hevents, filterMap_defect]
  cases g.defect? b.bytes with
  | none => rfl
  | some d => exact List.filterMap_eq_flatMap_toList _ _ |>.trans (by simp)

def reports (detail : Detail) (bytes : Bytes) : List Warning :=
  (List.range (g.blockCount bytes)).filterMap (g.report? detail bytes)

lemma flatMap_damage (hg : g.blockSize ≠ 0) (detail : Detail) (bytes : Bytes) :
    (passages (g.events bytes)).flatMap (Passage.damage detail) = g.reports detail bytes := by
  rw [Passage.flatMap_damage, events, List.flatMap_assoc, g.blocks_eq_range bytes hg, List.flatMap_map, reports,
    List.filterMap_eq_flatMap_toList]
  congr 1
  funext i
  exact g.flatMap_report detail _

variable {g}

lemma suffers_of_report {w : Warning} (h : g.report? detail bytes i = some w) :
    ∃ d, g.Suffers (g.block bytes i) d ∧ d.warning = w := by
  obtain ⟨d, hd, hw⟩ := Option.bind_eq_some_iff.mp h
  exact ⟨d, g.suffers_of_defect _ hd, Defect.warning_of_report hw⟩

lemma filter_reports : (g.reports detail bytes).filter Warning.isDamage = g.reports detail bytes := by
  apply List.filter_eq_self.mpr
  intro w hw
  obtain ⟨i, -, hi⟩ := List.mem_filterMap.mp hw
  obtain ⟨d, hd, rfl⟩ := suffers_of_report hi
  rw [Warning.isDamage, hd.isIncomplete]
  rfl

def IsHeaded (g : Geometry) (bytes : Bytes) : Prop :=
  ∃ h, BlockHeader.decode bytes = .ok h ∧ h.isCompatible g.blockSize = true

lemma Suffers.not_headed {w : Warning} (h : g.Suffers bytes (.block w)) : ¬ g.IsHeaded bytes := by
  rintro ⟨header, hdecode, hcompatible⟩
  rcases h with ⟨hshort, -⟩ | ⟨header', hdecode', hzero, hother, -⟩
  · exact absurd (BlockHeader.length_of_decode hdecode) (Nat.not_le_of_lt hshort)
  · cases hdecode.symm.trans hdecode'
    simp [BlockHeader.isCompatible, hzero, hother] at hcompatible

lemma unsound_iff : (readBlock g bytes).sound = false ↔ ∃ d, g.defect? bytes = some d := by
  rw [sound_iff, Option.isNone_eq_false_iff, Option.isSome_iff_exists]

lemma report_inner (hi : i + 1 < g.blockCount bytes) :
    g.report? detail bytes i = (g.defect? (g.block bytes i)).map Defect.warning := by
  rw [report?, decide_eq_false (Nat.ne_of_lt hi)]
  cases g.defect? (g.block bytes i) with
  | none => rfl
  | some d => cases d <;> rfl

lemma report_inner_iff (hi : i + 1 < g.blockCount bytes) :
    (g.report? detail bytes i).isSome = true ↔ (readBlock g (g.block bytes i)).sound = false := by
  rw [report_inner hi, Option.isSome_map, unsound_iff, Option.isSome_iff_exists]

lemma report_last_iff (hi : i + 1 = g.blockCount bytes) :
    (g.report? detail bytes i).isSome = true ↔
      detail ≠ .none ∧ g.IsHeaded (g.block bytes i) ∧ (readBlock g (g.block bytes i)).sound = false := by
  rw [report?, decide_eq_true hi, unsound_iff]
  cases hd : g.defect? (g.block bytes i) with
  | none => simp
  | some d =>
    have hsuffers := g.suffers_of_defect _ hd
    cases d with
    | block w => simp [Defect.report?, hsuffers.not_headed]
    | record w =>
      have hheaded : g.IsHeaded (g.block bytes i) := hsuffers.1
      cases detail <;> simp [Defect.report?, hheaded]

lemma blockSize_of_framing {header : BlockHeader} (h : framing bytes = .ok header) :
    (ofHeader header).blockSize ≠ 0 := by
  obtain ⟨-, -, hframed⟩ := framing_ok_iff.mp ⟨header, h, rfl⟩
  rw [isFramed, Bool.and_assoc, Bool.and_eq_true_iff] at hframed
  exact bne_iff_ne.mp hframed.1

end Geometry

namespace Options

variable (o : Options) {header : BlockHeader} {bytes : Bytes}

lemma filter_warnings (hf : framing bytes = .ok header) :
    (o.summary header (header.passages bytes)).warnings.filter Warning.isDamage =
      (Geometry.ofHeader header).reports o.detail bytes := by
  rw [← Geometry.filter_reports, ← Geometry.flatMap_damage _ (Geometry.blockSize_of_framing hf), summary,
    List.filter_flatMap, List.filter_flatMap]
  apply List.flatMap_congr
  intro p _
  rw [Passage.warned_eq, List.filter_append, Passage.filter_unfinished, List.nil_append]

lemma warnings_listing (hx : o.extract = false) (hf : framing bytes = .ok header) :
    (o.summary header (header.passages bytes)).warnings = (Geometry.ofHeader header).reports o.detail bytes := by
  rw [← Geometry.flatMap_damage _ (Geometry.blockSize_of_framing hf)]
  apply List.flatMap_congr
  intro p _
  rw [Passage.warned_eq, Passage.unfinished_listing hx, List.nil_append]

end Options

variable {σ : Type} [Sink σ] [ReliableSink σ]

/-- However many passes a run takes, it reports each damaged block once and in its place: those before the last one in
any case, and the last one if details are asked for and it is a record of it that is lost. -/
theorem damage_is_reported_once {o : Options} {r : Reader} (hr : r.Reliable) {s : σ} {summary : Summary}
    (h : (run o r s).result = .ok summary) :
    ∃ header, framing r.rest = .ok header ∧ ∃ g, g = Geometry.ofHeader header ∧
      summary.warnings.filter Warning.isDamage =
        (List.range (g.blockCount r.rest)).filterMap (g.report? o.detail r.rest) ∧
      (∀ i, i + 1 < g.blockCount r.rest →
        ((g.report? o.detail r.rest i).isSome = true ↔ (readBlock g (g.block r.rest i)).sound = false)) ∧
      (∀ i, i + 1 = g.blockCount r.rest →
        ((g.report? o.detail r.rest i).isSome = true ↔
          o.detail ≠ .none ∧ g.IsHeaded (g.block r.rest i) ∧ (readBlock g (g.block r.rest i)).sound = false)) ∧
      ∀ i w, g.report? o.detail r.rest i = some w → ∃ d, g.Suffers (g.block r.rest i) d ∧ d.warning = w := by
  obtain ⟨header, hf, rfl⟩ := framed_of_ok hr h
  refine ⟨header, hf, _, rfl, ?_, ?_, ?_, ?_⟩
  · exact o.filter_warnings hf
  · intro i hi
    exact Geometry.report_inner_iff hi
  · intro i hi
    exact Geometry.report_last_iff hi
  · intro i w hw
    exact Geometry.suffers_of_report hw

def lostBlock : Bytes := List.replicate 256 0 ++ List.replicate 124 0x55

def readTwoLost : Reader := .ofBytes (twoLetters.encode ++ (lostBlock ++ lostBlock)) 0 .prompt

def lostPayload : Warning := .truncated ⟨"record payload", 0x5555, 108⟩

lemma framed_twoLost : ∃ h, framing readTwoLost.rest = .ok h ∧ Geometry.ofHeader h = letterShape :=
  framing_ok_iff.mpr ⟨by decide +kernel, by decide +kernel, by decide +kernel⟩

theorem two_lost_blocks_are_reported :
    (∃ summary, (run allVersions readTwoLost ({} : MemorySink)).result = .ok summary ∧
        summary.warnings.filter Warning.isDamage = [lostPayload]) ∧
      ∃ summary, (run { allVersions with detail := .basic } readTwoLost ({} : MemorySink)).result = .ok summary ∧
        summary.warnings.filter Warning.isDamage = [lostPayload, lostPayload] := by
  obtain ⟨header, hf, hshape⟩ := framed_twoLost
  have hreliable : readTwoLost.Reliable := Reader.reliable_ofBytes _ _
  have hreported (detail : Detail) : ∃ summary,
      (run { allVersions with detail } readTwoLost ({} : MemorySink)).result = .ok summary ∧
        summary.warnings.filter Warning.isDamage =
          (List.range (letterShape.blockCount readTwoLost.rest)).filterMap
            (letterShape.report? detail readTwoLost.rest) := by
    have hok := summary_framed { allVersions with detail } hreliable ({} : MemorySink) hf
    refine ⟨_, hok, ?_⟩
    obtain ⟨header', hf', g, rfl, hwarnings, -⟩ := damage_is_reported_once hreliable hok
    cases hf.symm.trans hf'
    rw [hwarnings, hshape]
  refine ⟨?_, ?_⟩
  · obtain ⟨summary, hok, hwarnings⟩ := hreported .none
    exact ⟨summary, hok, hwarnings.trans (by decide +kernel)⟩
  · obtain ⟨summary, hok, hwarnings⟩ := hreported .basic
    exact ⟨summary, hok, hwarnings.trans (by decide +kernel)⟩

end SaveSet
