import SaveSet.Proofs.Content.Partitions

/-! The end of a file. Data and pads lie before it. A length word or a control area may lie across it, though, and
then bytes behind the end make an empty record of it. -/

namespace SaveSet

namespace ByteMachine

def Phase.Fits (size position : Nat) : Phase → Prop
  | .word => True
  | .high _ => True
  | .control left owed => 0 < left ∧ (owed = 0 ∨ position + left + owed ≤ size)
  | .data owed => 0 < owed ∧ position + owed ≤ size
  | .pad => position < size

structure State.Sound (m : ByteMachine) (x : State) : Prop where
  fits : x.phase.Fits m.size x.position
  unheld : m.text = false → x.pending = false

variable {m : ByteMachine} {x : State}

lemma unheld_put (data : Bytes) (h : m.text = false) : (m.put data x).pending = false := by
  rw [put, h]
  rfl

lemma sound_stop (data : Bytes) : (m.stop (m.put data x)).Sound m where
  fits := by
    rw [stop]
    dsimp only
    split
    · next hpad =>
      exact hpad.2
    · trivial
  unheld := unheld_put data

lemma sound_enter {owed : Nat} (hfits : owed = 0 ∨ x.position + owed ≤ m.size)
    (hunheld : m.text = false → x.pending = false) : (m.enter owed x).Sound m := by
  rw [enter]
  split
  · exact sound_stop []
  · next howed =>
    exact ⟨⟨Nat.pos_of_ne_zero howed, hfits.resolve_left howed⟩, hunheld⟩

lemma sound_begin (word : Nat) (hunheld : m.text = false → x.pending = false) : (m.begin word x).Sound m := by
  rw [begin]
  dsimp only
  split
  · exact ⟨trivial, hunheld⟩
  · split
    · exact sound_enter (by omega) hunheld
    · next hcontrol =>
      exact ⟨⟨Nat.pos_of_ne_zero hcontrol, by change _ ∨ x.position + _ + _ ≤ _; omega⟩, hunheld⟩

lemma State.Sound.step (h : x.Sound m) (b : UInt8) : (m.step x b).Sound m := by
  have hfits := h.fits
  rw [ByteMachine.step]
  cases hp : x.phase with
  | word =>
    dsimp only
    split
    · exact ⟨trivial, h.unheld⟩
    · exact ⟨trivial, h.unheld⟩
  | high low => exact sound_begin _ h.unheld
  | control left owed =>
    rw [hp] at hfits
    obtain ⟨hleft, hroom⟩ := hfits
    dsimp only
    split
    · refine sound_enter ?_ h.unheld
      change _ ∨ x.position + 1 + _ ≤ _
      omega
    · refine ⟨⟨by omega, ?_⟩, h.unheld⟩
      change _ ∨ x.position + 1 + _ + _ ≤ _
      omega
  | data owed =>
    rw [hp] at hfits
    obtain ⟨howed, hroom⟩ := hfits
    dsimp only
    split
    · exact sound_stop [b]
    · refine ⟨⟨by omega, ?_⟩, unheld_put [b]⟩
      change (m.put [b] (moved 1 x)).position + _ ≤ _
      rw [position_put]
      change x.position + 1 + _ ≤ _
      omega
  | pad => exact ⟨trivial, h.unheld⟩

lemma State.Sound.run (h : x.Sound m) (bytes : Bytes) : (m.run x bytes).Sound m := by
  induction bytes generalizing x with
  | nil => exact h
  | cons b bs ih => exact ih (h.step b)

lemma position_step (h : x.phase = .word → x.position < m.size) (b : UInt8) :
    (m.step x b).position = x.position + 1 := by
  rw [step]
  split
  · next hword =>
    rw [if_pos (h hword)]
    rfl
  · exact position_begin m _ _
  · split
    · exact position_enter m _ _
    · rfl
  · split
    · exact position_put m _ _
    · exact position_put m _ _
  · rfl

lemma position_run {bytes : Bytes} (h : x.position + bytes.length ≤ m.size) :
    (m.run x bytes).position = x.position + bytes.length := by
  induction bytes generalizing x with
  | nil => rfl
  | cons b bs ih =>
    rw [List.length_cons] at h ⊢
    have hstep := position_step (m := m) (x := x) (fun _ => by omega) b
    rw [run_cons, ih (by omega), hstep, Nat.add_assoc, Nat.add_comm 1]

lemma total_blank (hunheld : m.text = false → x.pending = false) :
    (m.stop (m.put [] x)).total = x.total ++ if m.text then LineEnds.hostEnd else [] := by
  rcases x with ⟨phase, position, offset, pending, lastEnded, out⟩
  rw [stop, put]
  cases ht : m.text with
  | true => cases pending <;> simp [State.total]
  | false =>
    obtain rfl : pending = false := hunheld ht
    simp [State.total]

lemma total_run_blank (hpast : m.size ≤ x.position) (hunheld : m.text = false → x.pending = false)
    (bytes : Bytes) : (m.run (m.enter 0 x) bytes).total = x.total ++ if m.text then LineEnds.hostEnd else [] := by
  have hposition : m.size ≤ (m.stop (m.put [] x)).position := (position_put m [] x).symm ▸ hpast
  have hword : (m.stop (m.put [] x)).phase = .word := if_neg fun h => Nat.not_lt.mpr hposition h.2
  rw [enter, if_pos rfl, m.run_done hword hposition]
  exact total_blank hunheld

lemma begin_past {word : Nat} (hw : word ≠ Content.sentinel) (hpast : m.size ≤ x.position) :
    m.begin word x = if m.control = 0 then m.enter 0 x else goTo (.control m.control 0) x := by
  have howed : min (word - m.control) (m.size - (x.position + m.control)) = 0 := by omega
  rw [begin, if_neg hw, howed]

lemma State.Sound.phase_past (h : x.Sound m) (hpast : m.size ≤ x.position) :
    x.phase = .word ∨ (∃ low, x.phase = .high low) ∨ ∃ left, 0 < left ∧ x.phase = .control left 0 := by
  have hfits := h.fits
  cases hp : x.phase with
  | word => exact Or.inl rfl
  | high low => exact Or.inr (Or.inl ⟨low, rfl⟩)
  | control left owed =>
    rw [hp] at hfits
    obtain ⟨hleft, hroom⟩ := hfits
    obtain rfl : owed = 0 := hroom.resolve_right (by omega)
    exact Or.inr (Or.inr ⟨left, hleft, rfl⟩)
  | data owed =>
    rw [hp] at hfits
    obtain ⟨howed, hroom⟩ := hfits
    omega
  | pad =>
    rw [hp] at hfits
    exact absurd hpast (Nat.not_le.mpr hfits)

lemma total_run_past (h : x.Sound m) (hpast : m.size ≤ x.position) (bytes : Bytes) :
    (m.run x bytes).total = x.total ∨
      x.phase ≠ .word ∧ (m.run x bytes).total = x.total ++ if m.text then LineEnds.hostEnd else [] := by
  induction bytes generalizing x with
  | nil => exact Or.inl rfl
  | cons b bs ih =>
    have hnext : m.size ≤ (moved 1 x).position := Nat.le_add_right_of_le hpast
    have hsound := h.step b
    rcases h.phase_past hpast with hp | ⟨low, hp⟩ | ⟨left, hleft, hp⟩
    · rw [m.run_done hp hpast]
      exact Or.inl rfl
    · -- The word starts a record without data, if it is no sentinel.
      have hstep : m.step x b = m.begin (Bytes.toNat [low, b]) (moved 1 x) := by rw [step, hp]
      have hword : x.phase ≠ .word := by simp [hp]
      rw [run_cons, hstep]
      rw [hstep] at hsound
      by_cases hw : Bytes.toNat [low, b] = Content.sentinel
      · rw [begin, if_pos hw, m.run_done (s := goTo .word (moved 1 x)) rfl hnext]
        exact Or.inl rfl
      rw [begin_past hw hnext] at hsound ⊢
      by_cases hcontrol : m.control = 0
      · rw [if_pos hcontrol]
        exact Or.inr ⟨hword, total_run_blank hnext h.unheld bs⟩
      · rw [if_neg hcontrol] at hsound ⊢
        exact (ih hsound hnext).imp_right fun hmore => ⟨hword, hmore.2⟩
    · have hstep : m.step x b =
          if left ≤ 1 then m.enter 0 (moved 1 x) else goTo (.control (left - 1) 0) (moved 1 x) := by rw [step, hp]
      have hword : x.phase ≠ .word := by simp [hp]
      rw [run_cons, hstep]
      rw [hstep] at hsound
      by_cases hlast : left ≤ 1
      · rw [if_pos hlast]
        exact Or.inr ⟨hword, total_run_blank hnext h.unheld bs⟩
      · rw [if_neg hlast] at hsound ⊢
        exact (ih hsound hnext).imp_right fun hmore => ⟨hword, hmore.2⟩

lemma exists_total_blank (h : x.Sound m) (hpast : m.size ≤ x.position) (hword : x.phase ≠ .word) :
    ∃ bytes, (m.run x bytes).total = x.total ++ if m.text then LineEnds.hostEnd else [] := by
  have hnext : ∀ n, m.size ≤ (moved n x).position := fun n => Nat.le_add_right_of_le hpast
  rcases h.phase_past hpast with hp | ⟨low, hp⟩ | ⟨left, hleft, hp⟩
  · exact absurd hp hword
  · -- Whatever the first byte of the word is, a zero does not make a sentinel of it.
    have hlow : Bytes.toNat [low, 0] ≠ Content.sentinel := by
      have := low.toNat_lt
      rw [Bytes.toNat, Bytes.toNat, Bytes.toNat, Content.sentinel, UInt8.toNat_zero]
      omega
    have hstep : m.step x 0 = m.begin (Bytes.toNat [low, 0]) (moved 1 x) := by rw [step, hp]
    refine ⟨0 :: List.replicate m.control 0, ?_⟩
    rw [run_cons, hstep, begin_past hlow (hnext 1), m.run_area List.length_replicate, moved_moved]
    exact total_run_blank (hnext _) h.unheld []
  · refine ⟨List.replicate left 0, ?_⟩
    rw [m.run_control_all hp hleft List.length_replicate]
    exact total_run_blank (hnext left) h.unheld []

lemma sound_file {file : Bytes} (hsize : file.length = m.size) :
    (m.run {} file).Sound m ∧ m.size ≤ (m.run {} file).position := by
  have hsound : State.Sound m {} := ⟨trivial, fun _ => rfl⟩
  have hposition : (m.run {} file).position = 0 + file.length :=
    position_run (Nat.le_of_eq ((Nat.zero_add _).trans hsize))
  exact ⟨hsound.run file, by omega⟩

lemma Phase.carry_eq_empty_iff (p : Phase) : p.carry = {} ↔ p = .word := by
  cases p <;> simp [Phase.carry]

end ByteMachine

lemma Content.text_machine_iff {c : Content} : c.machine.text = true ↔ c.mode = .ascii := beq_iff_eq

namespace Target

open Content ByteMachine

variable {σ : Type} [Sink σ] [FileSink σ] {t : Target} {h : Handle} {s : σ} {fs : List OutputFile} {f : OutputFile}
  {file : Bytes}

lemma Reached.carry_feed (hstart : Reached t fs f {} (t, s)) (payload : Bytes) :
    (t.content.feed true payload).value.carry = {} ↔ (t.content.machine.run {} payload).phase = .word := by
  obtain ⟨-, hfollows⟩ := follows_feedRecords hstart.follows payload
  rw [hstart.framed.feed_eq, hfollows.carry]
  exact Phase.carry_eq_empty_iff _

lemma Reached.writes_file (hstart : Reached t fs f {} (t, s)) (hsize : file.length = t.content.size) {ps : List Bytes}
    (hps : file <+: ps.flatten) :
    t.Writes s ps (t.content.machine.run {} file).total ∨
      t.content.mode = .ascii ∧ (t.content.machine.run {} file).phase ≠ .word ∧
        t.Writes s ps ((t.content.machine.run {} file).total ++ LineEnds.hostEnd) := by
  obtain ⟨hsound, hpast⟩ := sound_file (m := t.content.machine) hsize
  obtain ⟨extra, hextra⟩ := hps
  have hwrites := hstart.writes rfl ps
  rw [← hextra, run_append] at hwrites
  rcases total_run_past hsound hpast extra with hsame | ⟨hword, hmore⟩
  · rw [hsame] at hwrites
    exact Or.inl hwrites
  · rw [hmore] at hwrites
    by_cases htext : t.content.machine.text = true
    · rw [if_pos htext] at hwrites
      exact Or.inr ⟨text_machine_iff.mp htext, hword, hwrites⟩
    · rw [if_neg htext, List.append_nil] at hwrites
      exact Or.inl hwrites

lemma Reached.exists_writes_more (hstart : Reached t fs f {} (t, s)) (hsize : file.length = t.content.size)
    (hascii : t.content.mode = .ascii) (hword : (t.content.machine.run {} file).phase ≠ .word) :
    ∃ extra, t.Writes s [file ++ extra] ((t.content.machine.run {} file).total ++ LineEnds.hostEnd) := by
  obtain ⟨hsound, hpast⟩ := sound_file (m := t.content.machine) hsize
  obtain ⟨extra, hextra⟩ := exists_total_blank hsound hpast hword
  have hwrites := hstart.writes rfl [file ++ extra]
  rw [List.flatten_singleton, run_append, hextra, if_pos (text_machine_iff.mpr hascii)] at hwrites
  exact ⟨extra, hwrites⟩

/-- In text, bytes behind the end of the file may add a line end to it, and nothing else. That cannot happen in
binary, nor if nothing is cut at the end of the file; else it can. -/
theorem bytes_behind_the_end (hf : t.content.format.isVariable = true)
    (hm : t.content.mode = .binary ∨ t.content.mode = .ascii) (hfresh : t.content = t.content.reset)
    (hh : t.handle = some h) (ho : FileSink.IsOpen h s) (hfs : FileSink.files s = fs ++ [f])
    (hsize : file.length = t.content.size) :
    ((∀ ps qs : List Bytes, file <+: ps.flatten → file <+: qs.flatten →
        ∃ bytes, t.Writes s ps bytes ∧ t.Writes s qs bytes) ↔
      t.content.mode = .binary ∨ (t.content.feed true file).value.carry = {}) ∧
    ∃ bytes, t.Writes s [file] bytes ∧ ∀ ps : List Bytes, file <+: ps.flatten →
      t.Writes s ps bytes ∨ t.content.mode = .ascii ∧ t.Writes s ps (bytes ++ LineEnds.hostEnd) := by
  have hstart := reached_start hf hm hfresh hh ho hfs
  have hfile := hstart.writes rfl [file]
  rw [List.flatten_singleton] at hfile
  refine ⟨⟨fun hsame => ?_, fun hcut ps qs hps hqs => ?_⟩, _, hfile, fun ps hps => ?_⟩
  · refine hm.imp_right fun hascii => (hstart.carry_feed file).mpr ?_
    apply Classical.byContradiction
    intro hword
    obtain ⟨extra, hmore⟩ := hstart.exists_writes_more hsize hascii hword
    obtain ⟨bytes, hone, htwo⟩ := hsame [file] [file ++ extra] (by simp) (by simp)
    have hlength := congrArg List.length ((hone.unique hfile).symm.trans (htwo.unique hmore))
    simp [LineEnds.hostEnd] at hlength
  · have honly : ∀ ps : List Bytes, file <+: ps.flatten → t.Writes s ps (t.content.machine.run {} file).total := by
      intro ps hps
      apply (hstart.writes_file hsize hps).resolve_right
      rintro ⟨hascii, hword, -⟩
      rcases hcut with hbinary | hnone
      · exact absurd (hbinary.symm.trans hascii) (by decide)
      · exact hword ((hstart.carry_feed file).mp hnone)
    exact ⟨_, honly ps hps, honly qs hqs⟩
  · exact (hstart.writes_file hsize hps).imp_right fun hmore => ⟨hmore.1, hmore.2.2⟩

def oddFile : Bytes := [2, 0, 97, 98, 5]

def openOdd : Target := { openRecords with content := { size := 5, format := .var, mode := .ascii } }

theorem bytes_behind_an_odd_end :
    ((∀ ps qs : List Bytes, oddFile <+: ps.flatten → oddFile <+: qs.flatten →
        ∃ bytes, openOdd.Writes openedRecords ps bytes ∧ openOdd.Writes openedRecords qs bytes) ↔
      openOdd.content.mode = .binary ∨ (openOdd.content.feed true oddFile).value.carry = {}) ∧
    ∃ bytes, openOdd.Writes openedRecords [oddFile] bytes ∧ ∀ ps : List Bytes, oddFile <+: ps.flatten →
      openOdd.Writes openedRecords ps bytes ∨
        openOdd.content.mode = .ascii ∧ openOdd.Writes openedRecords ps (bytes ++ LineEnds.hostEnd) :=
  bytes_behind_the_end rfl (Or.inr rfl) rfl rfl rfl files_openedRecords rfl

theorem a_byte_behind_an_odd_end_adds_a_line :
    oddFile.length = openOdd.content.size ∧ openOdd.Writes openedRecords [oddFile] [97, 98, 10] ∧
      openOdd.Writes openedRecords [oddFile ++ [0]] [97, 98, 10, 10] ∧
      ([97, 98, 10] : Bytes) ≠ [97, 98, 10, 10] := by
  have hstart : Reached openOdd [] (.ofRequest ⟨"A.B;1", ⟨0⟩, ⟨0⟩⟩) {} (openOdd, openedRecords) :=
    reached_start rfl (Or.inr rfl) rfl rfl rfl files_openedRecords
  exact ⟨rfl, hstart.writes rfl [oddFile], hstart.writes rfl [oddFile ++ [0]], by decide⟩

end Target

end SaveSet
