import SaveSet.Proofs.Content.FileEnd

/-! What a stream of records leaves open at the end of a payload. It always fits together, and it ends with the
file, but for a length word or a control area that lies across the end. -/

namespace SaveSet

/-- The carry says where in a record a payload ended, and what is still to come has its place in the file. -/
structure Content.Coherent (c : Content) : Prop where
  skip_le : c.carry.skip ≤ max 1 c.format.controlLength
  between_records : c.carry.lowByte.isSome = true → c.carry.inRecord = false ∧ c.carry.skip = 0
  owed_in_record : 0 < c.carry.owed → c.carry.inRecord = true
  record_goes_on : c.carry.inRecord = true → 0 < c.carry.owed ∨ 0 < c.carry.skip
  data_in_file : 0 < c.carry.owed → c.position + c.carry.skip + c.carry.owed ≤ c.size
  position_le : c.position + c.carry.skip + c.carry.owed ≤ c.size + 1 + c.format.controlLength
  position_le_offset : c.position ≤ c.offset
  position_eq_offset : ¬ (c.size ≤ c.position ∧ c.carry = {}) → c.position = c.offset

namespace ByteMachine

def Phase.Within (size control position : Nat) : Phase → Prop
  | .word => position ≤ size + 1 + control
  | .high _ => position ≤ size
  | .control left _ => left ≤ control ∧ position + left ≤ size + 1 + control
  | .data _ => True
  | .pad => True

structure State.Near (m : ByteMachine) (x : State) : Prop extends State.Sound m x where
  within : x.phase.Within m.size m.control x.position
  counted : x.position = x.offset ∨ x.phase = .word ∧ m.size ≤ x.position ∧ x.position ≤ x.offset

namespace Phase

variable {size control position : Nat} {p : Phase}

lemma skip_le (h : p.Within size control position) : p.carry.skip ≤ max 1 control := by
  cases p with
  | word => exact Nat.zero_le _
  | high low => exact Nat.zero_le _
  | control left owed => exact Nat.le_trans h.1 (Nat.le_max_right 1 _)
  | data owed => exact Nat.zero_le _
  | pad => exact Nat.le_max_left 1 _

lemma between_records (h : p.carry.lowByte.isSome = true) : p.carry.inRecord = false ∧ p.carry.skip = 0 := by
  cases p with
  | word => cases h
  | high low => exact ⟨rfl, rfl⟩
  | control left owed => cases h
  | data owed => cases h
  | pad => cases h

lemma owed_in_record (h : 0 < p.carry.owed) : p.carry.inRecord = true := by
  cases p with
  | word => exact absurd h (Nat.lt_irrefl 0)
  | high low => exact absurd h (Nat.lt_irrefl 0)
  | control left owed => rfl
  | data owed => rfl
  | pad => exact absurd h (Nat.lt_irrefl 0)

lemma record_goes_on (hfits : p.Fits size position) (h : p.carry.inRecord = true) :
    0 < p.carry.owed ∨ 0 < p.carry.skip := by
  cases p with
  | word => cases h
  | high low => cases h
  | control left owed => exact Or.inr hfits.1
  | data owed => exact Or.inl hfits.1
  | pad => cases h

lemma data_in_file (hfits : p.Fits size position) (h : 0 < p.carry.owed) :
    position + p.carry.skip + p.carry.owed ≤ size := by
  cases p with
  | word => exact absurd h (Nat.lt_irrefl 0)
  | high low => exact absurd h (Nat.lt_irrefl 0)
  | control left owed => exact hfits.2.resolve_left (Nat.ne_of_gt h)
  | data owed => exact hfits.2
  | pad => exact absurd h (Nat.lt_irrefl 0)

lemma position_le (hfits : p.Fits size position) (hwithin : p.Within size control position) :
    position + p.carry.skip + p.carry.owed ≤ size + 1 + control := by
  cases p with
  | word => exact hwithin
  | high low =>
    have hbefore : position ≤ size := hwithin
    change position + 0 + 0 ≤ _
    omega
  | control left owed =>
    obtain ⟨-, hroom⟩ := hfits
    obtain ⟨-, hreach⟩ := hwithin
    change position + left + owed ≤ _
    omega
  | data owed =>
    obtain ⟨-, hroom⟩ := hfits
    change position + 0 + owed ≤ _
    omega
  | pad =>
    have hbefore : position < size := hfits
    change position + 1 + 0 ≤ _
    omega

end Phase

variable {m : ByteMachine} {x : State}

lemma within_stop (h : x.position ≤ m.size + 1 + m.control) : (m.stop x).phase.Within m.size m.control x.position := by
  rw [stop]
  dsimp only
  split
  · trivial
  · exact h

lemma within_enter (h : x.position ≤ m.size + 1 + m.control) (owed : Nat) :
    (m.enter owed x).phase.Within m.size m.control x.position := by
  rw [enter]
  split
  · have hput := within_stop (m := m) (x := m.put [] x) (by rwa [position_put])
    rwa [position_put] at hput
  · trivial

lemma within_begin (h : x.position ≤ m.size + 1) (word : Nat) :
    (m.begin word x).phase.Within m.size m.control x.position := by
  have hword : x.position ≤ m.size + 1 + m.control := Nat.le_add_right_of_le h
  rw [begin]
  dsimp only
  split
  · exact hword
  · split
    · exact within_enter hword _
    · exact ⟨Nat.le_refl _, Nat.add_le_add_right h _⟩

lemma done_or_counted (m : ByteMachine) (x : State) :
    (x.phase = .word ∧ m.size ≤ x.position) ∨ (x.phase = .word → x.position < m.size) := by
  by_cases hword : x.phase = .word
  · exact (Nat.lt_or_ge x.position m.size).elim (fun h => .inr fun _ => h) fun h => .inl ⟨hword, h⟩
  · exact .inr fun h => absurd h hword

lemma State.Near.within_step (h : x.Near m) (hcounted : x.phase = .word → x.position < m.size) (b : UInt8) :
    (m.step x b).phase.Within m.size m.control (x.position + 1) := by
  have hfits := h.fits
  have hwithin := h.within
  rw [ByteMachine.step]
  cases hp : x.phase with
  | word =>
    dsimp only
    rw [if_pos (hcounted hp)]
    exact hcounted hp
  | high low =>
    rw [hp] at hwithin
    exact within_begin (x := moved 1 x) (Nat.add_le_add_right hwithin 1) _
  | control left owed =>
    rw [hp] at hfits hwithin
    obtain ⟨hleft, hreach⟩ := hwithin
    have hpos := hfits.1
    dsimp only
    split
    · exact within_enter (x := moved 1 x) (by change x.position + 1 ≤ _; omega) owed
    · exact ⟨by omega, by omega⟩
  | data owed =>
    rw [hp] at hfits
    obtain ⟨howed, hroom⟩ := hfits
    dsimp only
    split
    · have hstop := within_stop (m := m) (x := m.put [b] (moved 1 x)) (by
        rw [position_put]
        change x.position + 1 ≤ _
        omega)
      rwa [position_put] at hstop
    · trivial
  | pad =>
    rw [hp] at hfits
    have hbefore : x.position < m.size := hfits
    change x.position + 1 ≤ _
    omega

lemma State.Near.step (h : x.Near m) (b : UInt8) : (m.step x b).Near m := by
  have hsound := h.toSound.step b
  obtain ⟨hword, hpast⟩ | hcounted := m.done_or_counted x
  · have hdone : m.step x b = { x with offset := x.offset + 1 } := m.run_done hword hpast [b]
    have hle : x.position ≤ x.offset := h.counted.elim Nat.le_of_eq fun hc => hc.2.2
    rw [hdone] at hsound ⊢
    exact ⟨hsound, h.within, .inr ⟨hword, hpast, Nat.le_succ_of_le hle⟩⟩
  · have heq : x.position = x.offset :=
      h.counted.resolve_right fun hc => Nat.not_lt.mpr hc.2.1 (hcounted hc.1)
    have hoffset : (m.step x b).position = (m.step x b).offset := by
      rw [position_step hcounted, offset_step, heq]
    refine ⟨hsound, ?_, .inl hoffset⟩
    rw [position_step hcounted]
    exact h.within_step hcounted b

lemma State.Near.run (h : x.Near m) (bytes : Bytes) : (m.run x bytes).Near m := by
  induction bytes generalizing x with
  | nil => exact h
  | cons b bs ih => exact ih (h.step b)

lemma near_start : State.Near m {} := ⟨⟨trivial, fun _ => rfl⟩, Nat.zero_le _, .inl rfl⟩

end ByteMachine

namespace Content

open ByteMachine

variable {m : ByteMachine} {c : Content} {x : State}

lemma Follows.coherent (h : Follows m c x) (hx : x.Near m) : c.Coherent := by
  have hcontrol : m.control = c.format.controlLength := by rw [← h.machine]; rfl
  have hsize : m.size = c.size := by rw [← h.machine]; rfl
  have hfits := hx.fits
  have hwithin := hx.within
  have hcounted := hx.counted
  rw [hsize, ← h.position] at hfits
  rw [hsize, hcontrol, ← h.position] at hwithin
  rw [hsize, ← h.position, ← h.offset] at hcounted
  constructor
  case skip_le =>
    rw [h.carry]
    exact Phase.skip_le hwithin
  case between_records =>
    rw [h.carry]
    exact Phase.between_records
  case owed_in_record =>
    rw [h.carry]
    exact Phase.owed_in_record
  case record_goes_on =>
    rw [h.carry]
    exact Phase.record_goes_on hfits
  case data_in_file =>
    rw [h.carry]
    exact Phase.data_in_file hfits
  case position_le =>
    rw [h.carry]
    exact Phase.position_le hfits hwithin
  case position_le_offset =>
    exact hcounted.elim Nat.le_of_eq fun hdone => hdone.2.2
  case position_eq_offset =>
    rw [h.carry, Phase.carry_eq_empty_iff]
    intro hgoes
    exact hcounted.resolve_right fun hdone => hgoes ⟨hdone.2.1, hdone.1⟩

end Content

namespace Target

open Content ByteMachine

/-- From the start of a file on, the carry is coherent after every payload, whatever the payloads hold. -/
theorem carry_is_always_coherent {σ : Type} [Sink σ] [FileSink σ] {t : Target} {h : Handle} {s : σ}
    {fs : List OutputFile} {f : OutputFile} (hf : t.content.format.isVariable = true)
    (hm : t.content.mode = .binary ∨ t.content.mode = .ascii) (hh : t.handle = some h)
    (ho : FileSink.IsOpen h s) (hfs : FileSink.files s = fs ++ [f]) (payloads : List Bytes) :
    ∃ u out, Target.feedAll payloads { t with content := t.content.reset } s = .ok (u, out) ∧
      u.content.reset = t.content.reset ∧ u.content.Coherent := by
  have hstart : Reached { t with content := t.content.reset } fs f {} ({ t with content := t.content.reset }, s) :=
    reached_start hf hm rfl hh ho hfs
  obtain ⟨⟨u, out⟩, hfeed, hreached⟩ := hstart.feedAll payloads
  exact ⟨u, out, hfeed, hreached.reset, hreached.follows.coherent (near_start.run payloads.flatten)⟩

def openShort : Target := { openRecords with content := { size := 7, format := .vfc, mode := .ascii } }

theorem carry_behind_the_end_is_coherent :
    ∃ u out, Target.feedAll [[3, 0, 1, 2, 65, 9, 4], [0, 1]] { openShort with content := openShort.content.reset }
        openedRecords = .ok (u, out) ∧
      u.content.reset = openShort.content.reset ∧ u.content.Coherent :=
  carry_is_always_coherent rfl (Or.inr rfl) rfl rfl files_openedRecords [[3, 0, 1, 2, 65, 9, 4], [0, 1]]

end Target

end SaveSet
