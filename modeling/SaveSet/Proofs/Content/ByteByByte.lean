import SaveSet.Proofs.Content.ByteMachine
import SaveSet.Proofs.Content.Payloads

/-! Writing a stream of records makes the steps of the byte machine. What a cut leaves open in the carry
is the phase that the machine is in. -/

namespace SaveSet

namespace ByteMachine

def Phase.carry : Phase → Carry
  | .word => {}
  | .high low => { lowByte := some low }
  | .control left owed => { skip := left, owed, inRecord := true }
  | .data owed => { owed, inRecord := true }
  | .pad => { skip := 1 }

def Phase.Proper : Phase → Prop
  | .control left _ => 0 < left
  | .data owed => 0 < owed
  | _ => True

structure Level (c : Content) (s : State) : Prop where
  position : c.position = s.position
  pending : c.lines.pending = s.pending
  lastEnded : c.lines.lastEnded = s.lastEnded

structure Tracks (c : Content) (s : State) : Prop extends Level c s where
  carry : c.carry = s.phase.carry
  proper : s.phase.Proper

end ByteMachine

namespace Content

open ByteMachine

def machine (c : Content) : ByteMachine := ⟨c.size, c.format.controlLength, c.mode == .ascii⟩

lemma machine_of_reset {c d : Content} (h : d.reset = c.reset) : d.machine = c.machine := by
  have hm : d.reset.machine = c.reset.machine := by rw [h]
  exact hm

variable {m : ByteMachine} {c : Content} {s s₁ : State} {before rest : Bytes} {start used owed : Nat}

structure Reaches (m : ByteMachine) (before : Bytes) (s : State) (e : Emission Content) : Prop where
  out : s.out = before ++ e.bytes
  tracks : Tracks e.value s
  machine : e.value.machine = m

def Advances (m : ByteMachine) (before : Bytes) (s : State) (rest : Bytes)
    (e : Emission (Content × Option Nat)) : Prop :=
  match e.value.2 with
  | none => Reaches m before (m.run s rest) (e.map Prod.fst)
  | some used => used ≤ rest.length ∧ Reaches m before (m.run s (rest.take used)) (e.map Prod.fst) ∧
    ((m.run s (rest.take used)).phase = .word ∨ rest.drop used = [])

lemma Reaches.silent (h : Tracks c s) (hm : c.machine = m) : Reaches m s.out s (.silent c) :=
  ⟨(List.append_nil _).symm, h, hm⟩

lemma Reaches.andThen {α : Type} {e : Emission α} {f : α → Emission Content}
    (h : Reaches m (before ++ e.bytes) s (f e.value)) : Reaches m before s (e.andThen f) where
  out := by rw [Emission.bytes_andThen, ← List.append_assoc, h.out]
  tracks := h.tracks
  machine := h.machine

lemma Advances.andThen {α : Type} {e : Emission α} {f : α → Emission (Content × Option Nat)}
    (h : Advances m (before ++ e.bytes) s rest (f e.value)) : Advances m before s rest (e.andThen f) := by
  rw [Advances] at h ⊢
  rw [Emission.value_andThen]
  cases hv : (f e.value).value.2 with
  | none =>
    rw [hv] at h
    exact Reaches.andThen (f := fun a => (f a).map Prod.fst) h
  | some used =>
    rw [hv] at h
    exact ⟨h.1, Reaches.andThen (f := fun a => (f a).map Prod.fst) h.2.1, h.2.2⟩

lemma Advances.shift {n : Nat} (hn : n ≤ rest.length) {e : Emission (Content × Option Nat)}
    (h : Advances m before (m.run s (rest.take n)) (rest.drop n) e) :
    Advances m before s rest (e.map fun r => (r.1, r.2.map (n + ·))) := by
  rcases e with ⟨ws, d, _ | used⟩
  · change Reaches m before (m.run (m.run s (rest.take n)) (rest.drop n)) ⟨ws, d⟩ at h
    rw [← run_append, List.take_append_drop] at h
    exact h
  · obtain ⟨hu, hr, hp⟩ := h
    have htake : m.run (m.run s (rest.take n)) ((rest.drop n).take used) = m.run s (rest.take (n + used)) := by
      rw [← run_append, List.take_add]
    rw [htake] at hr hp
    rw [List.length_drop] at hu
    rw [List.drop_drop] at hp
    exact ⟨Nat.add_le_of_le_sub' hn hu, hr, hp⟩

lemma endRecord_stop (hl : Level c s₁) (hm : c.machine = m) :
    (c.endRecord true).value = c ∧ (m.stop s₁).out = s₁.out ++ (c.endRecord true).bytes := by
  have htext : m.text = (c.mode == .ascii) := by rw [← hm]; rfl
  rw [stop, htext, ← hl.lastEnded, endRecord, Bool.true_and]
  cases c.mode == .ascii && !c.lines.lastEnded with
  | true => exact ⟨rfl, rfl⟩
  | false => exact ⟨rfl, (List.append_nil _).symm⟩

lemma advances_pad (hrun : m.run s (rest.take used) = m.stop s₁) (hc : c.carry = {}) (hl : Level c s₁)
    (hm : c.machine = m) (hs : s₁.offset = start + used) (hu : used ≤ rest.length) :
    Advances m (m.stop s₁).out s rest (.silent (c.pad start used rest)) := by
  have hsize : m.size = c.size := by rw [← hm]; rfl
  rw [pad]
  split
  · next hodd =>
    have hphase : (m.stop s₁).phase = .pad := if_pos (by rw [hs, hsize, ← hl.position]; exact hodd)
    split
    · next b tail hdrop =>
      have hrun' : m.run s (rest.take (used + 1)) = goTo .word (ByteMachine.moved 1 (m.stop s₁)) := by
        rw [List.take_add, hdrop, run_append, hrun]
        change m.step (m.stop s₁) b = _
        rw [step, hphase]
      have hlen : used + 1 ≤ rest.length := by
        have := congrArg List.length hdrop
        rw [List.length_drop, List.length_cons] at this
        omega
      refine ⟨hlen, ?_, Or.inl ?_⟩
      · rw [hrun']
        exact ⟨(List.append_nil _).symm, ⟨⟨congrArg (· + 1) hl.position, hl.pending, hl.lastEnded⟩, hc, trivial⟩, hm⟩
      · rw [hrun']
        rfl
    · next hdrop =>
      refine ⟨hu, ?_, Or.inr hdrop⟩
      rw [hrun]
      refine ⟨(List.append_nil _).symm, ⟨⟨hl.position, hl.pending, hl.lastEnded⟩, ?_, ?_⟩, hm⟩
      · rw [hphase]
        exact congrArg (fun x : Carry => { x with skip := 1 }) hc
      · rw [hphase]
        trivial
  · next heven =>
    have hphase : (m.stop s₁).phase = .word := if_neg (by rw [hs, hsize, ← hl.position]; exact heven)
    refine ⟨hu, ?_, Or.inl (hrun ▸ hphase)⟩
    rw [hrun]
    refine ⟨(List.append_nil _).symm, ⟨⟨hl.position, hl.pending, hl.lastEnded⟩, ?_, ?_⟩, hm⟩
    · rw [hphase]
      exact hc
    · rw [hphase]
      trivial

lemma advances_endInFlight (hrun : m.run s (rest.take used) = m.stop s₁) (hc : c.carry = { inRecord := true })
    (hl : Level c s₁) (hm : c.machine = m) (hs : s₁.offset = start + used) (hu : used ≤ rest.length) :
    Advances m s₁.out s rest (c.endInFlight true start used rest) := by
  let d : Content := { c with carry := { c.carry with inRecord := false } }
  have hd : d.carry = {} := by simp only [d, hc]
  have hld : Level d s₁ := ⟨hl.position, hl.pending, hl.lastEnded⟩
  obtain ⟨hvalue, hout⟩ := endRecord_stop hld hm
  have hmap : c.endInFlight true start used rest =
      (d.endRecord true).andThen fun x => .silent (x.pad start used rest) := by
    rw [Emission.andThen, Emission.silent, List.append_nil]
    rfl
  rw [hmap]
  apply Advances.andThen
  rw [hvalue, ← hout]
  exact advances_pad hrun hd hld hm hs hu

lemma emit_put (hl : Level c s) (hm : c.machine = m) (data : Bytes) :
    (c.emit true data).value.2 = true ∧ Level (c.emit true data).value.1 (m.put data s) ∧
      (c.emit true data).value.1.carry = c.carry ∧ (m.put data s).out = s.out ++ (c.emit true data).bytes := by
  have htext : m.text = (c.mode == .ascii) := by rw [← hm]; rfl
  rw [put, htext, emit, Bool.not_true, if_neg Bool.false_ne_true]
  by_cases ha : c.mode = .ascii
  · rw [if_pos ha, if_pos (beq_iff_eq.mpr ha), ← hl.pending]
    exact ⟨rfl, ⟨hl.position, rfl, rfl⟩, rfl, congrArg _ (flatMap_piece _ _).symm⟩
  · rw [if_neg ha, if_neg (by simpa using ha)]
    exact ⟨rfl, ⟨hl.position, rfl, rfl⟩, rfl, congrArg _ (flatMap_piece _ _).symm⟩

lemma advances_countOff {data : Bytes} (hdata : rest.take owed = data) (hne : data ≠ [] ∨ owed = 0)
    (hc : c.carry = { owed, inRecord := true }) (hl : Level c (m.put data s)) (hm : c.machine = m)
    (hs : s.offset = start) :
    Advances m (m.put data s).out (m.enter owed s) rest (c.countOff true start data.length rest) := by
  have hlen : data.length = min owed rest.length := by rw [← hdata, List.length_take]
  have htake : rest.take data.length = data := by rw [hlen, ← List.take_take, List.take_length, hdata]
  have howed : c.carry.owed = owed := by rw [hc]
  let s₁ := ByteMachine.moved data.length (m.put data s)
  have hl₁ : Level { c with position := c.position + data.length } s₁ :=
    ⟨congrArg (· + data.length) hl.position, hl.pending, hl.lastEnded⟩
  have hrun : m.run (m.enter owed s) data =
      if data.length = owed then m.stop s₁ else goTo (.data (owed - data.length)) s₁ := by
    rw [enter]
    by_cases h0 : owed = 0
    · have hnil : data = [] := List.length_eq_zero_iff.mp (by omega)
      rw [if_pos h0, if_pos (by rw [hnil, h0]; rfl), hnil]
      simp only [s₁, hnil]
      rfl
    · rw [if_neg h0, m.run_data rfl (hne.resolve_right h0) (by omega), ByteMachine.moved_goTo, put_goTo,
        put_moved]
      rfl
  rw [countOff]
  dsimp only
  rw [howed]
  by_cases hmore : 0 < owed - data.length
  · have hall : data = rest := by rw [← htake, List.take_of_length_le (by omega)]
    rw [if_pos hmore]
    change Reaches m _ (m.run (m.enter owed s) rest) _
    rw [← hall, hrun, if_neg (by omega)]
    exact ⟨(List.append_nil _).symm, ⟨⟨hl₁.position, hl.pending, hl.lastEnded⟩, by rw [hc]; rfl, hmore⟩, hm⟩
  · have hzero : owed - data.length = 0 := by omega
    have hstop : m.run (m.enter owed s) (rest.take data.length) = m.stop s₁ := by
      rw [htake, hrun, if_pos (by omega)]
    rw [if_neg hmore]
    change Advances m s₁.out _ _ _
    refine advances_endInFlight hstop (by rw [hc, hzero]) ⟨hl₁.position, hl.pending, hl.lastEnded⟩ hm ?_ ?_
    · rw [← hs]
      exact congrArg (· + data.length) (m.offset_put data s)
    · omega

lemma advances_resume (hc : c.carry = { owed, inRecord := true }) (hl : Level c s) (hm : c.machine = m)
    (hs : s.offset = start) : Advances m s.out (m.enter owed s) rest (c.resume true start rest) := by
  have howed : c.carry.owed = owed := by rw [hc]
  by_cases hr : rest ≠ [] ∨ owed = 0
  · obtain ⟨htrue, hl', hc', hout⟩ := emit_put hl hm (rest.take owed)
    have hm' : (c.emit true (rest.take owed)).value.1.machine = m :=
      (machine_of_reset ((keeps_emit true c _).reset (Or.inl rfl))).trans hm
    have hne : rest.take owed ≠ [] ∨ owed = 0 := by
      by_cases h0 : owed = 0
      · exact Or.inr h0
      · refine Or.inl fun hnil => ?_
        rcases List.take_eq_nil_iff.mp hnil with h | h
        · exact h0 h
        · exact hr.elim (absurd h) h0
    rw [resume_eq (howed ▸ hr), howed]
    refine Advances.andThen ?_
    rw [← hout, htrue, if_pos rfl]
    exact advances_countOff rfl hne (hc'.trans hc) hl' hm' hs
  · obtain ⟨hn, hn'⟩ := not_or.mp hr
    obtain rfl := Classical.not_not.mp hn
    have hpos := Nat.pos_of_ne_zero hn'
    rw [resume_nil (howed ▸ hpos), enter, if_neg hn']
    exact ⟨(List.append_nil _).symm, ⟨⟨hl.position, hl.pending, hl.lastEnded⟩, hc, hpos⟩, hm⟩

lemma advances_beginData (hc : c.carry = { owed, inRecord := true }) (hl : Level c s) (hm : c.machine = m)
    (hs : s.offset = start) :
    Advances m s.out (if m.control = 0 then m.enter owed s else goTo (.control m.control owed) s) rest
      (c.beginData true start rest) := by
  have hcontrol : c.format.controlLength = m.control := by rw [← hm]; rfl
  rw [beginData]
  dsimp only
  rw [hcontrol]
  by_cases hlen : rest.length < m.control
  · rw [if_pos hlen, if_neg (by omega)]
    change Reaches m _ (m.run _ rest) _
    rw [m.run_control rfl rest hlen]
    refine ⟨(List.append_nil _).symm, ⟨⟨congrArg (· + rest.length) hl.position, hl.pending, hl.lastEnded⟩, ?_, ?_⟩, hm⟩
    · exact congrArg (fun x : Carry => { x with skip := m.control - rest.length }) hc
    · exact Nat.sub_pos_of_lt hlen
  · have htake : (rest.take m.control).length = m.control := by
      rw [List.length_take]
      exact Nat.min_eq_left (Nat.le_of_not_lt hlen)
    rw [if_neg hlen]
    refine Advances.shift (Nat.le_of_not_lt hlen) ?_
    rw [m.run_area htake]
    exact advances_resume (s := ByteMachine.moved m.control s) hc
      ⟨congrArg (· + m.control) hl.position, hl.pending, hl.lastEnded⟩ hm (congrArg (· + m.control) hs)

lemma advances_beginRecord (hc : c.carry = {}) (hl : Level c s) (hm : c.machine = m) (hs : s.offset = start)
    (word : Nat) : Advances m s.out (m.begin word s) rest (c.beginRecord true start rest word) := by
  by_cases hw : word = sentinel
  · rw [hw, beginRecord_sentinel, begin, if_pos rfl]
    exact ⟨Nat.zero_le _, ⟨(List.append_nil _).symm, ⟨⟨hl.position, hl.pending, hl.lastEnded⟩, hc, trivial⟩, hm⟩,
      Or.inl rfl⟩
  · have howed : (c.declare word).carry =
        { owed := min (word - m.control) (m.size - (s.position + m.control)), inRecord := true } := by
      rw [← hm, ← hl.position, declare, hc]
      rfl
    rw [beginRecord_eq hw, begin, if_neg hw]
    exact advances_beginData howed ⟨hl.position, hl.pending, hl.lastEnded⟩ hm hs

lemma reaches_continueRecords {e : Emission (Content × Option Nat)} (h : Advances m before s rest e)
    (hs : s.offset = start)
    (hnext : ∀ (used : Nat) (d : Content) (t : State), Tracks d t → d.machine = m → t.phase = .word →
      t.offset = start + used →
      Reaches m t.out (m.run t (rest.drop used)) (d.records true (start + used) (rest.drop used))) :
    Reaches m before (m.run s rest) (continueRecords true start rest e) := by
  rcases e with ⟨ws, d, _ | used⟩
  · exact Reaches.andThen (e := ⟨ws, (d, none)⟩) ⟨(List.append_nil _).symm ▸ h.out, h.tracks, h.machine⟩
  · obtain ⟨hu, hr, hp⟩ := h
    have hsplit : m.run s rest = m.run (m.run s (rest.take used)) (rest.drop used) := by
      rw [← run_append, List.take_append_drop]
    have hoffset : (m.run s (rest.take used)).offset = start + used := by
      rw [m.offset_run, hs, List.length_take, Nat.min_eq_left hu]
    refine Reaches.andThen ?_
    have hout : before ++ Emission.bytes ⟨ws, ((d, some used) : Content × Option Nat)⟩ =
        (m.run s (rest.take used)).out := hr.out.symm
    rw [hout, hsplit]
    rcases hp with hword | hnil
    · exact hnext used d _ hr.tracks hr.machine hword hoffset
    · dsimp only
      rw [hnil, run_nil, records_nil]
      exact .silent hr.tracks hr.machine

lemma reaches_done (h : Tracks c s) (hm : c.machine = m) (hw : s.phase = .word) (hp : c.size ≤ c.position) :
    Reaches m s.out (m.run s rest) (c.records true start rest) := by
  have hsize : m.size ≤ s.position := by
    rw [← hm, ← h.position]
    exact hp
  rw [records_of_le hp, m.run_done hw hsize]
  exact ⟨(List.append_nil _).symm, ⟨⟨h.position, h.pending, h.lastEnded⟩, h.carry, h.proper⟩, hm⟩

lemma reaches_length (hc : c.carry = {}) (hl : Level c s) (hm : c.machine = m) (hs : s.offset = start)
    (word : Nat)
    (hnext : ∀ (used : Nat) (d : Content) (t : State), Tracks d t → d.machine = m → t.phase = .word →
      t.offset = start + used →
      Reaches m t.out (m.run t (rest.drop used)) (d.records true (start + used) (rest.drop used))) :
    Reaches m s.out (m.run (m.begin word s) rest)
      (continueRecords true start rest (c.beginRecord true start rest word)) :=
  reaches_continueRecords (advances_beginRecord hc hl hm hs word) ((m.offset_begin word s).trans hs) hnext

lemma step_low (h : Tracks c s) (hm : c.machine = m) (hw : s.phase = .word) (hp : c.position < c.size) (low : UInt8) :
    m.step s low = goTo (.high low) (ByteMachine.moved 1 s) := by
  rw [step, hw, ← hm, ← h.position]
  exact if_pos hp

lemma reaches_records (h : Tracks c s) (hm : c.machine = m) (hw : s.phase = .word) (hs : s.offset = start) :
    Reaches m s.out (m.run s rest) (c.records true start rest) := by
  induction rest using Bytes.word_induction generalizing c s start with
  | nil =>
    rw [records_nil]
    exact .silent h hm
  | single low =>
    by_cases hp : c.position < c.size
    · rw [records_single hp, run_cons, step_low h hm hw hp]
      refine ⟨(List.append_nil _).symm, ⟨⟨congrArg (· + 1) h.position, h.pending, h.lastEnded⟩, ?_, trivial⟩, hm⟩
      rw [h.carry, hw]
      rfl
    · exact reaches_done h hm hw (Nat.le_of_not_lt hp)
  | word low high rest ih =>
    by_cases hp : c.position < c.size
    · have hrun : m.run s (low :: high :: rest) =
          m.run (m.begin (Bytes.toNat [low, high]) (ByteMachine.moved 2 s)) rest := by
        rw [run_cons, step_low h hm hw hp, run_cons, step]
        dsimp only [goTo]
        rw [← goTo, ByteMachine.moved_goTo, begin_goTo, moved_moved]
      rw [records_cons_cons hp, hrun]
      exact reaches_length (c := { c with position := c.position + 2 }) (s := ByteMachine.moved 2 s)
        (by rw [h.carry, hw]; rfl) ⟨congrArg (· + 2) h.position, h.pending, h.lastEnded⟩ hm
        (congrArg (· + 2) hs) _ fun used d t hd hdm hdw hdo => ih used hd hdm hdw hdo
    · exact reaches_done h hm hw (Nat.le_of_not_lt hp)

lemma reaches_inFlight (hc : c.carry = { owed, inRecord := true }) (hl : Level c s) (hm : c.machine = m)
    (hs : s.offset = start) : Reaches m s.out (m.run (m.enter owed s) rest) (c.goOn true start rest) := by
  have hlow : c.carry.lowByte = none := by rw [hc]
  have hin : c.carry.inRecord = true := by rw [hc]
  rw [goOn, hlow, hin]
  exact reaches_continueRecords (advances_resume hc hl hm hs) ((m.offset_enter owed s).trans hs)
    fun used d t hd hdm hdw hdo => reaches_records hd hdm hdw hdo

lemma reaches_goOn (h : Tracks c s) (hm : c.machine = m) (hskip : c.carry.skip = 0) (hs : s.offset = start) :
    Reaches m s.out (m.run s rest) (c.goOn true start rest) := by
  cases hp : s.phase with
  | word =>
    have hc : c.carry = {} := by rw [h.carry, hp]; rfl
    rw [goOn, hc]
    exact reaches_records h hm hp hs
  | high low =>
    have hc : c.carry = { lowByte := some low } := by rw [h.carry, hp]; rfl
    rw [goOn, hc]
    cases rest with
    | nil => exact .silent h hm
    | cons high rest =>
      have hstep : m.step s high = m.begin (Bytes.toNat [low, high]) (ByteMachine.moved 1 s) := by
        rw [step, hp]
      rw [run_cons, hstep]
      exact reaches_length (c := { c with position := c.position + 1, carry := _ }) (s := ByteMachine.moved 1 s)
        rfl ⟨congrArg (· + 1) h.position, h.pending, h.lastEnded⟩ hm (congrArg (· + 1) hs) _
        fun used d t hd hdm hdw hdo => reaches_records hd hdm hdw hdo
  | control left owed =>
    have hproper := h.proper
    rw [h.carry, hp] at hskip
    rw [hp] at hproper
    exact absurd hskip (Nat.ne_of_gt hproper)
  | data owed =>
    have hc : c.carry = { owed, inRecord := true } := by rw [h.carry, hp]; rfl
    have hproper := h.proper
    rw [hp] at hproper
    have henter : m.enter owed s = s := by
      rw [enter, if_neg (Nat.ne_of_gt hproper), ← hp]
      rfl
    have hgo : Reaches m s.out (m.run (m.enter owed s) rest) (c.goOn true start rest) :=
      reaches_inFlight hc h.toLevel hm hs
    rw [henter] at hgo
    exact hgo
  | pad =>
    rw [h.carry, hp] at hskip
    exact absurd hskip Nat.one_ne_zero

lemma reaches_takeUp (h : Tracks c s) (hm : c.machine = m) (hs : s.offset = c.offset) (payload : Bytes) :
    Reaches m s.out (m.run s payload) (c.takeUp true payload) := by
  rw [takeUp_eq]
  by_cases hskip : c.carry.skip = 0
  · rw [hskip, if_neg (Nat.not_lt_zero _), List.drop_zero]
    have hpass : c.passOver 0 = c := rfl
    rw [hpass]
    exact reaches_goOn h hm hskip hs
  -- Bytes are left to pass over in a control area and before a pad only.
  cases hp : s.phase with
  | control left owed =>
    have hc : c.carry = { skip := left, owed, inRecord := true } := by rw [h.carry, hp]; rfl
    have hleft : c.carry.skip = left := by rw [hc]
    rw [hleft] at hskip ⊢
    by_cases hlen : payload.length < left
    · rw [if_pos hlen, m.run_control hp payload hlen]
      refine ⟨(List.append_nil _).symm,
        ⟨⟨congrArg (· + payload.length) h.position, h.pending, h.lastEnded⟩, ?_, Nat.sub_pos_of_lt hlen⟩, hm⟩
      exact congrArg (fun x : Carry => { x with skip := x.skip - payload.length }) hc
    · have htake : (payload.take left).length = left := by
        rw [List.length_take]
        omega
      have hrun : m.run s payload = m.run (m.enter owed (ByteMachine.moved left s)) (payload.drop left) := by
        rw [← m.run_control_all hp (Nat.pos_of_ne_zero hskip) htake, ← run_append, List.take_append_drop]
      rw [if_neg hlen, hrun]
      refine reaches_inFlight (c := c.passOver left) (s := ByteMachine.moved left s) ?_
        ⟨congrArg (· + left) h.position, h.pending, h.lastEnded⟩ hm (congrArg (· + left) hs)
      rw [passOver, hc, Nat.sub_self]
  | pad =>
    have hc : c.carry = { skip := 1 } := by rw [h.carry, hp]; rfl
    have hone : c.carry.skip = 1 := by rw [hc]
    rw [hone]
    cases payload with
    | nil => exact .silent h hm
    | cons b rest =>
      have hstep : m.step s b = goTo .word (ByteMachine.moved 1 s) := by rw [step, hp]
      rw [if_neg (by simp), run_cons, hstep]
      refine reaches_goOn (c := c.passOver 1) (s := goTo .word (ByteMachine.moved 1 s))
        ⟨⟨congrArg (· + 1) h.position, h.pending, h.lastEnded⟩, ?_, trivial⟩ hm ?_ (congrArg (· + 1) hs)
      · rw [passOver, hc]
        rfl
      · rw [passOver, hc]
        rfl
  | word | high | data =>
    rw [h.carry, hp] at hskip
    exact absurd rfl hskip

structure Follows (m : ByteMachine) (c : Content) (s : State) : Prop extends Tracks c s where
  machine : c.machine = m
  offset : c.offset = s.offset

lemma follows_feedRecords (h : Follows m c s) (payload : Bytes) :
    (m.run s payload).out = s.out ++ (c.feedRecords true payload).bytes ∧
      Follows m (c.feedRecords true payload).value (m.run s payload) := by
  obtain ⟨hout, htracks, hm⟩ := reaches_takeUp h.toTracks h.machine h.offset.symm payload
  refine ⟨?_, ⟨⟨htracks.position, htracks.pending, htracks.lastEnded⟩, htracks.carry, htracks.proper⟩, hm, ?_⟩
  · rw [hout, feedRecords, Emission.bytes, Emission.bytes, List.flatMap_map]
  · rw [m.offset_run, ← h.offset, ← (keeps_takeUp true c payload).offset]
    rfl

structure Framed (c : Content) : Prop where
  isVariable : c.format.isVariable = true
  mode_ne_raw : c.mode ≠ .raw
  unsettled : c.settled = false

lemma framed_reset (hf : c.format.isVariable = true) (hm : c.mode = .binary ∨ c.mode = .ascii) :
    Framed c.reset where
  isVariable := hf
  mode_ne_raw hraw := by
    rcases hm with hm | hm
    · exact absurd (hm.symm.trans hraw) (by decide)
    · exact absurd (hm.symm.trans hraw) (by decide)
  unsettled := rfl

lemma Framed.absorb_eq (h : Framed c) (payload : Bytes) : c.absorb true payload = c.feedRecords true payload := by
  have hf := h.isVariable
  have hr : ¬ (c.mode = .raw ∨ c.format = .udf) := by
    rintro (hraw | hudf)
    · exact h.mode_ne_raw hraw
    · rw [hudf] at hf
      cases hf
  have hs : c.format.isStreamLike = false := by
    cases hc : c.format <;> rw [hc] at hf <;> first | rfl | cases hf
  rw [absorb_unsettled h.unsettled, feed, if_neg hr, hs, if_neg Bool.false_ne_true, if_pos hf]

lemma Framed.feed_eq (h : Framed c) (payload : Bytes) : c.feed true payload = c.feedRecords true payload := by
  rw [← h.absorb_eq, absorb_unsettled h.unsettled]

lemma Framed.feed (h : Framed c) (payload : Bytes) : Framed (c.feed true payload).value where
  isVariable := by rw [format_of_reset (reset_feed (Or.inl rfl) payload), h.isVariable]
  mode_ne_raw := by rw [mode_of_reset (reset_feed (Or.inl rfl) payload)]; exact h.mode_ne_raw
  unsettled := (settled_feed (Or.inl rfl) payload).trans h.unsettled

lemma follows_absorbAll (payloads : List Bytes) (hf : Framed c) (h : Follows m c s) :
    (m.run s payloads.flatten).out = s.out ++ (absorbAll true payloads c).bytes ∧
      Follows m (absorbAll true payloads c).value (m.run s payloads.flatten) := by
  induction payloads generalizing c s with
  | nil => exact ⟨(List.append_nil _).symm, h⟩
  | cons p ps ih =>
    obtain ⟨hout, hfollows⟩ := follows_feedRecords h p
    rw [← hf.feed_eq] at hout hfollows
    obtain ⟨hout', hfollows'⟩ := ih (hf.feed p) hfollows
    rw [List.flatten_cons, run_append, hout', hout, absorbAll, hf.absorb_eq, ← hf.feed_eq,
      Emission.bytes_andThen, List.append_assoc]
    exact ⟨rfl, hfollows'⟩

lemma follows_reset (c : Content) : Follows c.machine c.reset {} :=
  ⟨⟨⟨rfl, rfl, rfl⟩, rfl, trivial⟩, rfl, rfl⟩

lemma bytes_finish (c : Content) : c.finish.bytes = if c.lines.pending then LineEnds.hostEnd else [] :=
  flatMap_piece _ _

end Content

end SaveSet
