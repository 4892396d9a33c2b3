import SaveSet.Proofs.Content.Records

/-! Streams of records byte by byte. What the machine knows of the bytes before is the phase it is in,
how many bytes there were, and what may still come of the line that is open. -/

namespace SaveSet

structure ByteMachine where
  size : Nat
  control : Nat
  text : Bool
  deriving DecidableEq, Repr

namespace ByteMachine

/-- What the next byte is. -/
inductive Phase where
  | word
  | high (low : UInt8)
  | control (left owed : Nat)
  | data (owed : Nat)
  | pad
  deriving DecidableEq, Repr

structure State where
  phase : Phase := .word
  position : Nat := 0
  offset : Nat := 0
  pending : Bool := false
  lastEnded : Bool := false
  out : Bytes := []
  deriving DecidableEq, Repr

def moved (n : Nat) (s : State) : State := { s with position := s.position + n, offset := s.offset + n }

def goTo (p : Phase) (s : State) : State := { s with phase := p }

def put (m : ByteMachine) (data : Bytes) (s : State) : State :=
  if m.text then
    let r := LineEnds.hostText s.pending data
    { s with pending := r.1, lastEnded := data.getLast?.any LineEnds.isEnd, out := s.out ++ r.2 }
  else { s with pending := false, lastEnded := false, out := s.out ++ data }

def stop (m : ByteMachine) (s : State) : State :=
  { s with
    phase := if s.offset % 2 = 1 ∧ s.position < m.size then .pad else .word
    out := if m.text && !s.lastEnded then s.out ++ LineEnds.hostEnd else s.out }

def enter (m : ByteMachine) (owed : Nat) (s : State) : State :=
  if owed = 0 then m.stop (m.put [] s) else goTo (.data owed) s

def begin (m : ByteMachine) (word : Nat) (s : State) : State :=
  if word = Content.sentinel then goTo .word s
  else
    let owed := min (word - m.control) (m.size - (s.position + m.control))
    if m.control = 0 then m.enter owed s else goTo (.control m.control owed) s

def step (m : ByteMachine) (s : State) (b : UInt8) : State :=
  match s.phase with
  | .word => if s.position < m.size then goTo (.high b) (moved 1 s) else { s with offset := s.offset + 1 }
  | .high low => m.begin (Bytes.toNat [low, b]) (moved 1 s)
  | .control left owed =>
    if left ≤ 1 then m.enter owed (moved 1 s) else goTo (.control (left - 1) owed) (moved 1 s)
  | .data owed =>
    if owed ≤ 1 then m.stop (m.put [b] (moved 1 s)) else goTo (.data (owed - 1)) (m.put [b] (moved 1 s))
  | .pad => goTo .word (moved 1 s)

def run (m : ByteMachine) (s : State) (bytes : Bytes) : State := bytes.foldl m.step s

def State.total (s : State) : Bytes := s.out ++ if s.pending then LineEnds.hostEnd else []

variable (m : ByteMachine) {s : State}

@[simp] lemma run_nil (s : State) : m.run s [] = s := rfl

lemma run_cons (s : State) (b : UInt8) (bs : Bytes) : m.run s (b :: bs) = m.run (m.step s b) bs := rfl

lemma run_append (s : State) (xs ys : Bytes) : m.run s (xs ++ ys) = m.run (m.run s xs) ys :=
  List.foldl_append

@[simp] lemma moved_moved (i j : Nat) (s : State) : moved j (moved i s) = moved (i + j) s := by
  simp [moved, Nat.add_assoc]

@[simp] lemma offset_put (data : Bytes) (s : State) : (m.put data s).offset = s.offset := by
  rw [put]
  split <;> rfl

@[simp] lemma offset_enter (owed : Nat) (s : State) : (m.enter owed s).offset = s.offset := by
  rw [enter]
  split
  · exact m.offset_put [] s
  · rfl

@[simp] lemma offset_begin (word : Nat) (s : State) : (m.begin word s).offset = s.offset := by
  rw [begin]
  dsimp only
  split
  · rfl
  · split
    · exact m.offset_enter _ s
    · rfl

@[simp] lemma position_put (data : Bytes) (s : State) : (m.put data s).position = s.position := by
  rw [put]
  split <;> rfl

@[simp] lemma position_enter (owed : Nat) (s : State) : (m.enter owed s).position = s.position := by
  rw [enter]
  split
  · exact m.position_put [] s
  · rfl

@[simp] lemma position_begin (word : Nat) (s : State) : (m.begin word s).position = s.position := by
  rw [begin]
  dsimp only
  split
  · rfl
  · split
    · exact m.position_enter _ s
    · rfl

lemma offset_step (s : State) (b : UInt8) : (m.step s b).offset = s.offset + 1 := by
  rw [step]
  split
  · split <;> rfl
  · exact m.offset_begin _ _
  · split
    · exact m.offset_enter _ _
    · rfl
  · split
    · exact m.offset_put _ _
    · exact m.offset_put _ _
  · rfl

lemma offset_run (s : State) (bytes : Bytes) : (m.run s bytes).offset = s.offset + bytes.length := by
  induction bytes generalizing s with
  | nil => rfl
  | cons b bs ih => rw [run_cons, ih, offset_step, List.length_cons, Nat.add_assoc, Nat.add_comm 1]

lemma run_done (hw : s.phase = .word) (hp : m.size ≤ s.position) (bytes : Bytes) :
    m.run s bytes = { s with offset := s.offset + bytes.length } := by
  induction bytes generalizing s with
  | nil => rfl
  | cons b bs ih =>
    have hb : m.step s b = { s with offset := s.offset + 1 } := by
      rw [step, hw]
      exact if_neg (Nat.not_lt.mpr hp)
    rw [run_cons, hb, ih (s := { s with offset := s.offset + 1 }) hw hp, List.length_cons]
    simp only [Nat.add_assoc, Nat.add_comm 1]

@[simp] lemma goTo_goTo (p q : Phase) (s : State) : goTo q (goTo p s) = goTo q s := rfl

@[simp] lemma moved_goTo (n : Nat) (p : Phase) (s : State) : moved n (goTo p s) = goTo p (moved n s) := rfl

@[simp] lemma put_goTo (data : Bytes) (p : Phase) (s : State) :
    m.put data (goTo p s) = goTo p (m.put data s) := by
  rw [put, put]
  split <;> rfl

@[simp] lemma put_moved (data : Bytes) (n : Nat) (s : State) :
    m.put data (moved n s) = moved n (m.put data s) := by
  rw [put, put]
  split <;> rfl

@[simp] lemma stop_goTo (p : Phase) (s : State) : m.stop (goTo p s) = m.stop s := rfl

@[simp] lemma enter_goTo (owed : Nat) (p : Phase) (s : State) : m.enter owed (goTo p s) = m.enter owed s := by
  rw [enter, enter]
  split
  · rw [put_goTo, stop_goTo]
  · rfl

@[simp] lemma begin_goTo (word : Nat) (p : Phase) (s : State) : m.begin word (goTo p s) = m.begin word s := by
  rw [begin, begin]
  split
  · rfl
  · dsimp only
    split
    · exact m.enter_goTo _ p s
    · rfl

lemma put_append (xs : Bytes) {ys : Bytes} (hy : ys ≠ []) (s : State) :
    m.put ys (m.put xs s) = m.put (xs ++ ys) s := by
  have hlast : (xs ++ ys).getLast? = ys.getLast? := by
    rw [List.getLast?_append, List.getLast?_eq_some_getLast hy, Option.some_or]
  rw [put, put, put, hlast]
  cases m.text with
  | true => simp [LineEnds.hostText_append]
  | false => simp

lemma run_control {left owed : Nat} (hs : s.phase = .control left owed) (bytes : Bytes)
    (hb : bytes.length < left) :
    m.run s bytes = goTo (.control (left - bytes.length) owed) (moved bytes.length s) := by
  induction bytes generalizing s left with
  | nil =>
    rcases s with ⟨phase, position, offset, pending, lastEnded, out⟩
    cases hs
    rfl
  | cons b bs ih =>
    rw [List.length_cons] at hb ⊢
    have hstep : m.step s b = goTo (.control (left - 1) owed) (moved 1 s) := by
      rw [step, hs]
      exact if_neg (by omega)
    have hleft : left - 1 - bs.length = left - (bs.length + 1) := by omega
    rw [run_cons, hstep, ih rfl (by omega), hleft, moved_goTo, moved_moved, goTo_goTo, Nat.add_comm 1]

lemma run_control_all {left owed : Nat} (hs : s.phase = .control left owed) (hl : 0 < left)
    {bytes : Bytes} (hb : bytes.length = left) : m.run s bytes = m.enter owed (moved left s) := by
  induction bytes generalizing s left with
  | nil => exact absurd hb (Nat.ne_of_lt hl)
  | cons b bs ih =>
    rw [List.length_cons] at hb
    rw [run_cons, step, hs]
    dsimp only
    by_cases hlast : left ≤ 1
    · obtain rfl : bs = [] := List.length_eq_zero_iff.mp (by omega)
      rw [if_pos hlast, ← hb]
      rfl
    · have hmove : 1 + (left - 1) = left := by omega
      rw [if_neg hlast, ih rfl (by omega) (by omega), moved_goTo, moved_moved, enter_goTo, hmove]

lemma run_area {area : Bytes} (ha : area.length = m.control) (owed : Nat) (s : State) :
    m.run (if m.control = 0 then m.enter owed s else goTo (.control m.control owed) s) area =
      m.enter owed (moved m.control s) := by
  by_cases h0 : m.control = 0
  · have hnil : area = [] := List.length_eq_zero_iff.mp (ha.trans h0)
    rw [if_pos h0, hnil, h0]
    rfl
  · rw [if_neg h0, m.run_control_all rfl (Nat.pos_of_ne_zero h0) ha, moved_goTo, enter_goTo]

lemma run_data {owed : Nat} (hs : s.phase = .data owed) {bytes : Bytes} (hb : bytes ≠ [])
    (hl : bytes.length ≤ owed) :
    m.run s bytes =
      if bytes.length = owed then m.stop (m.put bytes (moved bytes.length s))
      else goTo (.data (owed - bytes.length)) (m.put bytes (moved bytes.length s)) := by
  induction bytes generalizing s owed with
  | nil => exact absurd rfl hb
  | cons b bs ih =>
    rw [List.length_cons] at hl ⊢
    rw [run_cons, step, hs]
    dsimp only
    by_cases hbs : bs = []
    · rw [hbs, List.length_nil, Nat.zero_add, run_nil]
      by_cases howed : owed ≤ 1
      · rw [if_pos howed, if_pos (by omega)]
      · rw [if_neg howed, if_neg (by omega)]
    · have hpos := List.length_pos_iff.mpr hbs
      have hput : m.put bs (moved bs.length (goTo (.data (owed - 1)) (m.put [b] (moved 1 s)))) =
          goTo (.data (owed - 1)) (m.put (b :: bs) (moved (bs.length + 1) s)) := by
        rw [moved_goTo, put_goTo, ← m.put_moved, moved_moved, m.put_append [b] hbs, Nat.add_comm 1]
        rfl
      rw [if_neg (by omega), ih rfl hbs (by omega), hput, stop_goTo, goTo_goTo]
      by_cases hall : bs.length + 1 = owed
      · rw [if_pos hall, if_pos (by omega)]
      · have hleft : owed - 1 - bs.length = owed - (bs.length + 1) := by omega
        rw [if_neg hall, if_neg (by omega), hleft]

end ByteMachine

end SaveSet
