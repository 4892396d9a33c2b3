import SaveSet.Input.Schedule
import SaveSet.Output.Sink

/-! Reading bytes from a position on, in reads that may be short, interrupted or fail. -/

namespace SaveSet

structure Reader where
  data : Array UInt8
  length : Nat
  position : Nat
  fetched : Nat
  lookahead : Nat
  reads : Nat
  schedule : Schedule

inductive SeekTarget where
  | start (position : Nat)
  | current (delta : Int)
  | fromEnd (delta : Int)
  deriving DecidableEq, Repr

namespace Reader

def ofBytes (data : Bytes) (position : Nat) (schedule : Schedule) : Reader :=
  let data := data.toArray
  { data, length := data.size, position, fetched := position, lookahead := 0, reads := 0, schedule }

def ofFile (data : Bytes) : Reader := { ofBytes data 0 .prompt with lookahead := 8192 }

def atEnd (r : Reader) : Bool := r.length ≤ r.position

def allowance (want : Nat) : ReadEvent → Nat
  | .whole => want
  | .atMost count _ => min want count
  | .interrupted | .failed => 0

def readOnce (r : Reader) (want : Nat) : Except Fault Nat × Reader :=
  let number := r.schedule.next (r.reads + 1)
  match r.schedule.event number with
  | .failed => (.error .other, { r with reads := number })
  | event =>
    let count := min (allowance want event) (r.data.size - r.position)
    (.ok count, { r with position := r.position + count, reads := number })

def advance (r : Reader) (want : Nat) : Option Fault × Reader :=
  if want = 0 then (none, r)
  else
    match r.readOnce want with
    | (.error f, r) => (some f, r)
    | (.ok count, r) => if count = 0 then (none, r) else advance r (want - count)
termination_by want
decreasing_by omega

def frontier (r : Reader) (want : Nat) : Nat :=
  let missing := r.position + want - r.fetched
  if missing = 0 then r.fetched else min r.data.size (r.fetched + max r.lookahead missing)

def slice (r : Reader) (start stop : Nat) : Bytes := (r.data.extract start stop).toList

/-- Up to `want` bytes; fewer only where the bytes end. What was read before a failure is used up. -/
def read (r : Reader) (want : Nat) : Except Fault Bytes × Reader :=
  match r.advance want with
  | (some f, s) => (.error f, { s with fetched := s.position })
  | (none, s) => (.ok (r.slice r.position s.position), { s with fetched := r.frontier want })

def moveTo (r : Reader) (position : Nat) : Reader := { r with position, fetched := position }

def replace (r : Reader) (current : Array UInt8) : Reader :=
  { r with data := r.data.extract 0 r.fetched ++ current.extract r.fetched }

def seek (r : Reader) (target : SeekTarget) : Except Fault Nat × Reader :=
  let position : Int := match target with
    | .start p => p
    | .current d => r.position + d
    | .fromEnd d => r.length + d
  if 0 ≤ position ∧ position < 0x10000000000000000 then
    (.ok position.toNat, r.moveTo position.toNat)
  else (.error .invalidInput, r)

theorem readOnce_data (r : Reader) (want : Nat) : (r.readOnce want).2.data = r.data := by
  simp only [readOnce]
  split <;> rfl

theorem readOnce_length (r : Reader) (want : Nat) : (r.readOnce want).2.length = r.length := by
  simp only [readOnce]
  split <;> rfl

theorem readOnce_position (r : Reader) (want : Nat) :
    r.position ≤ (r.readOnce want).2.position ∧
      (r.readOnce want).2.position ≤ max r.position r.data.size := by
  simp only [readOnce]
  split <;> simp only <;> omega

theorem advance_length (r : Reader) (want : Nat) : (r.advance want).2.length = r.length := by
  fun_induction advance r want with
  | case1 => rfl
  | case2 r want _ f s h => simpa [h] using readOnce_length r want
  | case3 r want _ s h => simpa [h] using readOnce_length r want
  | case4 r want _ count s h _ ih => exact ih.trans (by simpa [h] using readOnce_length r want)

theorem advance_position (r : Reader) (want : Nat) :
    r.position ≤ (r.advance want).2.position ∧
      (r.advance want).2.position ≤ max r.position r.data.size := by
  fun_induction advance r want with
  | case1 r => exact ⟨Nat.le_refl _, Nat.le_max_left _ _⟩
  | case2 r want _ f s h => simpa [h] using readOnce_position r want
  | case3 r want _ s h => simpa [h] using readOnce_position r want
  | case4 r want _ count s h _ ih =>
    have hp := readOnce_position r want
    have hd := readOnce_data r want
    simp only [h] at hp hd
    rw [hd] at ih
    omega

theorem read_length (r : Reader) (want : Nat) : (r.read want).2.length = r.length := by
  have hl := advance_length r want
  rcases ha : r.advance want with ⟨_ | f, s⟩ <;> simpa [read, ha] using hl

theorem read_position {r : Reader} {want : Nat} {bs : Bytes} (h : (r.read want).1 = .ok bs) :
    (r.read want).2.position = r.position + bs.length := by
  have hp := advance_position r want
  rcases ha : r.advance want with ⟨_ | f, s⟩
  · simp only [read, ha] at h hp ⊢
    cases h
    simp only [slice, Array.length_toList, Array.size_extract]
    omega
  · simp [read, ha] at h

end Reader

end SaveSet
