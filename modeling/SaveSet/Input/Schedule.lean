namespace SaveSet

inductive ReadEvent where
  | interrupted
  | failed
  | whole
  | atMost (count : Nat) (positive : 0 < count)

structure Schedule where
  event : Nat → ReadEvent
  unblocked : ∀ n, ∃ m, n ≤ m ∧ event m ≠ .interrupted

namespace Schedule

def Retries (s : Schedule) (m n : Nat) : Prop := m = n + 1 ∧ s.event n = .interrupted

theorem retries_wf (s : Schedule) : WellFounded s.Retries := by
  refine ⟨fun n => ?_⟩
  obtain ⟨m, hm, he⟩ := s.unblocked n
  obtain ⟨k, rfl⟩ : ∃ k, m = n + k := ⟨m - n, by omega⟩
  clear hm
  induction k generalizing n with
  | zero => exact ⟨_, fun j hj => absurd hj.2 (by simpa using he)⟩
  | succ k ih =>
    refine ⟨_, fun j hj => ?_⟩
    obtain rfl : j = n + 1 := hj.1
    exact ih (n + 1) (by simpa [Nat.add_assoc, Nat.add_comm, Nat.add_left_comm] using he)

def next (s : Schedule) (n : Nat) : Nat :=
  match h : s.event n with
  | .interrupted => s.next (n + 1)
  | _ => n
termination_by s.retries_wf.wrap n
decreasing_by exact ⟨rfl, h⟩

def prompt : Schedule := ⟨fun _ => .whole, fun n => ⟨n, Nat.le_refl n, by simp⟩⟩

/-- Read number `failAt` fails; a read whose number is a multiple of `every` is interrupted, but with
`every = 1` only up to the one that fails; a read delivers at most `chunk` bytes. Zero stands for
never, and for no limit. -/
def periodicEvent (chunk failAt every n : Nat) : ReadEvent :=
  if n = failAt then .failed
  else if 0 < every ∧ n % every = 0 ∧ (1 < every ∨ n < failAt) then .interrupted
  else if h : 0 < chunk then .atMost chunk h
  else .whole

theorem periodicEvent_unblocked (chunk failAt every n : Nat) :
    ∃ m, n ≤ m ∧ periodicEvent chunk failAt every m ≠ .interrupted := by
  have key (m : Nat) (h : ¬(0 < every ∧ m % every = 0 ∧ (1 < every ∨ m < failAt))) :
      periodicEvent chunk failAt every m ≠ .interrupted := by
    unfold periodicEvent
    rw [if_neg h]
    split
    · exact ReadEvent.noConfusion
    · split <;> exact ReadEvent.noConfusion
  by_cases h : 1 < every
  · refine ⟨n * every + 1, Nat.le_succ_of_le (Nat.le_mul_of_pos_right n (by omega)), key _ fun hm => ?_⟩
    rw [Nat.add_comm, Nat.add_mul_mod_self_right, Nat.mod_eq_of_lt h] at hm
    exact absurd hm.2.1 Nat.one_ne_zero
  · refine ⟨max n failAt, Nat.le_max_left n failAt, key _ fun hm => ?_⟩
    exact hm.2.2.elim h (Nat.not_lt.mpr (Nat.le_max_right n failAt))

def periodic (chunk failAt every : Nat) : Schedule :=
  ⟨periodicEvent chunk failAt every, periodicEvent_unblocked chunk failAt every⟩

end Schedule

end SaveSet
