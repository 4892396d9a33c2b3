import Mathlib.Tactic.Lemma
import SaveSet.Input.Reader

namespace SaveSet

lemma Schedule.event_next (s : Schedule) (n : Nat) : s.event (s.next n) ≠ .interrupted := by
  fun_induction s.next n with
  | case1 n h ih => exact ih
  | case2 n h => exact h

lemma Schedule.le_next (s : Schedule) (n : Nat) : n ≤ s.next n := by
  fun_induction s.next n with
  | case1 n h ih => omega
  | case2 n h => exact Nat.le_refl n

namespace Reader

structure Reliable (r : Reader) : Prop where
  delivers : ∀ n, r.schedule.event n ≠ .failed
  length_eq : r.length = r.data.size

structure Ready (r : Reader) : Prop where
  delivers : ∀ n, r.reads < n → r.schedule.event n ≠ .failed
  length_eq : r.length = r.data.size

structure Later (r s : Reader) : Prop where
  ready : s.Ready
  data : s.data = r.data
  schedule : s.schedule = r.schedule

def rest (r : Reader) : Bytes := r.data.toList.drop r.position

@[simp] lemma length_rest (r : Reader) : r.rest.length = r.data.size - r.position := by
  simp [rest]

lemma Reliable.ready {r : Reader} (hr : r.Reliable) : r.Ready := ⟨fun n _ => hr.delivers n, hr.length_eq⟩

lemma Reliable.moveTo {r : Reader} (hr : r.Reliable) (position : Nat) : (r.moveTo position).Reliable :=
  ⟨hr.delivers, hr.length_eq⟩

lemma Ready.moveTo {r : Reader} (hr : r.Ready) (position : Nat) : (r.moveTo position).Ready :=
  ⟨hr.delivers, hr.length_eq⟩

lemma Later.trans {r s t : Reader} (hs : Later r s) (ht : Later s t) : Later r t :=
  ⟨ht.ready, ht.data.trans hs.data, ht.schedule.trans hs.schedule⟩

lemma Later.reliable {r s : Reader} (h : Later r s) (hr : r.Reliable) : s.Reliable :=
  ⟨by rw [h.schedule]; exact hr.delivers, h.ready.length_eq⟩

lemma atEnd_iff {r : Reader} (hr : r.Ready) : r.atEnd = true ↔ r.rest = [] := by
  rw [← List.length_eq_zero_iff, length_rest, atEnd, hr.length_eq, decide_eq_true_eq]
  omega

lemma allowance_pos {want : Nat} {e : ReadEvent} (hi : e ≠ .interrupted) (hf : e ≠ .failed)
    (hw : 0 < want) : 0 < allowance want e := by
  cases e with
  | interrupted => exact absurd rfl hi
  | failed => exact absurd rfl hf
  | whole => exact hw
  | atMost count positive => exact Nat.lt_min.mpr ⟨hw, positive⟩

lemma allowance_le (want : Nat) (e : ReadEvent) : allowance want e ≤ want := by
  cases e with
  | interrupted => exact Nat.zero_le want
  | failed => exact Nat.zero_le want
  | whole => exact Nat.le_refl want
  | atMost count positive => exact Nat.min_le_left want count

lemma readOnce_ready {r : Reader} (hr : r.Ready) (want : Nat) :
    ∃ count number, r.readOnce want =
        (.ok count, { r with position := r.position + count, reads := number }) ∧ r.reads < number ∧
      count ≤ want ∧ count ≤ r.data.size - r.position ∧
      (count = 0 → want = 0 ∨ r.data.size ≤ r.position) := by
  let number := r.schedule.next (r.reads + 1)
  have hlt : r.reads < number := r.schedule.le_next _
  have hi : r.schedule.event number ≠ .interrupted := r.schedule.event_next _
  have hf := hr.delivers number hlt
  have hle := allowance_le want (r.schedule.event number)
  refine ⟨min (allowance want (r.schedule.event number)) (r.data.size - r.position), number, ?_, hlt, ?_,
    Nat.min_le_right _ _, ?_⟩
  · rw [readOnce]
    split
    · next he => exact absurd he hf
    · rfl
  · omega
  · intro hc
    by_cases hw : want = 0
    · exact Or.inl hw
    · have hp := allowance_pos hi hf (Nat.pos_of_ne_zero hw)
      exact Or.inr (by omega)

lemma advance_ready {r : Reader} (hr : r.Ready) (want : Nat) :
    ∃ number, r.reads ≤ number ∧ r.advance want =
      (none, { r with
        position := r.position + min want (r.data.size - r.position), reads := number }) := by
  fun_induction advance r want with
  | case1 r => exact ⟨r.reads, Nat.le_refl _, by simp⟩
  | case2 r want hw f s h =>
    obtain ⟨count, number, he, _⟩ := readOnce_ready hr want
    rw [he] at h
    cases h
  | case3 r want hw s h =>
    obtain ⟨count, number, he, hlt, hle, hsize, hz⟩ := readOnce_ready hr want
    rw [he] at h
    cases h
    have hend : min want (r.data.size - r.position) = 0 := by
      have := hz rfl
      omega
    exact ⟨number, Nat.le_of_lt hlt, by rw [hend]⟩
  | case4 r want hw count s h hc ih =>
    obtain ⟨_, number, he, hlt, hle, hsize, _⟩ := readOnce_ready hr want
    rw [he] at h
    cases h
    obtain ⟨last, hlast, hl⟩ := ih ⟨fun n hn => hr.delivers n (Nat.lt_trans hlt hn), hr.length_eq⟩
    have hp : r.position + count + min (want - count) (r.data.size - (r.position + count)) =
        r.position + min want (r.data.size - r.position) := by omega
    exact ⟨last, Nat.le_trans (Nat.le_of_lt hlt) hlast, by rw [hl]; simp only [hp]⟩

lemma read_ready {r : Reader} (hr : r.Ready) (want : Nat) :
    ∃ s, r.read want = (.ok (r.rest.take want), s) ∧ Later r s ∧ s.rest = r.rest.drop want := by
  obtain ⟨number, hle, ha⟩ := advance_ready hr want
  let stop := r.position + min want (r.data.size - r.position)
  have hb : r.slice r.position stop = r.rest.take want := by
    rw [slice, Array.toList_extract, List.extract_eq_take_drop, Nat.add_sub_cancel_left,
      ← length_rest]
    exact (List.take_eq_take_min ..).symm
  let s : Reader := { r with position := stop, reads := number, fetched := r.frontier want }
  have hs : s.Ready := ⟨fun n hn => hr.delivers n (Nat.lt_of_le_of_lt hle hn), hr.length_eq⟩
  refine ⟨s, by simp only [read, ha, ← hb]; rfl, ⟨hs, rfl, rfl⟩, ?_⟩
  change r.data.toList.drop stop = (r.data.toList.drop r.position).drop want
  rw [List.drop_drop]
  by_cases hw : want ≤ r.data.size - r.position
  · rw [show stop = r.position + want by omega]
  · rw [List.drop_eq_nil_of_le, List.drop_eq_nil_of_le] <;> rw [Array.length_toList] <;> omega

def Delivers (r : Reader) : Prop := ∀ n, r.schedule.event n ≠ .failed

lemma readOnce_delivers {r : Reader} (hr : r.Delivers) (want : Nat) :
    ∃ count s, r.readOnce want = (.ok count, s) ∧ s.Delivers := by
  rw [readOnce]
  split
  · next he => exact absurd he (hr _)
  · exact ⟨_, _, rfl, hr⟩

lemma advance_delivers {r : Reader} (hr : r.Delivers) (want : Nat) :
    ∃ s, r.advance want = (none, s) ∧ s.Delivers := by
  fun_induction advance r want with
  | case1 r => exact ⟨r, rfl, hr⟩
  | case2 r want hw f s h =>
    obtain ⟨count, s, he, -⟩ := readOnce_delivers hr want
    cases he.symm.trans h
  | case3 r want hw s h =>
    obtain ⟨count, s, he, hs⟩ := readOnce_delivers hr want
    cases he.symm.trans h
    exact ⟨s, rfl, hs⟩
  | case4 r want hw count s h hc ih =>
    obtain ⟨count, s, he, hs⟩ := readOnce_delivers hr want
    cases he.symm.trans h
    exact ih hs

lemma read_delivers {r s : Reader} (hr : r.Delivers) {want : Nat} {result : Except Fault Bytes}
    (h : r.read want = (result, s)) : (∃ bytes, result = .ok bytes) ∧ s.Delivers := by
  obtain ⟨u, ha, hu⟩ := advance_delivers hr want
  rw [read, ha] at h
  cases h
  exact ⟨⟨_, rfl⟩, hu⟩

lemma reliable_ofBytes (data : Bytes) (position : Nat) : (ofBytes data position .prompt).Reliable :=
  ⟨fun _ => ReadEvent.noConfusion, rfl⟩

lemma rest_ofBytes (data : Bytes) (s : Schedule) : (ofBytes data 0 s).rest = data := by
  simp [rest, ofBytes]

end Reader

end SaveSet
