namespace SaveSet

abbrev Bytes := List UInt8

namespace Bytes

def toNat : Bytes → Nat
  | [] => 0
  | b :: bs => b.toNat + 256 * toNat bs

def ofNat : Nat → Nat → Bytes
  | 0, _ => []
  | k + 1, n => UInt8.ofNat n :: ofNat k (n / 256)

@[simp] theorem length_ofNat (k n : Nat) : (ofNat k n).length = k := by
  induction k generalizing n with
  | zero => rfl
  | succ k ih => simp [ofNat, ih]

def capacity : Nat → Nat
  | 0 => 1
  | k + 1 => 256 * capacity k

theorem toNat_lt (bs : Bytes) : toNat bs < capacity bs.length := by
  induction bs with
  | nil => decide
  | cons b bs ih =>
    have hb := b.toNat_lt
    simp only [toNat, List.length_cons, capacity]
    omega

theorem toNat_ofNat (k n : Nat) : toNat (ofNat k n) = n % capacity k := by
  induction k generalizing n with
  | zero => simp [ofNat, toNat, capacity, Nat.mod_one]
  | succ k ih =>
    have hb : (UInt8.ofNat n).toNat = n % 256 := by simp
    rw [ofNat, toNat, ih, hb, capacity, Nat.mod_mul]

def toInt (bs : Bytes) : Int :=
  if 2 * toNat bs < capacity bs.length then toNat bs
  else (toNat bs : Int) - (capacity bs.length : Int)

def wordsAfter (before : List Nat) : Bytes → List Nat
  | lo :: hi :: bs => wordsAfter (toNat [lo, hi] :: before) bs
  | _ => before.reverse

theorem wordsAfter_eq (before : List Nat) :
    (bs : Bytes) → wordsAfter before bs = before.reverse ++ wordsAfter [] bs
  | [] | [_] => by simp [wordsAfter]
  | lo :: hi :: bs => by
    simp [wordsAfter, wordsAfter_eq (toNat [lo, hi] :: before) bs, wordsAfter_eq [toNat [lo, hi]] bs]

def words (bs : Bytes) : List Nat := wordsAfter [] bs

@[simp] theorem words_cons_cons (lo hi : UInt8) (bs : Bytes) :
    words (lo :: hi :: bs) = toNat [lo, hi] :: words bs := by
  simp [words, wordsAfter, wordsAfter_eq [toNat [lo, hi]]]

def holds : Nat → Bytes → Bool
  | 0, _ => true
  | _ + 1, [] => false
  | n + 1, _ :: bs => holds n bs

theorem holds_iff {n : Nat} {bs : Bytes} : holds n bs = true ↔ n ≤ bs.length := by
  induction n generalizing bs with
  | zero => simp [holds]
  | succ n ih => cases bs <;> simp [holds, ih]

def slice (bs : Bytes) (offset count : Nat) : Bytes := (bs.drop offset).take count

@[simp] theorem length_slice (bs : Bytes) (offset count : Nat) :
    (bs.slice offset count).length = min count (bs.length - offset) := by
  simp [slice]

def latin1 (bs : Bytes) : String := String.ofList (bs.map fun b => Char.ofNat b.toNat)

def isHigh (b : UInt8) : Bool := 0x7F < b

end Bytes

end SaveSet
