import Mathlib.Data.List.Induction
import Mathlib.Data.Nat.Digits.Defs
import Mathlib.Tactic.Lemma
import SaveSet.Text.Numeral

namespace SaveSet.Numeral

def digitValue (c : Char) : Nat := c.toNat - '0'.toNat

def value (ds : List Char) : Nat := Nat.ofDigits 10 (ds.reverse.map digitValue)

structure IsNumeral (ds : List Char) : Prop where
  nonempty : ds ≠ []
  all_digits : ∀ c ∈ ds, isDigit c = true

inductive Denotes : List Char → Int → Prop
  | unsigned {ds : List Char} (h : IsNumeral ds) : Denotes ds (value ds)
  | positive {ds : List Char} (h : IsNumeral ds) : Denotes ('+' :: ds) (value ds)
  | negative {ds : List Char} (h : IsNumeral ds) : Denotes ('-' :: ds) (-(value ds : Int))

def lastDigits : Nat → Nat → List Char
  | 0, _ => []
  | width + 1, n => lastDigits width (n / 10) ++ [Nat.digitChar (n % 10)]

variable {cs ds : List Char} {c : Char} {m n d width : Nat} {i : Int}

lemma value_append_singleton (ds : List Char) (c : Char) : value (ds ++ [c]) = 10 * value ds + digitValue c := by
  rw [value, List.reverse_append, List.reverse_singleton, List.singleton_append, List.map_cons, Nat.ofDigits_cons,
    Nat.add_comm]
  rfl

lemma foldl_eq_value (ds : List Char) : ds.foldl (fun n c => 10 * n + (c.toNat - '0'.toNat)) 0 = value ds := by
  induction ds using List.reverseRecOn with
  | nil => rfl
  | append_singleton ds c ih => rw [List.foldl_append, ih, value_append_singleton]; rfl

lemma readDigits_eq_some_iff : readDigits ds = some n ↔ IsNumeral ds ∧ value ds = n := by
  rw [readDigits, foldl_eq_value]
  constructor
  · intro h
    split at h
    · next hds =>
      exact ⟨⟨hds.1, List.all_eq_true.mp hds.2⟩, Option.some.inj h⟩
    · cases h
  · rintro ⟨hds, rfl⟩
    exact if_pos ⟨hds.nonempty, List.all_eq_true.mpr hds.all_digits⟩

lemma readInteger_negative (ds : List Char) :
    readInteger ('-' :: ds) = (readDigits ds).map fun n => -Int.ofNat n := by
  rw [readInteger]
  cases readDigits ds <;> rfl

lemma readInteger_positive (ds : List Char) : readInteger ('+' :: ds) = (readDigits ds).map Int.ofNat := rfl

lemma readInteger_unsigned (hm : ∀ ds, cs ≠ '-' :: ds) (hp : ∀ ds, cs ≠ '+' :: ds) :
    readInteger cs = (readDigits cs).map Int.ofNat := by
  unfold readInteger
  split
  · exact absurd rfl (hm _)
  · exact absurd rfl (hp _)
  · rfl

lemma IsNumeral.ne_signed (h : IsNumeral cs) : (∀ ds, cs ≠ '-' :: ds) ∧ ∀ ds, cs ≠ '+' :: ds := by
  constructor <;> rintro ds rfl <;> exact absurd (h.all_digits _ List.mem_cons_self) (by decide)

lemma Denotes.of_readInteger (h : readInteger cs = some i) : Denotes cs i := by
  unfold readInteger at h
  split at h
  · next ds =>
    rw [← readInteger, readInteger_negative] at h
    obtain ⟨n, hn, rfl⟩ := Option.map_eq_some_iff.mp h
    obtain ⟨hds, rfl⟩ := readDigits_eq_some_iff.mp hn
    exact .negative hds
  · obtain ⟨n, hn, rfl⟩ := Option.map_eq_some_iff.mp h
    obtain ⟨hds, rfl⟩ := readDigits_eq_some_iff.mp hn
    exact .positive hds
  · obtain ⟨n, hn, rfl⟩ := Option.map_eq_some_iff.mp h
    obtain ⟨hds, rfl⟩ := readDigits_eq_some_iff.mp hn
    exact .unsigned hds

lemma readInteger_eq_some_iff : readInteger cs = some i ↔ Denotes cs i := by
  refine ⟨.of_readInteger, ?_⟩
  rintro (hds | hds | hds)
  · rw [readInteger_unsigned hds.ne_signed.1 hds.ne_signed.2, readDigits_eq_some_iff.mpr ⟨hds, rfl⟩]
    rfl
  · rw [readInteger_positive, readDigits_eq_some_iff.mpr ⟨hds, rfl⟩]
    rfl
  · rw [readInteger_negative, readDigits_eq_some_iff.mpr ⟨hds, rfl⟩]
    rfl

lemma digitValue_digit (h : d < 10) : isDigit (digit d) = true ∧ digitValue (digit d) = d := by
  have hall : ∀ d < 10, isDigit (digit d) = true ∧ digitValue (digit d) = d := by decide
  exact hall d h

lemma digits_step (h : 10 ≤ n) : digits 10 n = digits 10 (n / 10) ++ [digit (n % 10)] := by
  rw [digits, if_pos ⟨by decide, h⟩]

lemma digits_last (h : n < 10) : digits 10 n = [digit n] := by
  rw [digits, if_neg fun hn => absurd hn.2 (Nat.not_le.mpr h)]

lemma isNumeral_digits (n : Nat) : IsNumeral (digits 10 n) := by
  induction n using Nat.strongRecOn with
  | ind n ih =>
    rcases Nat.lt_or_ge n 10 with h | h
    · rw [digits_last h]
      exact ⟨List.cons_ne_nil _ _, List.forall_mem_singleton.mpr (digitValue_digit h).1⟩
    · have hlast := (digitValue_digit (Nat.mod_lt n (by decide : 0 < 10))).1
      rw [digits_step h]
      refine ⟨List.concat_ne_nil _ _, fun c hc => ?_⟩
      obtain hc | hc := List.mem_append.mp hc
      · exact (ih (n / 10) (by omega)).all_digits c hc
      · rwa [List.mem_singleton.mp hc]

lemma value_digits (n : Nat) : value (digits 10 n) = n := by
  induction n using Nat.strongRecOn with
  | ind n ih =>
    rcases Nat.lt_or_ge n 10 with h | h
    · rw [digits_last h, value, List.reverse_singleton, List.map_singleton, Nat.ofDigits_singleton,
        (digitValue_digit h).2]
    · have hlast := (digitValue_digit (Nat.mod_lt n (by decide : 0 < 10))).2
      rw [digits_step h, value_append_singleton, ih (n / 10) (by omega), hlast, Nat.div_add_mod]

lemma denotes_natural (n : Nat) : Denotes (natural n).toList n := by
  have h : Denotes (digits 10 n) (value (digits 10 n)) := .unsigned (isNumeral_digits n)
  rwa [value_digits, ← String.toList_ofList (l := digits 10 n)] at h

lemma denotes_integer (i : Int) : Denotes (integer i).toList i := by
  rw [integer]
  split
  · next hneg =>
    have h : Denotes ('-' :: digits 10 i.natAbs) (-(value (digits 10 i.natAbs) : Int)) :=
      .negative (isNumeral_digits _)
    have habs : -(i.natAbs : Int) = i := by omega
    rw [value_digits, habs] at h
    rwa [String.toList_append, natural, String.toList_ofList, String.toList_ofList]
  · next hpos =>
    have habs : (i.natAbs : Int) = i := by omega
    have h := denotes_natural i.natAbs
    rwa [habs] at h

lemma digit_eq_digitChar (h : d < 10) : digit d = Nat.digitChar d := by
  have hall : ∀ d < 10, digit d = Nat.digitChar d := by decide
  exact hall d h

lemma digits_eq_toDigits (n : Nat) : digits 10 n = Nat.toDigits 10 n := by
  induction n using Nat.strongRecOn with
  | ind n ih =>
    rcases Nat.lt_or_ge n 10 with h | h
    · rw [digits_last h, Nat.toDigits_of_lt_base h, digit_eq_digitChar h]
    · rw [digits_step h, ih (n / 10) (by omega), digit_eq_digitChar (Nat.mod_lt n (by decide)),
        Nat.toDigits_eq_if (n := n) (by decide), if_neg (Nat.not_lt.mpr h)]

lemma natural_eq_toString (n : Nat) : natural n = toString n := congrArg String.ofList (digits_eq_toDigits n)

lemma integer_eq_toString (i : Int) : integer i = toString i := by
  rw [integer, natural_eq_toString]
  cases i with
  | ofNat n => exact if_neg (Int.not_lt.mpr (Int.natCast_nonneg n))
  | negSucc n => exact if_pos (Int.negSucc_lt_zero n)

lemma toString_injective : Function.Injective (toString : Int → String) := by
  intro i j h
  have hi := readInteger_eq_some_iff.mpr (denotes_integer i)
  rw [integer_eq_toString, h, ← integer_eq_toString, readInteger_eq_some_iff.mpr (denotes_integer j)] at hi
  exact (Option.some.inj hi).symm

lemma lastDigits_succ (width n : Nat) :
    lastDigits (width + 1) n = lastDigits width (n / 10) ++ [Nat.digitChar (n % 10)] := rfl

lemma length_lastDigits (width n : Nat) : (lastDigits width n).length = width := by
  induction width generalizing n with
  | zero => rfl
  | succ width ih => rw [lastDigits, List.length_append, ih, List.length_singleton]

lemma lastDigits_add (width k n : Nat) :
    lastDigits (width + k) n = lastDigits width (n / 10 ^ k) ++ lastDigits k n := by
  induction k generalizing n with
  | zero => simp [lastDigits]
  | succ k ih =>
    rw [← Nat.add_assoc, lastDigits, ih, lastDigits, List.append_assoc, Nat.div_div_eq_div_mul, ← Nat.pow_succ']

lemma value_lastDigits (h : n < 10 ^ width) : value (lastDigits width n) = n := by
  induction width generalizing n with
  | zero => exact (Nat.lt_one_iff.mp h).symm
  | succ width ih =>
    have hlast := (digitValue_digit (Nat.mod_lt n (by decide : 0 < 10))).2
    rw [digit_eq_digitChar (Nat.mod_lt n (by decide))] at hlast
    rw [lastDigits, value_append_singleton, ih (Nat.div_lt_of_lt_mul (Nat.pow_succ' ▸ h)), hlast, Nat.div_add_mod]

lemma lastDigits_append_inj (hm : m < 10 ^ width) (hn : n < 10 ^ width)
    (h : lastDigits width m ++ cs = lastDigits width n ++ ds) : m = n ∧ cs = ds := by
  obtain ⟨hdigits, hrest⟩ := List.append_inj h (by rw [length_lastDigits, length_lastDigits])
  rw [← value_lastDigits hm, hdigits, value_lastDigits hn]
  exact ⟨rfl, hrest⟩

lemma leftpad_append_singleton (ds : List Char) (c : Char) :
    (ds ++ [c]).leftpad (width + 1) '0' = ds.leftpad width '0' ++ [c] := by
  simp [List.leftpad]

lemma leftpad_digits (h : n < 10 ^ (width + 1)) :
    (digits 10 n).leftpad (width + 1) '0' = lastDigits (width + 1) n := by
  induction width generalizing n with
  | zero =>
    have hn : n < 10 := h
    rw [digits_last hn, lastDigits, Nat.mod_eq_of_lt hn, digit_eq_digitChar hn]
    rfl
  | succ width ih =>
    rcases Nat.lt_or_ge n 10 with hn | hn
    · -- nothing is left of the number, and its numeral would be a zero
      have hzero : List.leftpad (width + 1) '0' [] = lastDigits (width + 1) 0 := by
        rw [← ih (Nat.pos_of_neZero _), digits_last (by decide), ← List.nil_append [digit 0],
          leftpad_append_singleton]
        simp [List.leftpad, List.replicate_succ', digit]
      rw [digits_last hn, ← List.nil_append [digit n], leftpad_append_singleton, hzero,
        lastDigits_succ (width + 1) n, Nat.div_eq_of_lt hn, Nat.mod_eq_of_lt hn, digit_eq_digitChar hn]
    · rw [digits_step hn, leftpad_append_singleton, ih (Nat.div_lt_of_lt_mul (Nat.pow_succ' ▸ h)),
        digit_eq_digitChar (Nat.mod_lt n (by decide))]
      rfl

lemma padLeft_natural (h : n < 10 ^ (width + 1)) :
    padLeft (width + 1) '0' (natural n) = String.ofList (lastDigits (width + 1) n) := by
  rw [padLeft, natural, String.toList_ofList, leftpad_digits h]

end SaveSet.Numeral
