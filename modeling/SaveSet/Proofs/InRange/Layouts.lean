import Mathlib.Data.Finset.Lattice.Fold
import Mathlib.Data.Finset.Range
import Mathlib.Order.Lattice.Nat
import SaveSet.Proofs.InRange.Headers

/-! Field tables resolved in words of a machine, with every number and every place in the table checked. Each field
stands where it is specified to, and a table is as long as its furthest field needs it to be. -/

namespace SaveSet

def fit? (bits n : Nat) : Option Nat := if n < 2 ^ bits then some n else none

lemma fit?_eq_some {bits n m : Nat} : fit? bits n = some m ↔ n < 2 ^ bits ∧ n = m := by
  rw [fit?]
  split
  · next h => simp [h]
  · next h => simp [h]

lemma fit?_eq {bits n : Nat} (h : n < 2 ^ bits) : fit? bits n = some n := fit?_eq_some.mpr ⟨h, rfl⟩

namespace Anchor

variable {a : Anchor} {placed : List Field} {bits : Nat}

def RefersBelow (n : Nat) : Anchor → Prop
  | start => True
  | after i | overlay i => i < n

instance (n : Nat) : (a : Anchor) → Decidable (a.RefersBelow n)
  | start => isTrue trivial
  | after i | overlay i => inferInstanceAs (Decidable (i < n))

def Fixes (l : Layout) (offset : Nat) : Anchor → Prop
  | start => offset = 0
  | after i => offset = (l.field i).stop
  | overlay i => offset = (l.field i).offset

lemma fixes_offset (a : Anchor) (l : Layout) : a.Fixes l (a.offset l.fields) := by
  cases a <;> rfl

lemma offset_append (h : a.RefersBelow placed.length) (more : List Field) :
    a.offset (placed ++ more) = a.offset placed := by
  cases a with
  | start => rfl
  | after i => rw [offset, offset, List.getD_append _ _ _ _ h]
  | overlay i => rw [offset, offset, List.getD_append _ _ _ _ h]

def offset? (bits : Nat) (placed : List Field) : Anchor → Option Nat
  | start => some 0
  | after i => placed[i]?.bind fun f => fit? bits (f.offset + f.size)
  | overlay i => placed[i]?.map Field.offset

lemma offset?_eq (h : a.RefersBelow placed.length) (hfit : a.offset placed < 2 ^ bits) :
    a.offset? bits placed = some (a.offset placed) := by
  cases a with
  | start => rfl
  | after i =>
    rw [offset, List.getD_eq_getElem _ _ h] at hfit ⊢
    rw [offset?, List.getElem?_eq_getElem h]
    exact fit?_eq hfit
  | overlay i =>
    rw [offset?, offset, List.getElem?_eq_getElem h, List.getD_eq_getElem _ _ h]
    rfl

lemma offset_of_offset? {offset : Nat} (h : a.RefersBelow placed.length) (ho : a.offset? bits placed = some offset) :
    offset = a.offset placed := by
  cases a with
  | start => exact (Option.some.inj ho).symm
  | after i =>
    rw [offset?, List.getElem?_eq_getElem h, Option.bind_some, fit?_eq_some] at ho
    rw [Anchor.offset, List.getD_eq_getElem _ _ h]
    exact ho.2.symm
  | overlay i =>
    rw [offset?, List.getElem?_eq_getElem h] at ho
    rw [Anchor.offset, List.getD_eq_getElem _ _ h]
    exact (Option.some.inj ho).symm

end Anchor

namespace FieldSpec

variable {s : FieldSpec} {placed : List Field} {bits : Nat}

def place? (bits : Nat) (placed : List Field) (s : FieldSpec) : Option Field := do
  let offset ← s.anchor.offset? bits placed
  let size ← fit? bits (s.width * s.count)
  let _ ← fit? bits (offset + size)
  return ⟨offset, size⟩

lemma place?_eq_some (h : s.anchor.RefersBelow placed.length) {f : Field} :
    s.place? bits placed = some f ↔ (s.place placed).stop < 2 ^ bits ∧ s.place placed = f := by
  constructor
  · intro hf
    obtain ⟨offset, ho, hf⟩ := Option.bind_eq_some_iff.mp hf
    obtain ⟨size, hs, hf⟩ := Option.bind_eq_some_iff.mp hf
    obtain ⟨stop, hstop, hf⟩ := Option.bind_eq_some_iff.mp hf
    obtain rfl := Anchor.offset_of_offset? h ho
    obtain ⟨-, rfl⟩ := fit?_eq_some.mp hs
    exact ⟨(fit?_eq_some.mp hstop).1, Option.some.inj hf⟩
  · rintro ⟨hfit, rfl⟩
    have hstop : s.anchor.offset placed + s.width * s.count < 2 ^ bits := hfit
    rw [place?, Anchor.offset?_eq h (by omega), fit?_eq (by omega)]
    simp only [Option.bind_eq_bind, Option.bind_some, fit?_eq hstop]
    rfl

end FieldSpec

namespace Layout

variable {specs : List FieldSpec} {placed : List Field} {l : Layout} {bits : Nat}

def IsBackward (specs : List FieldSpec) : Prop :=
  ∀ i (hi : i < specs.length), specs[i].anchor.RefersBelow i

instance (specs : List FieldSpec) : Decidable (IsBackward specs) :=
  inferInstanceAs (Decidable (∀ i (hi : i < specs.length), specs[i].anchor.RefersBelow i))

lemma prefix_placeAll (placed : List Field) (specs : List FieldSpec) : placed <+: placeAll placed specs := by
  induction specs generalizing placed with
  | nil => exact List.prefix_rfl
  | cons s specs ih => exact (List.prefix_append _ _).trans (ih _)

lemma length_placeAll (placed : List Field) (specs : List FieldSpec) :
    (placeAll placed specs).length = placed.length + specs.length := by
  induction specs generalizing placed with
  | nil => rfl
  | cons s specs ih =>
    rw [placeAll, ih, List.length_append, List.length_singleton, List.length_cons]
    omega

lemma getElem?_placeAll (placed : List Field) (specs : List FieldSpec) {i : Nat} (hi : i < specs.length) :
    (placeAll placed specs)[placed.length + i]? =
      some (specs[i].place ((placeAll placed specs).take (placed.length + i))) := by
  induction specs generalizing placed i with
  | nil => cases hi
  | cons s specs ih =>
    rw [placeAll]
    cases i with
    | zero =>
      -- Later fields go behind the one just placed, which stays where it is.
      obtain ⟨rest, hrest⟩ := prefix_placeAll (placed ++ [s.place placed]) specs
      rw [← hrest, List.append_assoc, Nat.add_zero, List.take_left, List.getElem?_append_right (Nat.le_refl _),
        Nat.sub_self]
      rfl
    | succ i =>
      have hlength : placed.length + (i + 1) = (placed ++ [s.place placed]).length + i := by
        rw [List.length_append, List.length_singleton]
        omega
      rw [hlength, ih _ (Nat.lt_of_succ_lt_succ hi)]
      rfl

lemma length_fields (specs : List FieldSpec) : (resolve specs).fields.length = specs.length := by
  rw [resolve, length_placeAll, List.length_nil, Nat.zero_add]

lemma field_eq (h : IsBackward specs) {i : Nat} (hi : i < specs.length) :
    (resolve specs).field i = specs[i].place (resolve specs).fields := by
  have hfront : ((resolve specs).fields.take i).length = i := by
    rw [List.length_take, length_fields, Nat.min_eq_left (Nat.le_of_lt hi)]
  have hplace : (resolve specs).fields[i]? = some (specs[i].place ((resolve specs).fields.take i)) := by
    have hplaced := getElem?_placeAll [] specs hi
    rwa [List.length_nil, Nat.zero_add] at hplaced
  have hrefers : specs[i].anchor.RefersBelow ((resolve specs).fields.take i).length := by
    rw [hfront]
    exact h i hi
  have hoffset := Anchor.offset_append hrefers ((resolve specs).fields.drop i)
  rw [List.take_append_drop] at hoffset
  rw [field, List.getD_eq_getElem?_getD, hplace, Option.getD_some, FieldSpec.place, FieldSpec.place, hoffset]

lemma forall_fields {p : Field → Prop} : (∀ f ∈ l.fields, p f) ↔ ∀ i < l.fields.length, p (l.field i) := by
  rw [List.forall_mem_iff_forall_getElem]
  refine forall_congr' fun i => forall_congr' fun hi => ?_
  rw [field, List.getD_eq_getElem _ _ hi]

lemma length_eq_sup (l : Layout) : l.length = (Finset.range l.fields.length).sup fun i => (l.field i).stop := by
  apply eq_of_forall_ge_iff
  intro n
  rw [length_le, forall_fields, Finset.sup_le_iff]
  simp only [Finset.mem_range]

lemma length_snoc (placed : List Field) (f : Field) :
    (if (Layout.mk placed).length < f.stop then f.stop else (Layout.mk placed).length) =
      (Layout.mk (placed ++ [f])).length := by
  have hmax : (Layout.mk (placed ++ [f])).length = max (Layout.mk placed).length f.stop := by
    rw [length, List.map_append, List.foldl_append]
    rfl
  rw [hmax]
  split <;> omega

def resolveAfter? (bits : Nat) (placed : List Field) (length : Nat) : List FieldSpec → Option (List Field × Nat)
  | [] => some (placed, length)
  | s :: specs => do
    let f ← s.place? bits placed
    resolveAfter? bits (placed ++ [f]) (if length < f.offset + f.size then f.offset + f.size else length) specs

def resolve? (bits : Nat) (specs : List FieldSpec) : Option (List Field × Nat) := resolveAfter? bits [] 0 specs

lemma resolveAfter?_eq_some (hb : ∀ i (hi : i < specs.length), specs[i].anchor.RefersBelow (placed.length + i))
    (hfit : ∀ f ∈ placed, f.stop < 2 ^ bits) {r : List Field × Nat} :
    resolveAfter? bits placed (Layout.mk placed).length specs = some r ↔
      (∀ f ∈ placeAll placed specs, f.stop < 2 ^ bits) ∧
        (placeAll placed specs, (Layout.mk (placeAll placed specs)).length) = r := by
  -- In each step the length is that of the table so far.
  induction specs generalizing placed with
  | nil =>
    rw [resolveAfter?, placeAll, Option.some_inj]
    exact (and_iff_right hfit).symm
  | cons s specs ih =>
    have hs : s.anchor.RefersBelow placed.length := hb 0 (Nat.succ_pos _)
    by_cases hstop : (s.place placed).stop < 2 ^ bits
    · have hrest : ∀ i (hi : i < specs.length),
          specs[i].anchor.RefersBelow ((placed ++ [s.place placed]).length + i) := by
        intro i hi
        have hnext := hb (i + 1) (Nat.succ_lt_succ hi)
        rw [List.length_append, List.length_singleton, Nat.add_assoc, Nat.add_comm 1]
        exact hnext
      have hlonger : ∀ f ∈ placed ++ [s.place placed], f.stop < 2 ^ bits := by
        rw [List.forall_mem_append]
        exact ⟨hfit, fun f hf => List.mem_singleton.mp hf ▸ hstop⟩
      rw [resolveAfter?, (FieldSpec.place?_eq_some hs).mpr ⟨hstop, rfl⟩]
      refine Iff.trans ?_ (ih hrest hlonger)
      rw [← length_snoc]
      rfl
    · have hnone : s.place? bits placed = none := by
        rw [Option.eq_none_iff_forall_ne_some]
        exact fun f hf => hstop ((FieldSpec.place?_eq_some hs).mp hf).1
      have hmem : s.place placed ∈ placeAll placed (s :: specs) :=
        (prefix_placeAll (placed ++ [s.place placed]) specs).subset (by simp)
      rw [resolveAfter?, hnone]
      exact iff_of_false (nomatch ·) fun h => hstop (h.1 _ hmem)

lemma resolve?_eq_some (h : IsBackward specs) :
    resolve? bits specs = some ((resolve specs).fields, (resolve specs).length) ↔
      ∀ i < specs.length, ((resolve specs).field i).stop < 2 ^ bits := by
  have hb : ∀ i (hi : i < specs.length), specs[i].anchor.RefersBelow (([] : List Field).length + i) := by
    intro i hi
    rw [List.length_nil, Nat.zero_add]
    exact h i hi
  have hfields : (∀ f ∈ (resolve specs).fields, f.stop < 2 ^ bits) ↔
      ∀ i < specs.length, ((resolve specs).field i).stop < 2 ^ bits := by rw [forall_fields, length_fields]
  refine (resolveAfter?_eq_some hb (List.forall_mem_nil _)).trans (Iff.trans ?_ hfields)
  exact and_iff_left rfl

lemma check_iff {what : String} {buf : Bytes} :
    l.check what buf = .ok () ↔ ∀ i < l.fields.length, (l.field i).stop ≤ buf.length := by
  rw [check_eq_ok, length_le, forall_fields]

/-- Anchors that refer to earlier fields put each field where it is specified to be. The check asks for the bytes up to
the end of the furthest field, and once it has passed the bytes of every field can be read. -/
theorem layouts_end_with_the_furthest_field (h : IsBackward specs) :
    (resolve specs).fields.length = specs.length ∧
      (∀ i (hi : i < specs.length), ((resolve specs).field i).size = specs[i].width * specs[i].count ∧
        specs[i].anchor.Fixes (resolve specs) ((resolve specs).field i).offset) ∧
      ((resolve specs).length = (Finset.range specs.length).sup fun i => ((resolve specs).field i).stop) ∧
      (∀ what buf,
        ((resolve specs).check what buf = .ok () ↔
          ∀ i < specs.length, ((resolve specs).field i).stop ≤ buf.length) ∧
        ((∃ i < specs.length, buf.length < ((resolve specs).field i).stop) →
          (resolve specs).check what buf = .error ⟨what, (resolve specs).length, buf.length⟩) ∧
        ((resolve specs).check what buf = .ok () →
          ∀ i < specs.length, ∀ count ≤ ((resolve specs).field i).size,
            buf.range? ((resolve specs).field i).offset (((resolve specs).field i).offset + count) =
              some (buf.slice ((resolve specs).field i).offset count))) ∧
      ∀ bits, resolve? bits specs = some ((resolve specs).fields, (resolve specs).length) ↔
        ∀ i < specs.length, ((resolve specs).field i).stop < 2 ^ bits := by
  have hcheck {what : String} {buf : Bytes} : (resolve specs).check what buf = .ok () ↔
      ∀ i < specs.length, ((resolve specs).field i).stop ≤ buf.length := by rw [check_iff, length_fields]
  refine ⟨length_fields specs, fun i hi => ?_, ?_, fun what buf => ⟨hcheck, ?_, ?_⟩, fun bits => resolve?_eq_some h⟩
  · rw [field_eq h hi]
    exact ⟨rfl, Anchor.fixes_offset _ _⟩
  · rw [length_eq_sup, length_fields]
  · rintro ⟨i, hi, hshort⟩
    cases hc : (resolve specs).check what buf with
    | ok _ => exact absurd (hcheck.mp hc i hi) (Nat.not_le.mpr hshort)
    | error s => rw [(check_eq_error hc).2]
  · intro hc i hi count hcount
    have hstop := hcheck.mp hc i hi
    rw [Field.stop] at hstop
    exact Bytes.range?_eq (by omega)

def fieldsWithin : List FieldSpec :=
  [ { anchor := .start, width := 2 },
    { anchor := .after 0, width := 1, count := 6 },
    { anchor := .overlay 1, width := 4 },
    { anchor := .after 2, width := 1 } ]

theorem a_field_before_the_last_is_furthest :
    IsBackward fieldsWithin ∧ (resolve fieldsWithin).field 3 = ⟨6, 1⟩ ∧ (resolve fieldsWithin).length = 8 ∧
      (resolve fieldsWithin).check "probe" [1, 2, 3, 4, 5, 6, 7] = .error ⟨"probe", 8, 7⟩ ∧
      Bytes.range? [1, 2, 3, 4, 5, 6, 7, 8] 2 8 = some [3, 4, 5, 6, 7, 8] ∧
      resolve? 3 fieldsWithin ≠ some ((resolve fieldsWithin).fields, 8) ∧
      resolve? 4 fieldsWithin = some ((resolve fieldsWithin).fields, 8) := by
  have hbackward : IsBackward fieldsWithin := by decide
  obtain ⟨-, hplaced, hlength, hcheck, hwords⟩ := layouts_end_with_the_furthest_field hbackward
  obtain ⟨hsize, hoffset⟩ := hplaced 3 (by decide)
  have height : (resolve fieldsWithin).length = 8 := hlength.trans (by decide)
  rw [height] at hcheck hwords
  refine ⟨hbackward, congrArg₂ Field.mk hoffset hsize, height,
    (hcheck "probe" _).2.1 ⟨1, by decide, by decide⟩,
    (hcheck "probe" [1, 2, 3, 4, 5, 6, 7, 8]).2.2 (by decide) 1 (by decide) 6 (by decide),
    mt (hwords 3).mp (by decide), (hwords 4).mpr (by decide)⟩

end Layout

end SaveSet
