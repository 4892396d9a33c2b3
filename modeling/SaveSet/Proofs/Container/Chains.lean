import SaveSet.Proofs.Container.Attributes

/-! Which texts are read as file attributes. They are those that attributes can be stored as, and any other text comes
upon an attribute that declares more bytes than are left of it. -/

namespace SaveSet

namespace Bytes

lemma ofNat_toNat {bytes : Bytes} {k : Nat} (h : bytes.length = k) : ofNat k (toNat bytes) = bytes := by
  subst h
  induction bytes with
  | nil => rfl
  | cons b bs ih =>
    have hb := b.toNat_lt
    have hlow : UInt8.ofNat (toNat (b :: bs)) = b := by
      apply UInt8.toNat_inj.mp
      rw [UInt8.toNat_ofNat', toNat]
      omega
    have hrest : toNat (b :: bs) / 256 = toNat bs := by
      rw [toNat]
      omega
    rw [List.length_cons, ofNat, hlow, hrest, ih]

end Bytes

lemma Tag.number_ofNumber (n : Nat) : (ofNumber n).number = n := by
  have hknown : ∀ e ∈ known, e.1.number = e.2 := by decide
  rw [ofNumber]
  cases h : known.find? (·.2 == n) with
  | none => rfl
  | some e =>
    have hn : (e.2 == n) = true := List.find?_some (p := fun e : Tag × Nat => e.2 == n) h
    rw [beq_iff_eq] at hn
    exact (hknown e (List.mem_of_find?_eq_some h)).trans hn

lemma Tag.ofNumber_injective : Function.Injective ofNumber :=
  Function.LeftInverse.injective number_ofNumber

namespace StoredAttribute

def lastNumbered (n : Nat) (as : List StoredAttribute) : Option Bytes :=
  (as.reverse.find? (·.number == n)).map payload

def Spells (as : List StoredAttribute) (text : Bytes) : Prop :=
  ∃ preamble slack : Bytes, preamble.length = 2 ∧ slack.length < 4 ∧ text = preamble ++ (as.flatMap encode ++ slack)

structure Overdrawn (rest : Bytes) : Prop where
  header : 4 ≤ rest.length
  payload : rest.length < 4 + (rest.slice 0 2).toNat

/-- Behind some attributes the text goes on with one that is cut short, and `e` says how short. -/
def Overruns (text : Bytes) (e : Shortfall) : Prop :=
  ∃ (preamble : Bytes) (as : List StoredAttribute) (rest : Bytes), preamble.length = 2 ∧ Overdrawn rest ∧
    text = preamble ++ (as.flatMap encode ++ rest) ∧
    e = ⟨"attribute payload", 4 + (rest.slice 0 2).toNat, rest.length⟩

lemma last?_ofNumber (n : Nat) (as : List StoredAttribute) : last? (.ofNumber n) as = lastNumbered n as := by
  have htag : (fun a : StoredAttribute => a.tag == .ofNumber n) = (·.number == n) := by
    funext a
    rw [Bool.eq_iff_iff, beq_iff_eq, beq_iff_eq]
    exact Tag.ofNumber_injective.eq_iff
  rw [last?, lastNumbered, htag]

lemma last?_eq_some {t : Tag} {as : List StoredAttribute} {payload : Bytes} (h : last? t as = some payload) :
    ∃ n, t = .ofNumber n := by
  obtain ⟨a, ha, -⟩ := Option.map_eq_some_iff.mp h
  have ht : (a.tag == t) = true := List.find?_some (p := (StoredAttribute.tag · == t)) ha
  exact ⟨a.number, (beq_iff_eq.mp ht).symm⟩

lemma nodup_collect (as : List StoredAttribute) : (collect as .empty).table.keys.Nodup := by
  have hkept : ∀ a : FileAttributes, a.table.keys.Nodup → (collect as a).table.keys.Nodup := by
    induction as with
    | nil => exact fun a h => h
    | cons x as ih => exact fun a h => ih (a.put x.tag x.payload) (Table.nodup_keys_put h _ _)
  exact hkept .empty List.nodup_nil

lemma exists_encode {bytes : Bytes} (h : 4 + (bytes.slice 0 2).toNat ≤ bytes.length) :
    ∃ (x : StoredAttribute) (rest : Bytes), bytes = x.encode ++ rest := by
  have hword (offset : Nat) (ho : offset + 2 ≤ bytes.length) : (bytes.slice offset 2).length = 2 := by
    rw [Bytes.length_slice]
    omega
  have hsize := hword 0 (by omega)
  have hnumber := hword 2 (by omega)
  have hpayload : (bytes.slice 4 (bytes.slice 0 2).toNat).length = (bytes.slice 0 2).toNat := by
    rw [Bytes.length_slice]
    omega
  have hcapacity (word : Bytes) (hw : word.length = 2) : word.toNat < 65536 := by
    have hlt := word.toNat_lt
    rwa [hw] at hlt
  let x : StoredAttribute := ⟨(bytes.slice 2 2).toNat, bytes.slice 4 (bytes.slice 0 2).toNat, hcapacity _ hnumber,
    by rw [hpayload]; exact hcapacity _ hsize⟩
  have hfirst : Bytes.ofNat 2 x.payload.length = bytes.slice 0 2 :=
    (congrArg (Bytes.ofNat 2) hpayload).trans (Bytes.ofNat_toNat hsize)
  have hsecond : Bytes.ofNat 2 x.number = bytes.slice 2 2 := Bytes.ofNat_toNat hnumber
  have hencode : x.encode = bytes.take (2 + (2 + (bytes.slice 0 2).toNat)) := by
    rw [encode, hfirst, hsecond, List.take_add, List.take_add, List.drop_drop]
    rfl
  exact ⟨x, bytes.drop (2 + (2 + (bytes.slice 0 2).toNat)), by rw [hencode, List.take_append_drop]⟩

lemma exists_attributes (bytes : Bytes) :
    ∃ (as : List StoredAttribute) (rest : Bytes), bytes = as.flatMap encode ++ rest ∧
      (rest.length < 4 ∨ Overdrawn rest) := by
  induction h : bytes.length using Nat.strongRecOn generalizing bytes with
  | ind n ih =>
    by_cases hheader : bytes.length < 4
    · exact ⟨[], bytes, rfl, Or.inl hheader⟩
    · by_cases hpayload : bytes.length < 4 + (bytes.slice 0 2).toNat
      · exact ⟨[], bytes, rfl, Or.inr ⟨Nat.le_of_not_lt hheader, hpayload⟩⟩
      · obtain ⟨x, left, rfl⟩ := exists_encode (Nat.le_of_not_lt hpayload)
        have hleft : left.length < n := by
          rw [← h, List.length_append, x.length_encode]
          omega
        obtain ⟨as, rest, rfl, hrest⟩ := ih left.length hleft left rfl
        exact ⟨x :: as, rest, by rw [List.flatMap_cons, List.append_assoc], hrest⟩

lemma decodeChain_overdrawn {rest : Bytes} (h : Overdrawn rest) (a : FileAttributes) :
    FileAttributes.decodeChain a rest =
      .error ⟨"attribute payload", 4 + (rest.slice 0 2).toNat, rest.length⟩ := by
  have hheader : Bytes.holds Attribute.layout.length rest = true := Bytes.holds_iff.mpr h.header
  have hpayload : Bytes.holds (Attribute.layout.length + Attribute.layout.number 0 rest) rest = false := by
    rw [Bool.eq_false_iff, ne_eq, Bytes.holds_iff, Nat.not_le]
    exact h.payload
  have hdecode : Attribute.decode rest = .error ⟨"attribute payload", 4 + (rest.slice 0 2).toNat, rest.length⟩ := by
    simp only [Attribute.decode, Layout.check, hheader, hpayload, bind, Except.bind, Bool.not_false, if_true]
    rfl
  rw [FileAttributes.decodeChain, dif_pos hheader, hdecode]

variable {as : List StoredAttribute} {preamble text : Bytes}

lemma decode_spelled (hp : preamble.length = 2) (as : List StoredAttribute) (rest : Bytes) :
    FileAttributes.decodeChain .empty ((preamble ++ (as.flatMap encode ++ rest)).drop 2) =
      FileAttributes.decodeChain (collect as .empty) rest := by
  rw [← hp, List.drop_left, decodeChain_append]

lemma Spells.decode (h : Spells as text) :
    FileAttributes.decodeChain .empty (text.drop 2) = .ok (collect as .empty) := by
  obtain ⟨preamble, slack, hp, hs, rfl⟩ := h
  rw [decode_spelled hp, decodeChain_short hs]

lemma Overruns.decode {e : Shortfall} (h : Overruns text e) :
    FileAttributes.decodeChain .empty (text.drop 2) = .error e := by
  obtain ⟨preamble, as, rest, hp, hrest, rfl, rfl⟩ := h
  rw [decode_spelled hp, decodeChain_overdrawn hrest]

lemma decode_of_length_le (h : text.length ≤ 2) : FileAttributes.decodeChain .empty (text.drop 2) = .ok .empty := by
  rw [List.drop_of_length_le h]
  exact decodeChain_short (by decide) _

lemma spells_or_overruns (text : Bytes) : text.length ≤ 2 ∨ (∃ as, Spells as text) ∨ ∃ e, Overruns text e := by
  by_cases h : text.length ≤ 2
  · exact Or.inl h
  · have hp : (text.take 2).length = 2 := by
      rw [List.length_take]
      omega
    obtain ⟨as, rest, hbytes, hrest⟩ := exists_attributes (text.drop 2)
    have htext : text = text.take 2 ++ (as.flatMap encode ++ rest) := by rw [← hbytes, List.take_append_drop]
    rcases hrest with hslack | hoverdrawn
    · exact Or.inr (Or.inl ⟨as, _, rest, hp, hslack, htext⟩)
    · exact Or.inr (Or.inr ⟨_, _, as, rest, hp, hoverdrawn, htext, rfl⟩)

end StoredAttribute

namespace FileAttributes

open StoredAttribute

lemma raw?_collected (as : List StoredAttribute) (t : Tag) : (collect as .empty).raw? t = last? t as := by
  rw [raw?_collect]
  exact Option.or_none

lemma mem_toList_collect (as : List StoredAttribute) (x : Attribute) :
    x ∈ (collect as .empty).toList ↔ ∃ n, x.tag = .ofNumber n ∧ lastNumbered n as = some x.payload := by
  have hentry : x ∈ (collect as .empty).toList ↔ (x.tag, x.payload) ∈ (collect as .empty).table.entries := by
    rw [toList, List.mem_mergeSort, List.mem_map]
    exact ⟨fun ⟨e, he, hx⟩ => hx ▸ he, fun he => ⟨_, he, rfl⟩⟩
  have hraw : (collect as .empty).table.get? x.tag = last? x.tag as := raw?_collected as x.tag
  rw [hentry, Table.mem_entries_iff (nodup_collect as), hraw]
  refine ⟨fun h => ?_, fun ⟨n, hn, h⟩ => ?_⟩
  · obtain ⟨n, hn⟩ := last?_eq_some h
    exact ⟨n, hn, by rwa [← last?_ofNumber, ← hn]⟩
  · rwa [hn, last?_ofNumber]

lemma nodup_tags_collect (as : List StoredAttribute) : ((collect as .empty).toList.map Attribute.tag).Nodup := by
  have hsorted := List.mergeSort_perm ((collect as .empty).table.entries.map fun e => (⟨e.1, e.2⟩ : Attribute))
    fun x y => x.tag.rank ≤ y.tag.rank
  rw [toList, (hsorted.map Attribute.tag).nodup_iff, List.map_map]
  exact nodup_collect as

lemma decode_ok_iff (payload : Bytes) (declared : Nat) :
    (∃ a, decode payload declared = .ok a) ↔
      (payload.take declared).length ≤ 2 ∨ ∃ as, Spells as (payload.take declared) := by
  refine ⟨fun ⟨a, ha⟩ => ?_, fun h => ?_⟩
  · rcases spells_or_overruns (payload.take declared) with hshort | hspells | ⟨e, he⟩
    · exact Or.inl hshort
    · exact Or.inr hspells
    · cases ha.symm.trans he.decode
  · rcases h with hshort | ⟨as, hspells⟩
    · exact ⟨_, decode_of_length_le hshort⟩
    · exact ⟨_, hspells.decode⟩

lemma decode_error_iff (payload : Bytes) (declared : Nat) (e : Shortfall) :
    decode payload declared = .error e ↔ Overruns (payload.take declared) e := by
  refine ⟨fun he => ?_, Overruns.decode⟩
  rcases spells_or_overruns (payload.take declared) with hshort | ⟨as, hspells⟩ | ⟨e', he'⟩
  · cases he.symm.trans (decode_of_length_le hshort)
  · cases he.symm.trans hspells.decode
  · cases he.symm.trans he'.decode
    exact he'

/-- Attributes that are stored come back, of each number the last one. All texts that are read are such, and any other
is refused for an attribute that declares more bytes than are left. -/
theorem attributes_come_back_unless_one_overruns :
    (∀ (as : List StoredAttribute) (text extra : Bytes), Spells as text →
      ∃ a, decode (text ++ extra) text.length = .ok a ∧ (∀ n, a.raw? (.ofNumber n) = lastNumbered n as) ∧
        (a.toList.map Attribute.tag).Nodup ∧
        ∀ x, x ∈ a.toList ↔ ∃ n, x.tag = .ofNumber n ∧ lastNumbered n as = some x.payload) ∧
      Function.Injective Tag.ofNumber ∧
      ∀ (payload : Bytes) (declared : Nat),
        ((∃ a, decode payload declared = .ok a) ↔
          (payload.take declared).length ≤ 2 ∨ ∃ as, Spells as (payload.take declared)) ∧
        ∀ e, decode payload declared = .error e ↔ Overruns (payload.take declared) e := by
  refine ⟨fun as text extra h => ⟨collect as .empty, ?_, fun n => ?_, nodup_tags_collect as, mem_toList_collect as⟩,
    Tag.ofNumber_injective, fun payload declared => ⟨decode_ok_iff payload declared, decode_error_iff payload declared⟩⟩
  · rw [decode, List.take_left]
    exact h.decode
  · rw [raw?_collected, last?_ofNumber]

def twoIds : List StoredAttribute :=
  [⟨44, [65], by decide, by decide⟩, ⟨99, [1], by decide, by decide⟩, ⟨44, [66, 67], by decide, by decide⟩]

theorem the_last_id_counts :
    (∃ a, decode [0, 0, 1, 0, 44, 0, 65, 1, 0, 99, 0, 1, 2, 0, 44, 0, 66, 67, 7, 7, 8] 20 = .ok a ∧
      a.raw? .fid = some [66, 67] ∧ a.raw? (.unknown 99) = some [1]) ∧
      decode [0, 0, 9, 0, 44, 0, 65] 7 = .error ⟨"attribute payload", 13, 5⟩ := by
  obtain ⟨hstored, -, hread⟩ := attributes_come_back_unless_one_overruns
  obtain ⟨a, ha, hraw, -⟩ :=
    hstored twoIds [0, 0, 1, 0, 44, 0, 65, 1, 0, 99, 0, 1, 2, 0, 44, 0, 66, 67, 7, 7] [8]
      ⟨[0, 0], [7, 7], rfl, by decide, by decide⟩
  exact ⟨⟨a, ha, hraw 44, hraw 99⟩,
    ((hread _ 7).2 _).mpr ⟨[0, 0], [], [9, 0, 44, 0, 65], rfl, ⟨by decide, by decide⟩, rfl, rfl⟩⟩

end FileAttributes

end SaveSet
