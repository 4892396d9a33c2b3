import Mathlib.Data.List.GetD
import Mathlib.Data.Nat.PSub
import Mathlib.Tactic.Lemma
import SaveSet.Attribute.File
import SaveSet.Header.Block
import SaveSet.Header.Record

/-! Headers read with every access checked: a slice, an index or a difference that is out of range gives nothing. None
ever is, whatever the bytes are. -/

namespace SaveSet

def Bytes.range? (bs : Bytes) (start stop : Nat) : Option Bytes :=
  if start ≤ stop ∧ stop ≤ bs.length then some (bs.slice start (stop - start)) else none

namespace Bytes

variable {bs : Bytes} {start count : Nat}

lemma range?_eq (h : start + count ≤ bs.length) :
    bs.range? start (start + count) = some (bs.slice start count) := by
  rw [range?, if_pos ⟨Nat.le_add_right _ _, h⟩, Nat.add_sub_cancel_left]

lemma range?_prefix (h : count ≤ bs.length) : bs.range? 0 count = some (bs.take count) := by
  have hrange : bs.range? 0 (0 + count) = some (bs.slice 0 count) := range?_eq (by omega)
  rwa [Nat.zero_add, slice, List.drop_zero] at hrange

end Bytes

namespace Layout

def bytes? (l : Layout) (i : Nat) (buf : Bytes) : Option Bytes :=
  l.fields[i]?.bind fun f => buf.range? f.offset f.stop

def number? (l : Layout) (i : Nat) (buf : Bytes) : Option Nat := (l.bytes? i buf).map Bytes.toNat

variable {l : Layout} {buf : Bytes} {i : Nat}

lemma foldl_max_le {first n : Nat} {ns : List Nat} : ns.foldl max first ≤ n ↔ first ≤ n ∧ ∀ m ∈ ns, m ≤ n := by
  induction ns generalizing first with
  | nil => simp
  | cons m ns ih => rw [List.foldl_cons, ih, Nat.max_le, List.forall_mem_cons, and_assoc]

lemma length_le {n : Nat} : l.length ≤ n ↔ ∀ f ∈ l.fields, f.stop ≤ n := by
  rw [length, foldl_max_le, List.forall_mem_map]
  exact and_iff_right (Nat.zero_le n)

lemma bytes?_eq (hi : i < l.fields.length) (hl : l.length ≤ buf.length) :
    l.bytes? i buf = some (l.bytes i buf) := by
  have hstop : (l.fields[i]).stop ≤ buf.length := length_le.mp hl _ (List.getElem_mem hi)
  rw [bytes?, List.getElem?_eq_getElem hi, Option.bind_some, Field.stop, Bytes.range?_eq hstop, bytes, field,
    List.getD_eq_getElem _ _ hi]

lemma number?_eq (hi : i < l.fields.length) (hl : l.length ≤ buf.length) :
    l.number? i buf = some (l.number i buf) := by
  rw [number?, bytes?_eq hi hl]
  rfl

end Layout

namespace BlockHeader

def countedText? (raw : Bytes) : Option String := do
  let count ← raw[0]?
  let room ← raw.length.psub 1
  let text ← raw.range? 1 (1 + min count.toNat room)
  return Bytes.latin1 (text.filter (· ≠ 0))

def decode? (buf : Bytes) : Option (Except Shortfall BlockHeader) :=
  match layout.check "block header" buf with
  | .error s => some (.error s)
  | .ok () => do
    let headerSize ← layout.number? 0 buf
    let system ← layout.number? 1 buf
    let number ← layout.number? 4 buf
    let structureVersion ← layout.number? 7 buf
    let structureLevel ← layout.number? 8 buf
    let volume ← layout.number? 9 buf
    let crc ← layout.number? 10 buf
    let blockSize ← layout.number? 11 buf
    let flags ← layout.number? 12 buf
    let name ← (layout.bytes? 13 buf).bind countedText?
    let checksum ← layout.number? 25 buf
    return .ok ⟨headerSize, system, number, structureVersion, structureLevel, volume, crc, blockSize, flags, name,
      checksum⟩

lemma countedText?_eq {raw : Bytes} (h : raw ≠ []) : countedText? raw = some (countedText raw) := by
  cases raw with
  | nil => exact absurd rfl h
  | cons count text =>
    have hroom : (count :: text).length.psub 1 = some text.length := Nat.psub_eq_sub (by simp)
    have htext : Bytes.range? (count :: text) 1 (1 + min count.toNat text.length) =
        some (text.take (min count.toNat text.length)) :=
      Bytes.range?_eq (by rw [List.length_cons]; omega)
    rw [countedText?, hroom]
    simp only [List.getElem?_cons_zero, Option.bind_eq_bind, Option.bind_some, htext, countedText]
    rw [← List.take_eq_take_min]
    rfl

lemma bytes_name_ne_nil {buf : Bytes} (h : layout.length ≤ buf.length) : layout.bytes 13 buf ≠ [] := by
  have hfield : layout.field 13 = ⟨48, 32⟩ := by decide
  rw [length_layout] at h
  apply List.ne_nil_of_length_pos
  rw [Layout.bytes, hfield, Bytes.length_slice]
  dsimp only
  omega

lemma decode?_eq (buf : Bytes) : decode? buf = some (decode buf) := by
  rw [decode?, decode]
  cases hcheck : layout.check "block header" buf with
  | ok _ =>
    have hl := Layout.check_eq_ok.mp hcheck
    have hnumber {i : Nat} (hi : i < 26) : layout.number? i buf = some (layout.number i buf) :=
      Layout.number?_eq hi hl
    have hname : layout.bytes? 13 buf = some (layout.bytes 13 buf) := Layout.bytes?_eq (by decide) hl
    rw [hname, hnumber (by decide : 0 < 26), hnumber (by decide : 1 < 26), hnumber (by decide : 4 < 26),
      hnumber (by decide : 7 < 26), hnumber (by decide : 8 < 26), hnumber (by decide : 9 < 26),
      hnumber (by decide : 10 < 26), hnumber (by decide : 11 < 26), hnumber (by decide : 12 < 26),
      hnumber (by decide : 25 < 26), Option.bind_some, countedText?_eq (bytes_name_ne_nil hl)]
    rfl
  | error s => rfl

end BlockHeader

namespace RecordHeader

def decode? (buf : Bytes) : Option (Except Shortfall RecordHeader) :=
  match layout.check "record header" buf with
  | .error s => some (.error s)
  | .ok () => do
    let size ← layout.number? 0 buf
    let kindNumber ← layout.number? 1 buf
    let flags ← layout.number? 2 buf
    let address ← layout.number? 3 buf
    let blockFlags ← layout.number? 4 buf
    let image ← buf.range? 0 layout.length
    return .ok ⟨size, kindNumber, ⟨flags⟩, address, blockFlags, image⟩

lemma decode?_eq (buf : Bytes) : decode? buf = some (decode buf) := by
  rw [decode?, decode]
  cases hcheck : layout.check "record header" buf with
  | ok _ =>
    have hl := Layout.check_eq_ok.mp hcheck
    have hnumber {i : Nat} (hi : i < 6) : layout.number? i buf = some (layout.number i buf) :=
      Layout.number?_eq hi hl
    rw [hnumber (by decide : 0 < 6), hnumber (by decide : 1 < 6), hnumber (by decide : 2 < 6),
      hnumber (by decide : 3 < 6), hnumber (by decide : 4 < 6), Bytes.range?_prefix hl]
    rfl
  | error s => rfl

end RecordHeader

namespace Attribute

def decode? (buf : Bytes) : Option (Except Shortfall Attribute) :=
  match layout.check "attribute header" buf with
  | .error s => some (.error s)
  | .ok () => do
    let size ← layout.number? 0 buf
    if buf.length < layout.length + size then
      return .error ⟨"attribute payload", layout.length + size, buf.length⟩
    let tag ← layout.number? 1 buf
    let payload ← buf.range? layout.length (layout.length + size)
    return .ok ⟨.ofNumber tag, payload⟩

lemma decode?_eq (buf : Bytes) : decode? buf = some (decode buf) := by
  rw [decode?, decode]
  cases hcheck : layout.check "attribute header" buf with
  | ok _ =>
    have hl := Layout.check_eq_ok.mp hcheck
    have hnumber {i : Nat} (hi : i < 2) : layout.number? i buf = some (layout.number i buf) :=
      Layout.number?_eq hi hl
    rw [hnumber (by decide : 0 < 2), hnumber (by decide : 1 < 2)]
    by_cases hsize : layout.length + layout.number 0 buf ≤ buf.length
    · have hholds : Bytes.holds (layout.length + layout.number 0 buf) buf = true := Bytes.holds_iff.mpr hsize
      simp [Bytes.range?_eq hsize, Nat.not_lt.mpr hsize, hholds, bind, Except.bind, pure, Except.pure]
    · have hholds : Bytes.holds (layout.length + layout.number 0 buf) buf = false := by
        rw [← Bool.not_eq_true, Bytes.holds_iff]
        exact hsize
      simp [Nat.lt_of_not_le hsize, hholds, bind, Except.bind, pure, throw, throwThe, MonadExceptOf.throw]
  | error s => rfl

lemma length_pos (a : Attribute) : 0 < a.length := by
  rw [length, length_layout]
  omega

end Attribute

namespace FileAttributes

def scan? (a : FileAttributes) (payload : Bytes) (stop cursor : Nat) : Option (Except Shortfall FileAttributes) :=
  if _hc : cursor < stop then do
    let left ← stop.psub cursor
    if left < Attribute.layout.length then return .ok a
    let rest ← payload.range? cursor stop
    match ← Attribute.decode? rest with
    | .error s => return .error s
    | .ok r => scan? (a.put r.tag r.payload) payload stop (cursor + r.length)
  else some (.ok a)
termination_by stop - cursor
decreasing_by
  have := r.length_pos
  omega

def decode? (payload : Bytes) (declared : Nat) : Option (Except Shortfall FileAttributes) :=
  scan? empty payload (min declared payload.length) 2

lemma scan?_eq (a : FileAttributes) (payload : Bytes) {stop : Nat} (hstop : stop ≤ payload.length) (cursor : Nat) :
    scan? a payload stop cursor = some (decodeChain a ((payload.take stop).drop cursor)) := by
  fun_induction scan? a payload stop cursor with
  | case1 a cursor hc ih =>
    have hleft : stop.psub cursor = some (stop - cursor) := Nat.psub_eq_sub (Nat.le_of_lt hc)
    have hrest : payload.range? cursor stop = some ((payload.take stop).drop cursor) := by
      rw [Bytes.range?, if_pos ⟨Nat.le_of_lt hc, hstop⟩, Bytes.slice, List.drop_take]
    have hlength : ((payload.take stop).drop cursor).length = stop - cursor := by
      rw [List.length_drop, List.length_take, Nat.min_eq_left hstop]
    have hdecode := Attribute.decode?_eq ((payload.take stop).drop cursor)
    rw [hleft, hrest, decodeChain]
    by_cases hshort : stop - cursor < Attribute.layout.length
    · have hholds : ¬ Bytes.holds Attribute.layout.length ((payload.take stop).drop cursor) = true := by
        rw [Bytes.holds_iff, hlength]
        exact Nat.not_le.mpr hshort
      rw [dif_neg hholds]
      exact if_pos hshort
    · have hholds : Bytes.holds Attribute.layout.length ((payload.take stop).drop cursor) = true := by
        rw [Bytes.holds_iff, hlength]
        exact Nat.not_lt.mp hshort
      rw [dif_pos hholds]
      refine (if_neg hshort).trans ?_
      simp only [Option.bind_eq_bind, Option.bind_some, hdecode]
      cases Attribute.decode ((payload.take stop).drop cursor) with
      | error s => rfl
      | ok r =>
        dsimp only
        rw [ih r, List.drop_drop]
  | case2 a cursor hc =>
    have hrest : (payload.take stop).drop cursor = [] :=
      List.drop_eq_nil_of_le (by rw [List.length_take]; omega)
    rw [hrest, decodeChain]
    rfl

lemma decode?_eq (payload : Bytes) (declared : Nat) : decode? payload declared = some (decode payload declared) := by
  rw [decode?, scan?_eq empty payload (Nat.min_le_right _ _), ← List.take_eq_take_min, decode]

end FileAttributes

end SaveSet
