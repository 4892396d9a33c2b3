import Mathlib.Tactic.Lemma
import SaveSet.Attribute.File
import SaveSet.Proofs.Output.FileSink

namespace SaveSet

namespace Bytes

lemma toNat_ofNat_of_lt {k n : Nat} (h : n < capacity k) : toNat (ofNat k n) = n := by
  rw [toNat_ofNat, Nat.mod_eq_of_lt h]

lemma slice_append_right (xs ys : Bytes) (offset count : Nat) :
    (xs ++ ys).slice (xs.length + offset) count = ys.slice offset count := by
  rw [slice, slice, List.drop_append, List.drop_of_length_le (Nat.le_add_right _ _), List.nil_append,
    Nat.add_sub_cancel_left]

lemma slice_zero (xs ys : Bytes) : (xs ++ ys).slice 0 xs.length = xs := by
  rw [slice, List.drop_zero, List.take_left]

lemma slice_append_left {xs : Bytes} (ys : Bytes) {offset count : Nat} (h : offset + count ≤ xs.length) :
    (xs ++ ys).slice offset count = xs.slice offset count := by
  rw [slice, slice, List.drop_append_of_le_length (by omega), List.take_append_of_le_length]
  rw [List.length_drop]
  omega

lemma slice_take {bytes : Bytes} {n offset count : Nat} (h : offset + count ≤ n) :
    slice (bytes.take n) offset count = bytes.slice offset count := by
  rw [slice, slice, List.drop_take, List.take_take, Nat.min_eq_left (by omega)]

lemma words_getD (bytes : Bytes) (i : Nat) (h : 2 * i + 2 ≤ bytes.length) :
    bytes.words.getD i 0 = (bytes.slice (2 * i) 2).toNat := by
  induction i generalizing bytes with
  | zero =>
    match bytes, h with
    | low :: high :: rest, _ =>
      rw [words_cons_cons]
      rfl
  | succ i ih =>
    match bytes, h with
    | low :: high :: rest, h =>
      have hslice : slice (low :: high :: rest) (2 * (i + 1)) 2 = slice rest (2 * i) 2 := by
        rw [slice, slice, Nat.mul_succ]
        rfl
      rw [words_cons_cons, hslice]
      exact ih rest (by simp only [List.length_cons] at h; omega)

end Bytes

structure DeclaresSize (attributes : Bytes) (size : Nat) : Prop where
  length_ge : 14 ≤ attributes.length
  endOfFileBlock : (attributes.slice 8 2).toNat * 65536 + (attributes.slice 10 2).toNat = size / 512 + 1
  firstFreeByte : (attributes.slice 12 2).toNat = size % 512

lemma DeclaresSize.fileSize_eq {attributes : Bytes} {size : Nat} (h : DeclaresSize attributes size) :
    (RecordAttributes.decode attributes).fileSize = size := by
  have hl := h.length_ge
  have hhigh : attributes.words.getD 4 0 = (attributes.slice 8 2).toNat :=
    Bytes.words_getD attributes 4 (by omega)
  have hlow : attributes.words.getD 5 0 = (attributes.slice 10 2).toNat :=
    Bytes.words_getD attributes 5 (by omega)
  have hused : attributes.words.getD 6 0 = (attributes.slice 12 2).toNat :=
    Bytes.words_getD attributes 6 (by omega)
  have hsize : (RecordAttributes.decode attributes).fileSize =
      (attributes.words.getD 4 0 * 65536 + attributes.words.getD 5 0) * 512 + attributes.words.getD 6 0 - 512 := by
    unfold RecordAttributes.fileSize RecordAttributes.decode
    dsimp only
  rw [hsize, hhigh, hlow, hused, h.endOfFileBlock, h.firstFreeByte]
  omega

def storedEnd (size : Nat) : Bytes :=
  Bytes.ofNat 2 ((size / 512 + 1) / 65536) ++ (Bytes.ofNat 2 ((size / 512 + 1) % 65536) ++ Bytes.ofNat 2 (size % 512))

lemma length_storedEnd (size : Nat) : (storedEnd size).length = 6 := by
  rw [storedEnd, List.length_append, List.length_append, Bytes.length_ofNat, Bytes.length_ofNat, Bytes.length_ofNat]

lemma declares_storedEnd {size : Nat} {front : Bytes} (hsize : size / 512 + 1 < 4294967296) (hfront : front.length = 8)
    (behind : Bytes) : DeclaresSize (front ++ (storedEnd size ++ behind)) size := by
  have hslice (offset : Nat) (ho : offset + 2 ≤ 6) :
      (front ++ (storedEnd size ++ behind)).slice (8 + offset) 2 = (storedEnd size).slice offset 2 := by
    rw [← hfront, Bytes.slice_append_right, Bytes.slice_append_left]
    rwa [length_storedEnd]
  refine ⟨?_, ?_, ?_⟩
  · rw [List.length_append, List.length_append, length_storedEnd, hfront]
    omega
  · have hhigh : (storedEnd size).slice 0 2 = Bytes.ofNat 2 ((size / 512 + 1) / 65536) := Bytes.slice_zero _ _
    have hlow : (storedEnd size).slice 2 2 = Bytes.ofNat 2 ((size / 512 + 1) % 65536) :=
      (Bytes.slice_append_right (Bytes.ofNat 2 _) _ 0 2).trans (Bytes.slice_zero _ _)
    have hhigh_lt : (size / 512 + 1) / 65536 < Bytes.capacity 2 := Nat.div_lt_of_lt_mul hsize
    have hlow_lt : (size / 512 + 1) % 65536 < Bytes.capacity 2 := Nat.mod_lt _ (by decide)
    rw [hslice 0 (by decide), hslice 2 (by decide), hhigh, hlow, Bytes.toNat_ofNat_of_lt hhigh_lt,
      Bytes.toNat_ofNat_of_lt hlow_lt]
    exact Nat.div_add_mod' _ _
  · have hused : (storedEnd size).slice 4 2 = Bytes.ofNat 2 (size % 512) :=
      (Bytes.slice_append_right (Bytes.ofNat 2 _) _ 2 2).trans (Bytes.slice_append_right (Bytes.ofNat 2 _) _ 0 2)
    have hlt : size % 512 < Bytes.capacity 2 := Nat.lt_trans (Nat.mod_lt _ (by decide)) (by decide)
    rw [hslice 4 (by decide), hused, Bytes.toNat_ofNat_of_lt hlt]

structure StoredAttribute where
  number : Nat
  payload : Bytes
  number_lt : number < 65536
  payload_lt : payload.length < 65536

namespace StoredAttribute

def encode (a : StoredAttribute) : Bytes := Bytes.ofNat 2 a.payload.length ++ (Bytes.ofNat 2 a.number ++ a.payload)

def tag (a : StoredAttribute) : Tag := .ofNumber a.number

lemma length_encode (a : StoredAttribute) : a.encode.length = 4 + a.payload.length := by
  rw [encode, List.length_append, List.length_append, Bytes.length_ofNat, Bytes.length_ofNat]
  omega

lemma decode_encode (a : StoredAttribute) (rest : Bytes) :
    Attribute.decode (a.encode ++ rest) = .ok ⟨a.tag, a.payload⟩ := by
  have hsize : (a.encode ++ rest).slice 0 2 = Bytes.ofNat 2 a.payload.length := by
    rw [encode, List.append_assoc]
    exact Bytes.slice_zero _ _
  have hnumber : (a.encode ++ rest).slice 2 2 = Bytes.ofNat 2 a.number := by
    rw [encode, List.append_assoc, List.append_assoc]
    exact (Bytes.slice_append_right (Bytes.ofNat 2 a.payload.length) _ 0 2).trans (Bytes.slice_zero _ _)
  have hpayload : (a.encode ++ rest).slice 4 a.payload.length = a.payload := by
    rw [encode, List.append_assoc, List.append_assoc]
    exact (Bytes.slice_append_right (Bytes.ofNat 2 a.payload.length) _ 2 _).trans
      ((Bytes.slice_append_right (Bytes.ofNat 2 a.number) _ 0 _).trans (Bytes.slice_zero _ _))
  have hcheck : Attribute.layout.check "attribute header" (a.encode ++ rest) = .ok () := by
    refine if_pos (Bytes.holds_iff.mpr ?_)
    rw [Attribute.length_layout, List.length_append, a.length_encode]
    omega
  have hdeclared : Attribute.layout.number 0 (a.encode ++ rest) = a.payload.length := by
    change Bytes.toNat ((a.encode ++ rest).slice 0 2) = _
    rw [hsize, Bytes.toNat_ofNat_of_lt a.payload_lt]
  have htag : Attribute.layout.number 1 (a.encode ++ rest) = a.number := by
    change Bytes.toNat ((a.encode ++ rest).slice 2 2) = _
    rw [hnumber, Bytes.toNat_ofNat_of_lt a.number_lt]
  have hholds : Bytes.holds (Attribute.layout.length + a.payload.length) (a.encode ++ rest) = true := by
    rw [Bytes.holds_iff, Attribute.length_layout, List.length_append, a.length_encode]
    omega
  have hslice : (a.encode ++ rest).slice Attribute.layout.length a.payload.length = a.payload := by
    rw [Attribute.length_layout]
    exact hpayload
  simp only [Attribute.decode, hcheck, hdeclared, hholds, htag, hslice, bind, Except.bind, Bool.not_true,
    Bool.false_eq_true, if_false]
  rfl

def last? (t : Tag) (as : List StoredAttribute) : Option Bytes :=
  (as.reverse.find? fun a => a.tag == t).map payload

def collect (as : List StoredAttribute) (a : FileAttributes) : FileAttributes :=
  as.foldl (fun a x => a.put x.tag x.payload) a

lemma raw?_collect (as : List StoredAttribute) (a : FileAttributes) (t : Tag) :
    (collect as a).raw? t = (last? t as).or (a.raw? t) := by
  induction as generalizing a with
  | nil => rfl
  | cons x as ih =>
    have hput : (a.put x.tag x.payload).raw? t = if x.tag = t then some x.payload else a.raw? t :=
      Table.get?_put _ _ _ _
    have hlast : last? t (x :: as) = (last? t as).or (if x.tag = t then some x.payload else none) := by
      rw [last?, List.reverse_cons, List.find?_append, last?]
      cases (as.reverse.find? fun a => a.tag == t) with
      | some y => rfl
      | none =>
        by_cases h : x.tag = t <;> simp [h]
    rw [collect, List.foldl_cons]
    refine (ih _).trans ?_
    rw [hput, hlast, Option.or_assoc]
    split <;> rfl

lemma decodeChain_append (as : List StoredAttribute) (rest : Bytes) (a : FileAttributes) :
    FileAttributes.decodeChain a (as.flatMap encode ++ rest) = FileAttributes.decodeChain (collect as a) rest := by
  induction as generalizing a with
  | nil => rfl
  | cons x as ih =>
    have hh : Bytes.holds Attribute.layout.length (x.encode ++ (as.flatMap encode ++ rest)) = true := by
      rw [Bytes.holds_iff, Attribute.length_layout, List.length_append, x.length_encode]
      omega
    have hdrop : (x.encode ++ (as.flatMap encode ++ rest)).drop (Attribute.length ⟨x.tag, x.payload⟩) =
        as.flatMap encode ++ rest := by
      rw [Attribute.length, Attribute.length_layout, ← x.length_encode, List.drop_left]
    rw [List.flatMap_cons, List.append_assoc, FileAttributes.decodeChain, dif_pos hh, x.decode_encode]
    dsimp only
    rw [hdrop, ih]
    rfl

lemma decodeChain_short {slack : Bytes} (hs : slack.length < 4) (a : FileAttributes) :
    FileAttributes.decodeChain a slack = .ok a := by
  have hn : ¬ Bytes.holds Attribute.layout.length slack = true := by
    rw [Bytes.holds_iff, Attribute.length_layout]
    omega
  rw [FileAttributes.decodeChain, dif_neg hn]

lemma decodeChain_encode (as : List StoredAttribute) {slack : Bytes} (hs : slack.length < 4)
    (a : FileAttributes) :
    FileAttributes.decodeChain a (as.flatMap encode ++ slack) = .ok (collect as a) := by
  rw [decodeChain_append, decodeChain_short hs]

end StoredAttribute

/-- A file as it is stored: what its record says, and its content in the pieces it is cut into. -/
structure StoredFile where
  preamble : Bytes
  attributes : List StoredAttribute
  slack : Bytes
  pieces : List Bytes
  preamble_length : preamble.length = 2
  slack_length : slack.length < 4
  declares : ∃ area, StoredAttribute.last? .recordAttributes attributes = some area ∧
    DeclaresSize area pieces.flatten.length

namespace StoredFile

variable (f : StoredFile)

def payload : Bytes := f.preamble ++ (f.attributes.flatMap StoredAttribute.encode ++ f.slack)

def content : Bytes := f.pieces.flatten

def area (t : Tag) : Bytes := (StoredAttribute.last? t f.attributes).getD []

def name : String := (f.area .filename).latin1

def format : RecordFormat := (RecordAttributes.decode (f.area .recordAttributes)).format

def read : FileAttributes := StoredAttribute.collect f.attributes .empty

def output : OutputFile :=
  ⟨f.name, Tag.stamp (f.area .created), Tag.stamp (f.area .revised), f.content⟩

lemma decode_payload : FileAttributes.decode f.payload f.payload.length = .ok f.read := by
  have hdrop : f.payload.drop 2 = f.attributes.flatMap StoredAttribute.encode ++ f.slack := by
    rw [payload, ← f.preamble_length, List.drop_left]
  rw [FileAttributes.decode, List.take_length, hdrop, StoredAttribute.decodeChain_encode _ f.slack_length]
  rfl

lemma raw_read (t : Tag) : f.read.raw t = f.area t := by
  rw [FileAttributes.raw, read, StoredAttribute.raw?_collect, area]
  cases StoredAttribute.last? t f.attributes <;> rfl

lemma filename_read : f.read.filename = f.name := congrArg Bytes.latin1 (f.raw_read .filename)

lemma created_read : f.read.created = Tag.stamp (f.area .created) :=
  congrArg Tag.stamp (f.raw_read .created)

lemma revised_read : f.read.revised = Tag.stamp (f.area .revised) :=
  congrArg Tag.stamp (f.raw_read .revised)

lemma format_read : f.read.recordFormat = f.format := by
  rw [FileAttributes.recordFormat, FileAttributes.recordAttributes, f.raw_read, format]

lemma fileSize_read : f.read.fileSize = f.content.length := by
  obtain ⟨bytes, hlast, hd⟩ := f.declares
  rw [FileAttributes.fileSize, FileAttributes.recordAttributes, f.raw_read, area, hlast]
  exact hd.fileSize_eq

end StoredFile

end SaveSet
