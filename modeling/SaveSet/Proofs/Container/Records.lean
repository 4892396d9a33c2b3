import SaveSet.Proofs.Container.Attributes
import SaveSet.Walk.Event

namespace SaveSet

lemma RecordHeader.decode_ok (bytes : Bytes) (hl : 16 ≤ bytes.length) :
    ∃ h, decode bytes = .ok h ∧ h.size = Bytes.toNat (bytes.slice 0 2) ∧
      h.kindNumber = Bytes.toNat (bytes.slice 2 2) := by
  have hcheck : layout.check "record header" bytes = .ok () := by
    refine if_pos (Bytes.holds_iff.mpr ?_)
    rw [length_layout]
    exact hl
  rw [decode, hcheck]
  exact ⟨_, rfl, rfl, rfl⟩

structure RecordImage where
  number : Nat
  reserved : Bytes
  payload : Bytes
  number_lt : number < 65536
  reserved_length : reserved.length = 12
  payload_pos : 0 < payload.length
  payload_lt : payload.length < 65536

namespace RecordImage

variable (r : RecordImage)

def encode : Bytes :=
  Bytes.ofNat 2 r.payload.length ++ (Bytes.ofNat 2 r.number ++ (r.reserved ++ r.payload))

lemma length_encode : r.encode.length = 16 + r.payload.length := by
  simp only [encode, List.length_append, Bytes.length_ofNat, r.reserved_length]
  omega

lemma slice_payload (rest : Bytes) : (r.encode ++ rest).slice 16 r.payload.length = r.payload := by
  simp only [encode, List.append_assoc]
  have hreserved := Bytes.slice_append_right r.reserved (r.payload ++ rest) 0 r.payload.length
  rw [r.reserved_length] at hreserved
  refine (Bytes.slice_append_right (Bytes.ofNat 2 r.payload.length) _ 14 _).trans
    ((Bytes.slice_append_right (Bytes.ofNat 2 r.number) _ 12 _).trans ?_)
  exact hreserved.trans (Bytes.slice_zero _ _)

lemma decode_encode (rest : Bytes) :
    ∃ h, RecordHeader.decode (r.encode ++ rest) = .ok h ∧ h.size = r.payload.length ∧ h.kindNumber = r.number := by
  have hl : 16 ≤ (r.encode ++ rest).length := by
    rw [List.length_append, r.length_encode]
    omega
  have hsize : (r.encode ++ rest).slice 0 2 = Bytes.ofNat 2 r.payload.length := by
    rw [encode, List.append_assoc]
    exact Bytes.slice_zero _ _
  have hnumber : (r.encode ++ rest).slice 2 2 = Bytes.ofNat 2 r.number := by
    rw [encode, List.append_assoc, List.append_assoc]
    exact (Bytes.slice_append_right (Bytes.ofNat 2 r.payload.length) _ 0 2).trans (Bytes.slice_zero _ _)
  obtain ⟨h, hd, hs, hn⟩ := RecordHeader.decode_ok (r.encode ++ rest) hl
  rw [hsize, Bytes.toNat_ofNat_of_lt r.payload_lt] at hs
  rw [hnumber, Bytes.toNat_ofNat_of_lt r.number_lt] at hn
  exact ⟨h, hd, hs, hn⟩

lemma readRecord_encode {blockLength cursor : Nat} (rest : Bytes)
    (hfit : cursor + r.encode.length ≤ blockLength) :
    ∃ h : RecordHeader, h.kind = .ofNumber r.number ∧ h.size = r.payload.length ∧
      readRecord blockLength cursor (r.encode ++ rest) =
        .ofPayload h r.payload (cursor + r.encode.length) blockLength := by
  obtain ⟨h, hd, hsize, hnumber⟩ := r.decode_encode rest
  have hpos := r.payload_pos
  have hlen := r.length_encode
  refine ⟨h, congrArg RecordKind.ofNumber hnumber, hsize, ?_⟩
  rw [readRecord, hd]
  dsimp only
  rw [RecordHeader.length_layout, hsize, if_neg (by omega), if_neg (by omega), r.slice_payload, hlen,
    Nat.add_assoc]

end RecordImage

inductive Saying where
  | file (attributes : FileAttributes)
  | data (payload : Bytes)

def Event.sayings : Event → List Saying
  | .file a _ => [.file a]
  | .data p => [.data p]
  | _ => []

def Event.IsSound : Event → Prop
  | .idle | .file .. | .data _ => True
  | _ => False

structure Say (es : List Event) (xs : List Saying) : Prop where
  sound : ∀ e ∈ es, e.IsSound
  sayings : es.flatMap Event.sayings = xs

lemma Say.cons {e : Event} {es : List Event} {xs : List Saying} (he : e.IsSound) (h : Say es xs) :
    Say (e :: es) (e.sayings ++ xs) where
  sound f hf := by
    rcases List.mem_cons.mp hf with rfl | hf
    · exact he
    · exact h.sound f hf
  sayings := by rw [List.flatMap_cons, h.sayings]

lemma Say.append {es fs : List Event} {xs ys : List Saying} (h : Say es xs) (h' : Say fs ys) :
    Say (es ++ fs) (xs ++ ys) where
  sound f hf := by
    rcases List.mem_append.mp hf with hf | hf
    · exact h.sound f hf
    · exact h'.sound f hf
  sayings := by rw [List.flatMap_append, h.sayings, h'.sayings]

inductive StoredItem where
  | file (f : StoredFile)
  | data (payload : Bytes)
  | null (payload : Bytes)

namespace StoredItem

def number : StoredItem → Nat
  | file _ => 3
  | data _ => 4
  | null _ => 0

def payload : StoredItem → Bytes
  | file f => f.payload
  | data p => p
  | null p => p

def sayings : StoredItem → List Saying
  | file f => [.file f.read]
  | data p => [.data p]
  | null _ => []

lemma number_lt (x : StoredItem) : x.number < 65536 := by
  cases x with
  | file f => exact (by decide : 3 < 65536)
  | data p => exact (by decide : 4 < 65536)
  | null p => exact (by decide : 0 < 65536)

end StoredItem

structure StoredRecord where
  item : StoredItem
  reserved : Bytes
  reserved_length : reserved.length = 12
  payload_pos : 0 < item.payload.length
  payload_lt : item.payload.length < 65536

def StoredRecord.image (r : StoredRecord) : RecordImage :=
  ⟨r.item.number, r.reserved, r.item.payload, r.item.number_lt, r.reserved_length, r.payload_pos, r.payload_lt⟩

def StoredRecord.encode (r : StoredRecord) : Bytes := r.image.encode

inductive BlockEnd where
  | full
  | blank (rest : Bytes)
  | volume (r : RecordImage) (is_volume : r.number = 2) (rest : Bytes)

def BlockEnd.encode : BlockEnd → Bytes
  | full => []
  | blank rest => List.replicate 16 0 ++ rest
  | volume r _ rest => r.encode ++ rest

lemma readRecordsAfter_next {blockLength cursor next : Nat} {rest : Bytes} (hc : cursor < blockLength)
    (h : (readRecord blockLength cursor rest).next = some next) :
    (readRecordsAfter [] blockLength cursor rest).events =
      (readRecord blockLength cursor rest).event ::
        (readRecordsAfter [] blockLength next (rest.drop (next - cursor))).events := by
  rw [readRecordsAfter_some hc h]
  exact congrArg BlockReading.events (readRecordsAfter_append [_] [] blockLength next _)

lemma readRecordsAfter_end {blockLength cursor : Nat} (hc : blockLength ≤ cursor) (rest : Bytes) :
    (readRecordsAfter [] blockLength cursor rest).events = [] :=
  congrArg BlockReading.events (readRecordsAfter_past hc [])

lemma StoredRecord.readRecord_encode (r : StoredRecord) {blockLength cursor : Nat} (rest : Bytes)
    (hfit : cursor + r.encode.length ≤ blockLength) :
    (readRecord blockLength cursor (r.encode ++ rest)).event.IsSound ∧
      (readRecord blockLength cursor (r.encode ++ rest)).event.sayings = r.item.sayings ∧
      (readRecord blockLength cursor (r.encode ++ rest)).next = some (cursor + r.encode.length) := by
  obtain ⟨h, hkind, hsize, hread⟩ := r.image.readRecord_encode rest hfit
  rw [StoredRecord.encode, hread, RecordReading.ofPayload, hkind]
  rcases r with ⟨item, reserved, hreserved, hpos, hlt⟩
  cases item with
  | file f =>
    have hdecode : FileAttributes.decode f.payload h.size = .ok f.read := by
      rw [hsize]
      exact f.decode_payload
    dsimp only [StoredRecord.image, StoredItem.number, StoredItem.payload, RecordKind.ofNumber]
    rw [hdecode]
    exact ⟨trivial, rfl, rfl⟩
  | data p => exact ⟨trivial, rfl, rfl⟩
  | null p => exact ⟨trivial, rfl, rfl⟩

lemma tells_records (rs : List StoredRecord) {blockLength cursor : Nat} {tail : Bytes} {xs : List Saying}
    (hfit : cursor + (rs.flatMap StoredRecord.encode).length ≤ blockLength)
    (htail : Say (readRecordsAfter [] blockLength (cursor + (rs.flatMap StoredRecord.encode).length) tail).events
      xs) :
    Say (readRecordsAfter [] blockLength cursor (rs.flatMap StoredRecord.encode ++ tail)).events
      (rs.flatMap (fun r => r.item.sayings) ++ xs) := by
  induction rs generalizing cursor with
  | nil => exact htail
  | cons r rs ih =>
    rw [List.flatMap_cons, List.length_append] at hfit
    rw [List.flatMap_cons, List.length_append, ← Nat.add_assoc] at htail
    have hlen : r.encode.length = 16 + r.item.payload.length := r.image.length_encode
    have hc : cursor < blockLength := by omega
    have hr : cursor + r.encode.length ≤ blockLength := by omega
    obtain ⟨hsound, hsayings, hnext⟩ := r.readRecord_encode (rs.flatMap StoredRecord.encode ++ tail) hr
    have hdrop : (r.encode ++ (rs.flatMap StoredRecord.encode ++ tail)).drop
        (cursor + r.encode.length - cursor) = rs.flatMap StoredRecord.encode ++ tail := by
      rw [Nat.add_sub_cancel_left, List.drop_left]
    rw [List.flatMap_cons, List.flatMap_cons, List.append_assoc, List.append_assoc,
      readRecordsAfter_next hc hnext, hdrop, ← hsayings]
    exact (ih (by omega) htail).cons hsound

lemma BlockEnd.tells (e : BlockEnd) {blockLength cursor : Nat} (hlen : cursor + e.encode.length = blockLength) :
    Say (readRecordsAfter [] blockLength cursor e.encode).events [] := by
  have hidle : ∀ rest : Bytes, cursor < blockLength →
      readRecord blockLength cursor rest = ⟨.idle, some blockLength⟩ →
      Say (readRecordsAfter [] blockLength cursor rest).events [] := by
    intro rest hc hread
    rw [readRecordsAfter_next hc (congrArg RecordReading.next hread), hread,
      readRecordsAfter_end (Nat.le_refl _)]
    exact Say.cons trivial ⟨by simp, rfl⟩
  cases e with
  | full =>
    have hl : blockLength ≤ cursor := Nat.le_of_eq hlen.symm
    rw [readRecordsAfter_end hl]
    exact ⟨by simp, rfl⟩
  | blank rest =>
    have hl : cursor + (List.replicate 16 0 ++ rest).length = blockLength := hlen
    rw [List.length_append, List.length_replicate] at hl
    obtain ⟨h, hd, hsize, -⟩ := RecordHeader.decode_ok (List.replicate 16 0 ++ rest) (by simp)
    refine hidle (List.replicate 16 0 ++ rest) (by omega) ?_
    rw [readRecord, hd]
    exact if_pos hsize
  | volume r is_volume rest =>
    have hl : cursor + (r.encode ++ rest).length = blockLength := hlen
    rw [List.length_append, r.length_encode] at hl
    have hfit : cursor + r.encode.length ≤ blockLength := by
      rw [r.length_encode]
      omega
    obtain ⟨h, hkind, -, hread⟩ := r.readRecord_encode rest hfit
    refine hidle (r.encode ++ rest) (by omega) ?_
    rw [hread, RecordReading.ofPayload, hkind, is_volume]
    rfl

end SaveSet
