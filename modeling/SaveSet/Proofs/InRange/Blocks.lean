import SaveSet.Proofs.Input.Reliable
import SaveSet.Proofs.InRange.Headers
import SaveSet.Walk.Event

namespace SaveSet

namespace RecordReading

def ofPayload? (h : RecordHeader) (payload : Bytes) (next blockLength : Nat) : Option RecordReading :=
  match h.kind with
  | .file => (FileAttributes.decode? payload h.size).map fun
    | .ok attributes => ⟨.file attributes h.flags, some next⟩
    | .error s => damaged (.truncated s)
  | _ => some (.ofPayload h payload next blockLength)

lemma ofPayload?_eq (h : RecordHeader) (payload : Bytes) (next blockLength : Nat) :
    ofPayload? h payload next blockLength = some (ofPayload h payload next blockLength) := by
  rw [ofPayload?]
  split
  · next hkind =>
    rw [FileAttributes.decode?_eq, ofPayload, hkind]
    dsimp only
    cases FileAttributes.decode payload h.size <;> rfl
  · rfl

end RecordReading

def dump? (raw : Bytes) : Option Bytes := raw.range? 0 (min raw.length RecordHeader.layout.length)

lemma dump?_eq (raw : Bytes) : dump? raw = some (raw.take (min raw.length RecordHeader.layout.length)) :=
  Bytes.range?_prefix (Nat.min_le_left _ _)

def readRecord? (block : Bytes) (cursor : Nat) : Option RecordReading := do
  match ← RecordHeader.decode? (block.drop cursor) with
  | .error s =>
    let _ ← dump? (block.drop cursor)
    return .damaged (.truncated s)
  | .ok h =>
    if h.size = 0 then return ⟨.idle, some block.length⟩
    let start := cursor + RecordHeader.layout.length
    match block.range? start (start + h.size) with
    | none =>
      let available ← block.length.psub start
      let _ ← dump? h.image
      return .damaged (.truncated ⟨"record payload", h.size, available⟩)
    | some payload =>
      let _ ← dump? h.image
      RecordReading.ofPayload? h payload (start + h.size) block.length

lemma readRecord?_eq {block : Bytes} {cursor : Nat} (hc : cursor ≤ block.length) :
    readRecord? block cursor = some (readRecord block.length cursor (block.drop cursor)) := by
  rw [readRecord?, readRecord, RecordHeader.decode?_eq]
  cases hh : RecordHeader.decode (block.drop cursor) with
  | error s =>
    simp only [Option.bind_eq_bind, Option.bind_some, dump?_eq]
    rfl
  | ok h =>
    have hroom := RecordHeader.length_of_decode hh
    rw [List.length_drop] at hroom
    simp only [Option.bind_eq_bind, Option.bind_some, dump?_eq]
    split
    · rfl
    · by_cases hend : cursor + RecordHeader.layout.length + h.size ≤ block.length
      · rw [Bytes.range?_eq hend, if_neg (Nat.not_lt.mpr hend)]
        dsimp only
        rw [RecordReading.ofPayload?_eq, Bytes.slice, Bytes.slice, List.drop_drop]
      · have hnone : block.range? (cursor + RecordHeader.layout.length)
            (cursor + RecordHeader.layout.length + h.size) = none := if_neg fun h => hend h.2
        have hleft : block.length.psub (cursor + RecordHeader.layout.length) =
            some (block.length - (cursor + RecordHeader.layout.length)) := Nat.psub_eq_sub (by omega)
        rw [hnone, hleft, if_pos (Nat.lt_of_not_le hend)]
        rfl

def readRecordsAfter? (before : List Event) (block : Bytes) (cursor : Nat) : Option BlockReading :=
  if _hc : cursor < block.length then
    match _hr : readRecord? block cursor with
    | none => none
    | some r =>
      match _hn : r.next with
      | none => some ⟨(r.event :: before).reverse, false⟩
      | some next => readRecordsAfter? (r.event :: before) block next
  else some ⟨before.reverse, true⟩
termination_by block.length - cursor
decreasing_by
  rw [readRecord?_eq (Nat.le_of_lt _hc)] at _hr
  obtain rfl := Option.some.inj _hr
  have := readRecord_next _hc _hn
  omega

def readBlock? (g : Geometry) (bytes : Bytes) : Option BlockReading := do
  match ← BlockHeader.decode? bytes with
  | .error s => return ⟨[.badBlock (.truncated s)], false⟩
  | .ok h =>
    if h.isCompatible g.blockSize then
      let block ← bytes.range? 0 (min g.blockSize bytes.length)
      readRecordsAfter? [] block g.headerSize
    else return ⟨[.badBlock (.blockSize g.blockSize h.blockSize)], false⟩

lemma readRecordsAfter?_eq (before : List Event) (block : Bytes) (cursor : Nat) :
    readRecordsAfter? before block cursor =
      some (readRecordsAfter before block.length cursor (block.drop cursor)) := by
  fun_induction readRecordsAfter? before block cursor with
  | case1 before cursor hc hr =>
    rw [readRecord?_eq (Nat.le_of_lt hc)] at hr
    cases hr
  | case2 before cursor hc r hr hn =>
    rw [readRecord?_eq (Nat.le_of_lt hc)] at hr
    obtain rfl := Option.some.inj hr
    rw [readRecordsAfter_none hc hn]
  | case3 before cursor hc r hr next hn ih =>
    rw [readRecord?_eq (Nat.le_of_lt hc)] at hr
    obtain rfl := Option.some.inj hr
    have hlt := (readRecord_next hc hn).1
    rw [ih, readRecordsAfter_some hc hn, List.drop_drop, Nat.add_sub_cancel' (Nat.le_of_lt hlt)]
  | case4 before cursor hc => rw [readRecordsAfter_past (Nat.not_lt.mp hc)]

lemma readBlock?_eq (g : Geometry) (bytes : Bytes) : readBlock? g bytes = some (readBlock g bytes) := by
  rw [readBlock?, readBlock, BlockHeader.decode?_eq]
  cases BlockHeader.decode bytes with
  | error s => rfl
  | ok h =>
    simp only [Option.bind_eq_bind, Option.bind_some]
    split
    · rw [Bytes.range?_prefix (Nat.min_le_right _ _), ← List.take_eq_take_min]
      exact readRecordsAfter?_eq [] (bytes.take g.blockSize) g.headerSize
    · rfl

namespace Reader

def advance? (r : Reader) (want : Nat) : Option (Option Fault × Reader) :=
  if _hw : want = 0 then some (none, r)
  else
    match r.readOnce want with
    | (.error f, r) => some (some f, r)
    | (.ok count, r) =>
      if _hc : count = 0 then some (none, r)
      else
        match _hl : want.psub count with
        | none => none
        | some left => advance? r left
termination_by want
decreasing_by
  have := Nat.psub_eq_some.mp _hl
  omega

lemma readOnce_ok {r s : Reader} {want count : Nat} (h : r.readOnce want = (.ok count, s)) :
    count ≤ want ∧ s.position = r.position + count := by
  rw [readOnce] at h
  split at h
  · cases h
  · cases h
    exact ⟨Nat.le_trans (Nat.min_le_left _ _) (allowance_le _ _), rfl⟩

lemma readOnce_error {r s : Reader} {want : Nat} {f : Fault} (h : r.readOnce want = (.error f, s)) :
    s.position = r.position := by
  rw [readOnce] at h
  split at h
  · cases h
    rfl
  · cases h

lemma advance?_eq (r : Reader) (want : Nat) : advance? r want = some (advance r want) := by
  fun_induction advance? r want with
  | case1 r => rw [advance, if_pos rfl]
  | case2 r want hw f s h => rw [advance, if_neg hw, h]
  | case3 r want hw s h =>
    rw [advance, if_neg hw, h]
    rfl
  | case4 r want hw count s h hc hl =>
    rw [Nat.psub_eq_sub (readOnce_ok h).1] at hl
    cases hl
  | case5 r want hw count s h hc left hl ih =>
    rw [Nat.psub_eq_sub (readOnce_ok h).1] at hl
    cases hl
    rw [ih, advance.eq_def r want, if_neg hw, h]
    exact congrArg some (if_neg hc).symm

lemma advance_le (r : Reader) (want : Nat) : (r.advance want).2.position ≤ r.position + want := by
  fun_induction advance r want with
  | case1 r => exact Nat.le_refl _
  | case2 r want hw f s h =>
    have := readOnce_error h
    dsimp only
    omega
  | case3 r want hw s h =>
    have := (readOnce_ok h).2
    dsimp only
    omega
  | case4 r want hw count s h hc ih =>
    have := readOnce_ok h
    omega

def read? (r : Reader) (want : Nat) : Option (Except Fault Bytes × Reader) := do
  match ← advance? r want with
  | (some f, s) => return (.error f, { s with fetched := s.position })
  | (none, s) =>
    let count ← s.position.psub r.position
    let _ ← want.psub count
    return (.ok (r.slice r.position s.position), { s with fetched := r.frontier want })

lemma read?_eq (r : Reader) (want : Nat) : read? r want = some (read r want) := by
  have hle := advance_le r want
  have hge := (advance_position r want).1
  rw [read?, read, advance?_eq]
  rcases ha : advance r want with ⟨_ | f, s⟩
  · rw [ha] at hle hge
    simp only [Option.bind_eq_bind, Option.bind_some]
    dsimp only at hle
    rw [Nat.psub_eq_sub hge, Option.bind_some, Nat.psub_eq_sub (Nat.sub_le_iff_le_add'.mpr hle)]
    rfl
  · rfl

end Reader

end SaveSet
