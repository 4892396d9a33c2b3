import SaveSet.Content.Emit

/-! Streams of records with a length word each. A record is its length word, a control area in some
formats, its data, and a pad byte where it would end at an odd offset of the stream. Payloads cut the
stream anywhere; what a cut leaves open is kept in the carry. -/

namespace SaveSet.Content

def sentinel : Nat := 0xFFFF

/-- Passes over the pad after a record that ended `used` bytes into `rest`; no pad follows the last
record. -/
def pad (c : Content) (start used : Nat) (rest : Bytes) : Content × Option Nat :=
  if (start + used) % 2 = 1 ∧ c.position < c.size then
    match rest.drop used with
    | _ :: _ => ({ c with position := c.position + 1 }, some (used + 1))
    | [] => ({ c with carry := { c.carry with skip := 1 } }, some used)
  else (c, some used)

/-- Takes as much of the record in flight as `rest` holds, which starts at offset `start`. The value
has the number of bytes used if the record ended, none if there is nothing to go on with. -/
def resume (writing : Bool) (c : Content) (start : Nat) (rest : Bytes) :
    Emission (Content × Option Nat) :=
  let data := rest.take c.carry.owed
  let n := data.length
  if n = 0 ∧ n < c.carry.owed then .silent (c, none)
  else (c.emit writing data).andThen fun r =>
    if !r.2 then .silent (r.1, none)
    else
      let owed := r.1.carry.owed - n
      let c := { r.1 with position := r.1.position + n, carry := { r.1.carry with owed := owed } }
      if 0 < owed then .silent (c, none)
      else
        let c := { c with carry := { c.carry with inRecord := false } }
        (c.endRecord writing).map fun c => c.pad start n rest

def beginRecord (writing : Bool) (c : Content) (start : Nat) (rest : Bytes) (word : Nat) :
    Emission (Content × Option Nat) :=
  if word = sentinel then .silent (c, some 0)
  else
    let control := c.format.controlLength
    let owed := min (word - control) (c.size - (c.position + control))
    let c := { c with carry := { c.carry with inRecord := true, owed := owed } }
    let present := (rest.take control).length
    if present < control then
      .silent ({ c with
        position := c.position + present
        carry := { c.carry with skip := control - present } }, none)
    else
      let c := { c with position := c.position + control }
      (c.resume writing (start + control) (rest.drop control)).map fun r =>
        (r.1, r.2.map (control + ·))

def recordsAfter (before : List Write) (writing : Bool) (c : Content) (start : Nat) (rest : Bytes) :
    Emission Content :=
  if c.position < c.size then
    match rest with
    | [] => ⟨before.reverse, c⟩
    | [low] => ⟨before.reverse, { c with
        position := c.position + 1
        carry := { c.carry with lowByte := some low } }⟩
    | low :: high :: rest =>
      let c := { c with position := c.position + 2 }
      let e := c.beginRecord writing (start + 2) rest (Bytes.toNat [low, high])
      let before := e.writes.reverse ++ before
      match e.value with
      | (c, none) => ⟨before.reverse, c⟩
      | (c, some used) => recordsAfter before writing c (start + 2 + used) (rest.drop used)
  else ⟨before.reverse, c⟩
termination_by rest.length

def records (writing : Bool) (c : Content) (start : Nat) (rest : Bytes) : Emission Content :=
  recordsAfter [] writing c start rest

theorem recordsAfter_append (earlier before : List Write) (writing : Bool) (c : Content) (start : Nat)
    (rest : Bytes) :
    recordsAfter (before ++ earlier) writing c start rest =
      ⟨earlier.reverse ++ (recordsAfter before writing c start rest).writes,
        (recordsAfter before writing c start rest).value⟩ := by
  fun_induction recordsAfter before writing c start rest with
  | case1 | case2 => simp [recordsAfter, *]
  | case3 before c start h low high rest moved e sofar c' he =>
    simp only [moved, e, sofar] at he ⊢
    rw [recordsAfter]
    simp [h, he]
  | case4 before c start h low high rest moved e sofar c' used he ih =>
    simp only [moved, e, sofar, List.append_assoc] at he ih ⊢
    rw [recordsAfter]
    simpa only [h, he, if_true] using ih
  | case5 before c start rest h =>
    rw [recordsAfter.eq_def, if_neg h]
    simp

theorem records_of_le {c : Content} (h : c.size ≤ c.position) (writing : Bool) (start : Nat)
    (rest : Bytes) : records writing c start rest = .silent c := by
  rw [records, recordsAfter.eq_def, if_neg (Nat.not_lt.mpr h)]
  rfl

theorem records_cons_cons {c : Content} (h : c.position < c.size) (writing : Bool) (start : Nat)
    (low high : UInt8) (rest : Bytes) :
    records writing c start (low :: high :: rest) =
      (beginRecord writing { c with position := c.position + 2 } (start + 2) rest
        (Bytes.toNat [low, high])).andThen fun r =>
          match r.2 with
          | none => .silent r.1
          | some used => records writing r.1 (start + 2 + used) (rest.drop used) := by
  rw [records, recordsAfter]
  simp only [h, if_true]
  generalize beginRecord writing _ _ rest _ = e
  rcases e with ⟨ws, c, _ | used⟩
  · simp [Emission.andThen, Emission.silent]
  · have := recordsAfter_append ws.reverse [] writing c (start + 2 + used) (rest.drop used)
    simpa [Emission.andThen, records] using this

def continueRecords (writing : Bool) (start : Nat) (rest : Bytes)
    (e : Emission (Content × Option Nat)) : Emission Content :=
  e.andThen fun r =>
    match r.2 with
    | none => .silent r.1
    | some used => records writing r.1 (start + used) (rest.drop used)

def takeUp (writing : Bool) (c : Content) (payload : Bytes) : Emission Content :=
  let skipped := min c.carry.skip payload.length
  let c := { c with
    position := c.position + skipped
    carry := { c.carry with skip := c.carry.skip - skipped } }
  let start := c.offset + skipped
  let rest := payload.drop skipped
  if 0 < c.carry.skip then .silent c
  else match c.carry.lowByte with
    | some low => match rest with
      | [] => .silent c
      | high :: rest =>
        let c := { c with position := c.position + 1, carry := { c.carry with lowByte := none } }
        continueRecords writing (start + 1) rest
          (c.beginRecord writing (start + 1) rest (Bytes.toNat [low, high]))
    | none =>
      if c.carry.inRecord then continueRecords writing start rest (c.resume writing start rest)
      else records writing c start rest

def advance (n : Nat) (c : Content) : Content := { c with offset := c.offset + n }

def feedRecords (writing : Bool) (c : Content) (payload : Bytes) : Emission Content :=
  let size := payload.length
  let e := c.takeUp writing payload
  ⟨e.writes.map fun w => { w with refused := w.refused.advance size }, e.value.advance size⟩

end SaveSet.Content
