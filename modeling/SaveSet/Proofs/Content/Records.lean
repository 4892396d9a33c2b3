import Mathlib.Tactic.Lemma
import SaveSet.Content.Records

namespace SaveSet

lemma Bytes.word_induction {P : Bytes → Prop} (nil : P []) (single : ∀ low, P [low])
    (word : ∀ low high rest, (∀ n, P (rest.drop n)) → P (low :: high :: rest)) (bytes : Bytes) :
    P bytes := by
  induction h : bytes.length using Nat.strongRecOn generalizing bytes with
  | ind n ih =>
    match bytes with
    | [] => exact nil
    | [low] => exact single low
    | low :: high :: rest =>
      refine word low high rest fun k => ih (rest.drop k).length ?_ _ rfl
      rw [← h, List.length_drop, List.length_cons, List.length_cons]
      omega

namespace Emission

variable {α β : Type}

@[simp] lemma value_silent (a : α) : (silent a).value = a := rfl

@[simp] lemma value_andThen (e : Emission α) (f : α → Emission β) :
    (e.andThen f).value = (f e.value).value := rfl

@[simp] lemma value_map (f : α → β) (e : Emission α) : (e.map f).value = f e.value := rfl

end Emission

namespace Content

lemma records_nil (writing : Bool) (c : Content) (start : Nat) : c.records writing start [] = .silent c := by
  rw [records, recordsAfter]
  split <;> rfl

lemma records_single {c : Content} (h : c.position < c.size) (writing : Bool) (start : Nat) (low : UInt8) :
    c.records writing start [low] = .silent { c with
      position := c.position + 1
      carry := { c.carry with lowByte := some low } } := by
  rw [records, recordsAfter, if_pos h]
  rfl

def endInFlight (writing : Bool) (c : Content) (start used : Nat) (rest : Bytes) :
    Emission (Content × Option Nat) :=
  (endRecord writing { c with carry := { c.carry with inRecord := false } }).map
    fun d => d.pad start used rest

def countOff (writing : Bool) (c : Content) (start used : Nat) (rest : Bytes) :
    Emission (Content × Option Nat) :=
  let c := { c with
    position := c.position + used
    carry := { c.carry with owed := c.carry.owed - used } }
  if 0 < c.carry.owed then .silent (c, none) else c.endInFlight writing start used rest

lemma resume_nil {c : Content} (h : 0 < c.carry.owed) (writing : Bool) (start : Nat) :
    c.resume writing start [] = .silent (c, none) := by
  rw [resume, List.take_nil]
  exact if_pos ⟨rfl, h⟩

lemma resume_eq {c : Content} {rest : Bytes} (h : rest ≠ [] ∨ c.carry.owed = 0) (writing : Bool)
    (start : Nat) :
    c.resume writing start rest = (c.emit writing (rest.take c.carry.owed)).andThen fun r =>
      if r.2 then r.1.countOff writing start (rest.take c.carry.owed).length rest
      else .silent (r.1, none) := by
  have hn : ¬ ((rest.take c.carry.owed).length = 0 ∧ (rest.take c.carry.owed).length < c.carry.owed) := by
    rintro ⟨hz, hlt⟩
    rw [List.length_take] at hz hlt
    rcases h with h | h
    · have := List.length_pos_iff.mpr h
      omega
    · omega
  rw [resume]
  dsimp only
  rw [if_neg hn]
  congr 1
  funext r
  cases r.2 <;> rfl

def beginData (writing : Bool) (c : Content) (start : Nat) (rest : Bytes) :
    Emission (Content × Option Nat) :=
  let control := c.format.controlLength
  if rest.length < control then
    .silent ({ c with
      position := c.position + rest.length
      carry := { c.carry with skip := control - rest.length } }, none)
  else
    (resume writing { c with position := c.position + control } (start + control)
      (rest.drop control)).map fun r => (r.1, r.2.map (control + ·))

def declare (c : Content) (word : Nat) : Content :=
  let control := c.format.controlLength
  { c with carry := { c.carry with
    inRecord := true
    owed := min (word - control) (c.size - (c.position + control)) } }

lemma beginRecord_sentinel (c : Content) (writing : Bool) (start : Nat) (rest : Bytes) :
    c.beginRecord writing start rest sentinel = .silent (c, some 0) := by
  rw [beginRecord, if_pos rfl]

lemma beginRecord_eq {word : Nat} (h : word ≠ sentinel) (c : Content) (writing : Bool) (start : Nat)
    (rest : Bytes) :
    c.beginRecord writing start rest word = (c.declare word).beginData writing start rest := by
  rw [beginRecord, if_neg h, beginData]
  dsimp only [declare]
  by_cases hl : rest.length < c.format.controlLength
  · rw [List.take_of_length_le (Nat.le_of_lt hl), if_pos hl]
    exact (if_pos hl).symm
  · have hn : ¬ (rest.take c.format.controlLength).length < c.format.controlLength := by
      rw [List.length_take]
      omega
    rw [if_neg hn]
    exact (if_neg hl).symm

lemma format_of_reset {c d : Content} (h : d.reset = c.reset) : d.format = c.format := by
  have hf : d.reset.format = c.reset.format := by rw [h]
  exact hf

lemma mode_of_reset {c d : Content} (h : d.reset = c.reset) : d.mode = c.mode := by
  have hm : d.reset.mode = c.reset.mode := by rw [h]
  exact hm

def Decided (writing : Bool) (c : Content) : Prop := writing = true ∨ c.mode ≠ .smart

/-- What taking up a stream does not touch. Only sniffing settles a file or its mode. -/
structure Keeps (writing : Bool) (c d : Content) : Prop where
  offset : d.offset = c.offset
  reset : Decided writing c → d.reset = c.reset
  settled : Decided writing c → d.settled = c.settled

variable {writing : Bool} {c d e : Content}

lemma keeps_moved (writing : Bool) (c : Content) (position : Nat) (carry : Carry) :
    Keeps writing c { c with position, carry } := ⟨rfl, fun _ => rfl, fun _ => rfl⟩

lemma Keeps.refl (writing : Bool) (c : Content) : Keeps writing c c := keeps_moved writing c c.position c.carry

lemma Keeps.decided (h : Keeps writing c d) (hc : Decided writing c) : Decided writing d := by
  apply hc.imp_right
  intro hm
  rwa [mode_of_reset (h.reset hc)]

lemma Keeps.trans (h : Keeps writing c d) (h' : Keeps writing d e) : Keeps writing c e where
  offset := h'.offset.trans h.offset
  reset hc := (h'.reset (h.decided hc)).trans (h.reset hc)
  settled hc := (h'.settled (h.decided hc)).trans (h.settled hc)

lemma keeps_emit (writing : Bool) (c : Content) (data : Bytes) :
    Keeps writing c (c.emit writing data).value.1 := by
  rw [emit]
  split
  · next hsniffs =>
    rw [Emission.value_silent, sniff]
    split
    · next hbinary =>
      have hopen : ¬ Decided writing c := by
        rintro (hwriting | hmode)
        · rw [hwriting] at hsniffs
          cases hsniffs
        · exact hmode (beq_iff_eq.mp (Bool.and_eq_true_iff.mp hbinary).1)
      exact ⟨rfl, fun hc => absurd hc hopen, fun hc => absurd hc hopen⟩
    · exact .refl writing c
  · split
    · exact ⟨rfl, fun _ => rfl, fun _ => rfl⟩
    · exact ⟨rfl, fun _ => rfl, fun _ => rfl⟩

lemma value_endRecord (writing : Bool) (c : Content) : (c.endRecord writing).value = c := by
  rw [endRecord]
  split <;> rfl

lemma keeps_pad (writing : Bool) (c : Content) (start used : Nat) (rest : Bytes) :
    Keeps writing c (c.pad start used rest).1 := by
  rw [pad]
  split
  · split
    · exact keeps_moved writing c _ _
    · exact keeps_moved writing c _ _
  · exact .refl writing c

lemma keeps_endInFlight (writing : Bool) (c : Content) (start used : Nat) (rest : Bytes) :
    Keeps writing c (c.endInFlight writing start used rest).value.1 := by
  rw [endInFlight, Emission.value_map, value_endRecord]
  exact (keeps_moved writing c _ _).trans (keeps_pad writing _ start used rest)

lemma keeps_countOff (writing : Bool) (c : Content) (start used : Nat) (rest : Bytes) :
    Keeps writing c (c.countOff writing start used rest).value.1 := by
  rw [countOff]
  dsimp only
  split
  · exact keeps_moved writing c _ _
  · exact (keeps_moved writing c _ _).trans (keeps_endInFlight writing _ start used rest)

lemma keeps_resume (writing : Bool) (c : Content) (start : Nat) (rest : Bytes) :
    Keeps writing c (c.resume writing start rest).value.1 := by
  by_cases hr : rest ≠ [] ∨ c.carry.owed = 0
  · have he := keeps_emit writing c (rest.take c.carry.owed)
    rw [resume_eq hr, Emission.value_andThen]
    split
    · exact he.trans (keeps_countOff writing _ start _ rest)
    · exact he
  · obtain ⟨hn, ho⟩ := not_or.mp hr
    obtain rfl := Classical.not_not.mp hn
    rw [resume_nil (Nat.pos_of_ne_zero ho)]
    exact .refl writing c

lemma keeps_beginRecord (writing : Bool) (c : Content) (start : Nat) (rest : Bytes) (word : Nat) :
    Keeps writing c (c.beginRecord writing start rest word).value.1 := by
  by_cases hw : word = sentinel
  · rw [hw, beginRecord_sentinel]
    exact .refl writing c
  · rw [beginRecord_eq hw, beginData]
    dsimp only
    split
    · exact keeps_moved writing c _ _
    · exact (keeps_moved writing c _ _).trans (keeps_resume writing _ _ _)

lemma keeps_records (writing : Bool) (c : Content) (start : Nat) (rest : Bytes) :
    Keeps writing c (c.records writing start rest).value := by
  induction rest using Bytes.word_induction generalizing c start with
  | nil =>
    rw [records_nil]
    exact .refl writing c
  | single low =>
    by_cases hp : c.position < c.size
    · rw [records_single hp]
      exact keeps_moved writing c _ _
    · rw [records_of_le (Nat.le_of_not_lt hp)]
      exact .refl writing c
  | word low high rest ih =>
    by_cases hp : c.position < c.size
    · have hb := (keeps_moved writing c (c.position + 2) c.carry).trans
        (keeps_beginRecord writing _ (start + 2) rest (Bytes.toNat [low, high]))
      rw [records_cons_cons hp, Emission.value_andThen]
      split
      · exact hb
      · exact hb.trans (ih _ _ _)
    · rw [records_of_le (Nat.le_of_not_lt hp)]
      exact .refl writing c

lemma keeps_continueRecords {r : Emission (Content × Option Nat)} (hr : Keeps writing c r.value.1) (start : Nat)
    (rest : Bytes) : Keeps writing c (continueRecords writing start rest r).value := by
  rw [continueRecords, Emission.value_andThen]
  split
  · exact hr
  · exact hr.trans (keeps_records writing _ _ _)

def passOver (c : Content) (n : Nat) : Content :=
  { c with position := c.position + n, carry := { c.carry with skip := c.carry.skip - n } }

def goOn (writing : Bool) (c : Content) (start : Nat) (rest : Bytes) : Emission Content :=
  match c.carry.lowByte with
  | some low => match rest with
    | [] => .silent c
    | high :: rest =>
      let c := { c with position := c.position + 1, carry := { c.carry with lowByte := none } }
      continueRecords writing (start + 1) rest
        (c.beginRecord writing (start + 1) rest (Bytes.toNat [low, high]))
  | none =>
    if c.carry.inRecord then continueRecords writing start rest (c.resume writing start rest)
    else c.records writing start rest

lemma takeUp_eq (writing : Bool) (c : Content) (payload : Bytes) :
    c.takeUp writing payload =
      if payload.length < c.carry.skip then .silent (c.passOver payload.length)
      else (c.passOver c.carry.skip).goOn writing (c.offset + c.carry.skip) (payload.drop c.carry.skip) := by
  rw [takeUp]
  dsimp only
  by_cases h : payload.length < c.carry.skip
  · have hm : min c.carry.skip payload.length = payload.length := Nat.min_eq_right (Nat.le_of_lt h)
    rw [if_pos h, hm, if_pos (Nat.sub_pos_of_lt h)]
    rfl
  · have hm : min c.carry.skip payload.length = c.carry.skip := Nat.min_eq_left (Nat.le_of_not_lt h)
    rw [if_neg h, hm, Nat.sub_self, if_neg (Nat.lt_irrefl 0), goOn, passOver, Nat.sub_self]
    rfl

lemma keeps_goOn (writing : Bool) (c : Content) (start : Nat) (rest : Bytes) :
    Keeps writing c (c.goOn writing start rest).value := by
  rw [goOn]
  split
  · split
    · exact .refl writing c
    · exact keeps_continueRecords ((keeps_moved writing c _ _).trans (keeps_beginRecord writing _ _ _ _)) _ _
  · split
    · exact keeps_continueRecords (keeps_resume writing c _ _) _ _
    · exact keeps_records writing c _ _

lemma keeps_takeUp (writing : Bool) (c : Content) (payload : Bytes) :
    Keeps writing c (c.takeUp writing payload).value := by
  rw [takeUp_eq]
  split
  · exact keeps_moved writing c _ _
  · exact (keeps_moved writing c _ _).trans (keeps_goOn writing (c.passOver c.carry.skip) _ _)

end Content

end SaveSet
