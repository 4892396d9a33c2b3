import SaveSet.Content.Feed
import SaveSet.Proofs.Content.Records
import SaveSet.Proofs.InRange.Headers

namespace SaveSet.Content

variable {writing : Bool} {c : Content} {payload : Bytes} {pos : Nat}

def bounded? (payload : Bytes) (limit : Nat) : Option Bytes := payload.range? 0 (min limit payload.length)

lemma bounded?_eq (payload : Bytes) (limit : Nat) : bounded? payload limit = some (payload.take limit) := by
  rw [bounded?, Bytes.range?_prefix (Nat.min_le_right _ _), ← List.take_eq_take_min]

def copyRaw? (writing : Bool) (c : Content) (payload : Bytes) : Option (Emission Content) := do
  let data ← bounded? payload c.remaining
  return ⟨if writing then piece data c else [], { c with position := c.position + data.length }⟩

def copyStream? (writing : Bool) (c : Content) (payload : Bytes) : Option (Emission Content) := do
  let data ← bounded? payload c.remaining
  return (c.emit writing data).map fun r => { r.1 with position := r.1.position + data.length }

def padAt (c : Content) (payload : Bytes) (pos : Nat) : Content × Option Nat :=
  if (c.offset + pos) % 2 = 1 ∧ c.position < c.size then
    if pos < payload.length then ({ c with position := c.position + 1 }, some (pos + 1))
    else ({ c with carry := { c.carry with skip := 1 } }, some pos)
  else (c, some pos)

def countOff? (writing : Bool) (c : Content) (payload : Bytes) (pos n : Nat) :
    Option (Emission (Content × Option Nat)) :=
  (c.carry.owed.psub n).map fun owed =>
    let c := { c with position := c.position + n, carry := { c.carry with owed } }
    if 0 < owed then .silent (c, none)
    else
      let c := { c with carry := { c.carry with inRecord := false } }
      (endRecord writing c).map fun c => c.padAt payload (pos + n)

def resume? (writing : Bool) (c : Content) (payload : Bytes) (pos : Nat) :
    Option (Emission (Content × Option Nat)) := do
  let room ← payload.length.psub pos
  let n := min c.carry.owed room
  if n = 0 ∧ 0 < c.carry.owed then return .silent (c, none)
  let data ← payload.range? pos (pos + n)
  let e := c.emit writing data
  if e.value.2 then
    let later ← countOff? writing e.value.1 payload pos n
    return ⟨e.writes ++ later.writes, later.value⟩
  else return ⟨e.writes, (e.value.1, none)⟩

def beginRecord? (writing : Bool) (c : Content) (payload : Bytes) (pos word : Nat) :
    Option (Emission (Content × Option Nat)) :=
  if word = sentinel then some (.silent (c, some pos))
  else do
    let c := c.declare word
    let control := c.format.controlLength
    let room ← payload.length.psub pos
    if room < control then
      let skip ← control.psub room
      return .silent ({ c with position := c.position + room, carry := { c.carry with skip } }, none)
    resume? writing { c with position := c.position + control } payload (pos + control)

def shift (pos : Nat) (r : Content × Option Nat) : Content × Option Nat := (r.1, r.2.map (pos + ·))

lemma map_shift (e : Emission (Content × Option Nat)) (pos control : Nat) :
    (e.map fun r => (r.1, r.2.map (control + ·))).map (shift pos) = e.map (shift (pos + control)) := by
  simp [Emission.map, shift, Function.comp_def, Nat.add_assoc]

lemma carry_emit (writing : Bool) (c : Content) (data : Bytes) : (c.emit writing data).value.1.carry = c.carry := by
  rw [emit]
  split
  · rw [Emission.silent, sniff]
    split <;> rfl
  · split <;> rfl

lemma padAt_eq (c : Content) (payload : Bytes) (n : Nat) :
    c.padAt payload (pos + n) = shift pos (c.pad (c.offset + pos) n (payload.drop pos)) := by
  rw [padAt, pad, List.drop_drop, ← Nat.add_assoc]
  by_cases hodd : (c.offset + pos + n) % 2 = 1 ∧ c.position < c.size
  · rw [if_pos hodd, if_pos hodd]
    cases hrest : payload.drop (pos + n) with
    | nil =>
      rw [if_neg (Nat.not_lt.mpr (List.drop_eq_nil_iff.mp hrest))]
      rfl
    | cons b rest =>
      have hlt : pos + n < payload.length := by
        apply Nat.lt_of_not_le
        intro hle
        cases hrest.symm.trans (List.drop_eq_nil_of_le hle)
      rw [if_pos hlt]
      rfl
  · rw [if_neg hodd, if_neg hodd]
    rfl

lemma countOff?_eq (writing : Bool) {n : Nat} (hn : n ≤ c.carry.owed) :
    countOff? writing c payload pos n =
      some ((c.countOff writing (c.offset + pos) n (payload.drop pos)).map (shift pos)) := by
  rw [countOff?, countOff, Nat.psub_eq_sub hn]
  dsimp only [Option.map_some]
  split
  · rfl
  · rw [endInFlight, Emission.map, Emission.map, Emission.map, value_endRecord]
    dsimp only
    rw [padAt_eq]

lemma resume?_eq (writing : Bool) (c : Content) (hpos : pos ≤ payload.length) :
    resume? writing c payload pos =
      some ((c.resume writing (c.offset + pos) (payload.drop pos)).map (shift pos)) := by
  have hlength : ((payload.drop pos).take c.carry.owed).length = min c.carry.owed (payload.length - pos) := by
    rw [List.length_take, List.length_drop]
  have hdata : payload.range? pos (pos + min c.carry.owed (payload.length - pos)) =
      some ((payload.drop pos).take c.carry.owed) := by
    rw [Bytes.range?_eq (by omega), Bytes.slice, ← List.length_drop, ← List.take_eq_take_min]
  rw [resume?, Nat.psub_eq_sub hpos]
  simp only [Option.bind_eq_bind, Option.bind_some]
  by_cases hnone : min c.carry.owed (payload.length - pos) = 0 ∧ 0 < c.carry.owed
  · have hrest : payload.drop pos = [] := List.drop_eq_nil_of_le (by omega)
    rw [if_pos hnone, hrest, resume_nil hnone.2]
    rfl
  · have hrest : payload.drop pos ≠ [] ∨ c.carry.owed = 0 := by
      rw [ne_eq, List.drop_eq_nil_iff]
      omega
    have hcarry := carry_emit writing c ((payload.drop pos).take c.carry.owed)
    have hoffset := (keeps_emit writing c ((payload.drop pos).take c.carry.owed)).offset
    rw [if_neg hnone, hdata, resume_eq hrest, hlength, Option.bind_some, Emission.andThen]
    split
    · rw [countOff?_eq writing (by rw [hcarry]; exact Nat.min_le_left _ _), hoffset]
      rfl
    · exact congrArg some (by simp [Emission.map, Emission.silent, shift])

lemma beginRecord?_eq (writing : Bool) (c : Content) (hpos : pos ≤ payload.length) (word : Nat) :
    beginRecord? writing c payload pos word =
      some ((c.beginRecord writing (c.offset + pos) (payload.drop pos) word).map (shift pos)) := by
  rw [beginRecord?]
  by_cases hword : word = sentinel
  · rw [if_pos hword, hword, beginRecord_sentinel]
    rfl
  · rw [if_neg hword, beginRecord_eq hword, beginData, List.length_drop, Nat.psub_eq_sub hpos]
    simp only [Option.bind_eq_bind, Option.bind_some]
    have hformat : (c.declare word).format = c.format := rfl
    have hoffset : (c.declare word).offset = c.offset := rfl
    generalize c.declare word = d at hformat hoffset
    by_cases hroom : payload.length - pos < d.format.controlLength
    · rw [if_pos hroom, if_pos hroom, Nat.psub_eq_sub (Nat.le_of_lt hroom)]
      rfl
    · have hcontrol : pos + d.format.controlLength ≤ payload.length := by omega
      rw [if_neg hroom, if_neg hroom, resume?_eq writing _ hcontrol, List.drop_drop, ← hoffset, Nat.add_assoc,
        map_shift]

lemma le_of_beginRecord? {word next : Nat} {e : Emission (Content × Option Nat)}
    (h : beginRecord? writing c payload pos word = some e) (hnext : e.value.2 = some next) : pos ≤ next := by
  by_cases hpos : pos ≤ payload.length
  · rw [beginRecord?_eq writing c hpos] at h
    cases h
    obtain ⟨used, -, rfl⟩ := Option.map_eq_some_iff.mp hnext
    exact Nat.le_add_right _ _
  · rw [beginRecord?] at h
    split at h
    · cases h
      cases hnext
      exact Nat.le_refl _
    · rw [Nat.psub_eq_none.mpr (Nat.lt_of_not_le hpos)] at h
      cases h

def records? (writing : Bool) (c : Content) (payload : Bytes) (pos : Nat) : Option (Emission Content) :=
  if _h : pos < payload.length ∧ c.position < c.size then do
    let left ← payload.length.psub pos
    if left < 2 then
      let low ← payload[pos]?
      return .silent { c with position := c.position + 1, carry := { c.carry with lowByte := some low } }
    let word ← payload.range? pos (pos + 2)
    match _hb : beginRecord? writing { c with position := c.position + 2 } payload (pos + 2) word.toNat with
    | none => none
    | some e =>
      match _he : e.value with
      | (c, none) => return ⟨e.writes, c⟩
      | (c, some next) =>
        let later ← records? writing c payload next
        return ⟨e.writes ++ later.writes, later.value⟩
  else some (.silent c)
termination_by payload.length - pos
decreasing_by
  have := le_of_beginRecord? _hb (congrArg Prod.snd _he)
  omega

lemma records?_eq (writing : Bool) (c : Content) (payload : Bytes) (pos : Nat) :
    records? writing c payload pos = some (c.records writing (c.offset + pos) (payload.drop pos)) := by
  fun_induction records? writing c payload pos with
  | case1 c pos h ih =>
    obtain ⟨hpos, hc⟩ := h
    rw [Nat.psub_eq_sub (Nat.le_of_lt hpos)]
    simp only [Option.bind_eq_bind, Option.bind_some]
    match hrest : payload.drop pos with
    | [] =>
      rw [List.drop_eq_nil_iff] at hrest
      omega
    | [low] =>
      have hlength := congrArg List.length hrest
      have hlow : payload[pos]? = some low := by rw [← List.head?_drop, hrest]; rfl
      rw [List.length_drop, List.length_singleton] at hlength
      rw [if_pos (by omega), hlow, records_single hc]
      rfl
    | low :: high :: rest =>
      have hlength := congrArg List.length hrest
      rw [List.length_drop, List.length_cons, List.length_cons] at hlength
      have htwo : pos + 2 ≤ payload.length := by omega
      have hword : payload.range? pos (pos + 2) = some [low, high] := by
        rw [Bytes.range?_eq htwo, Bytes.slice, hrest]
        rfl
      have hbehind : payload.drop (pos + 2) = rest := by
        rw [← List.drop_drop, hrest]
        rfl
      have hbegin := beginRecord?_eq writing { c with position := c.position + 2 } htwo (Bytes.toNat [low, high])
      rw [hbehind] at hbegin
      rw [if_neg (by omega), hword, records_cons_cons hc, Option.bind_some]
      split
      · next hb => cases hb.symm.trans hbegin
      · next e hb =>
        obtain rfl := Option.some.inj (hb.symm.trans hbegin)
        have ih := ih [low, high] _ hb
        have hoffset := (keeps_beginRecord writing { c with position := c.position + 2 } (c.offset + (pos + 2)) rest
          (Bytes.toNat [low, high])).offset
        rw [Nat.add_assoc]
        generalize beginRecord writing { c with position := c.position + 2 } (c.offset + (pos + 2)) rest
          (Bytes.toNat [low, high]) = e at ih hoffset
        rcases e with ⟨writes, d, none | used⟩
        · simp [Emission.map, shift, Emission.andThen, Emission.silent]
        · have hlater := ih d (pos + 2 + used) rfl
          have hoffset : d.offset = c.offset := hoffset
          have hdrop : payload.drop (pos + 2 + used) = rest.drop used := by rw [← List.drop_drop, hbehind]
          rw [hoffset, hdrop] at hlater
          refine (congrArg (Option.bind · _) hlater).trans ?_
          rw [Option.bind_some, ← Nat.add_assoc, ← Nat.add_assoc]
          rfl
  | case2 c pos h =>
    by_cases hc : c.position < c.size
    · have hrest : payload.drop pos = [] := by
        rw [List.drop_eq_nil_iff]
        omega
      rw [hrest, records_nil]
    · rw [records_of_le (Nat.not_lt.mp hc)]

def continueRecords? (writing : Bool) (payload : Bytes) (e : Emission (Content × Option Nat)) :
    Option (Emission Content) :=
  match e.value with
  | (c, none) => some ⟨e.writes, c⟩
  | (c, some next) =>
    (records? writing c payload next).map fun later => ⟨e.writes ++ later.writes, later.value⟩

lemma continueRecords?_eq (writing : Bool) {e : Emission (Content × Option Nat)} (hc : e.value.1.offset = c.offset) :
    continueRecords? writing payload (e.map (shift pos)) =
      some (continueRecords writing (c.offset + pos) (payload.drop pos) e) := by
  rcases e with ⟨writes, d, none | used⟩
  · simp [continueRecords?, continueRecords, Emission.map, shift, Emission.andThen, Emission.silent]
  · have hc : d.offset = c.offset := hc
    have hlater := records?_eq writing d payload (pos + used)
    rw [hc, ← List.drop_drop, ← Nat.add_assoc] at hlater
    exact congrArg (Option.map _) hlater

def goOn? (writing : Bool) (c : Content) (payload : Bytes) (pos : Nat) : Option (Emission Content) :=
  match c.carry.lowByte with
  | some low =>
    match payload[pos]? with
    | none => some (.silent c)
    | some high =>
      let c := { c with position := c.position + 1, carry := { c.carry with lowByte := none } }
      (beginRecord? writing c payload (pos + 1) (Bytes.toNat [low, high])).bind (continueRecords? writing payload)
  | none =>
    if c.carry.inRecord then (resume? writing c payload pos).bind (continueRecords? writing payload)
    else records? writing c payload pos

lemma goOn?_eq (writing : Bool) (c : Content) (hpos : pos ≤ payload.length) :
    goOn? writing c payload pos = some (c.goOn writing (c.offset + pos) (payload.drop pos)) := by
  rw [goOn?, goOn]
  cases c.carry.lowByte with
  | some low =>
    dsimp only
    cases hrest : payload.drop pos with
    | nil =>
      have hnone : payload[pos]? = none := by rw [← List.head?_drop, hrest]; rfl
      rw [hnone]
    | cons high rest =>
      have hlength := congrArg List.length hrest
      rw [List.length_drop, List.length_cons] at hlength
      have hhigh : payload[pos]? = some high := by rw [← List.head?_drop, hrest]; rfl
      have hbehind : payload.drop (pos + 1) = rest := by rw [← List.drop_drop, hrest]; rfl
      have hnext : pos + 1 ≤ payload.length := by omega
      rw [hhigh]
      dsimp only
      rw [beginRecord?_eq writing _ hnext, Option.bind_some,
        continueRecords?_eq writing (keeps_beginRecord writing _ _ _ _).offset, hbehind, Nat.add_assoc]
  | none =>
    dsimp only
    split
    · rw [resume?_eq writing c hpos, Option.bind_some, continueRecords?_eq writing (keeps_resume writing c _ _).offset]
    · exact records?_eq writing c payload pos

def takeUp? (writing : Bool) (c : Content) (payload : Bytes) : Option (Emission Content) := do
  let pos := min c.carry.skip payload.length
  let skip ← c.carry.skip.psub pos
  let c := { c with position := c.position + pos, carry := { c.carry with skip } }
  if 0 < skip then return .silent c
  goOn? writing c payload pos

lemma takeUp?_eq (writing : Bool) (c : Content) (payload : Bytes) :
    takeUp? writing c payload = some (c.takeUp writing payload) := by
  rw [takeUp?, takeUp_eq, Nat.psub_eq_sub (Nat.min_le_left _ _)]
  simp only [Option.bind_eq_bind, Option.bind_some]
  by_cases hskip : payload.length < c.carry.skip
  · rw [if_pos hskip, Nat.min_eq_right (Nat.le_of_lt hskip), if_pos (Nat.sub_pos_of_lt hskip)]
    rfl
  · rw [if_neg hskip, Nat.min_eq_left (Nat.le_of_not_lt hskip), Nat.sub_self, if_neg (Nat.lt_irrefl 0),
      goOn?_eq writing _ (Nat.le_of_not_lt hskip), passOver, Nat.sub_self]

def feedRecords? (writing : Bool) (c : Content) (payload : Bytes) : Option (Emission Content) :=
  (takeUp? writing c payload).map fun e =>
    ⟨e.writes.map fun w => { w with refused := w.refused.advance payload.length }, e.value.advance payload.length⟩

def feed? (writing : Bool) (c : Content) (payload : Bytes) : Option (Emission Content) :=
  if c.mode = .raw ∨ c.format = .udf then copyRaw? writing c payload
  else if c.format.isStreamLike then copyStream? writing c payload
  else if c.format.isVariable then feedRecords? writing c payload
  else some (.silent c)

lemma feed?_eq (writing : Bool) (c : Content) (payload : Bytes) :
    feed? writing c payload = some (c.feed writing payload) := by
  rw [feed?, feed]
  split
  · rw [copyRaw?, bounded?_eq]
    rfl
  · split
    · rw [copyStream?, bounded?_eq]
      rfl
    · split
      · rw [feedRecords?, takeUp?_eq]
        rfl
      · rfl

end SaveSet.Content
