import SaveSet.Proofs.InRange.Headers
import SaveSet.Proofs.Walk.Members

/-! A block walked record by record, each handled as soon as it is found. Where the records are found does not depend
on what their handling leaves behind. -/

namespace SaveSet

namespace Outcome

variable {σ α : Type}

def answer (o : Outcome σ) (a : α) : Except Fault α × σ :=
  match o.fault with
  | none => (.ok a, o.state)
  | some f => (.error f, o.state)

def andAnswer (o : Outcome σ) (next : σ → Except Fault α × σ) : Except Fault α × σ :=
  match o.fault with
  | none => next o.state
  | some f => (.error f, o.state)

lemma state_answer (o : Outcome σ) (a : α) : (o.answer a).2 = o.state := by
  rcases o with ⟨s, _ | f⟩ <;> rfl

lemma of_answer_ok {o : Outcome σ} {a b : α} {s : σ} (h : o.answer a = (.ok b, s)) : a = b ∧ o = .ok s := by
  rcases o with ⟨t, _ | f⟩
  · cases h
    exact ⟨rfl, rfl⟩
  · cases h

lemma of_answer_error {o : Outcome σ} {a : α} {f : Fault} {s : σ} (h : o.answer a = (.error f, s)) : o = .stop s f := by
  rcases o with ⟨t, _ | g⟩
  · cases h
  · cases h
    rfl

end Outcome

def nextRecord? (block : Bytes) (cursor : Nat) : Option Nat :=
  (readRecord block.length cursor (block.drop cursor)).next

variable {σ : Type} [Sink σ]

namespace Session

def lose (rules : PassRules) (last : Bool) (cursor : Nat) (w : Warning) (s : Session σ) :
    Except Fault (Bool × Nat) × Session σ :=
  (s.apply rules last (.badRecord w)).answer (false, cursor)

def handle (rules : PassRules) (last : Bool) (block : Bytes) (cursor : Nat) (h : RecordHeader) (s : Session σ) :
    Except Fault (Bool × Nat) × Session σ :=
  let start := cursor + RecordHeader.layout.length
  match block.range? start (start + h.size) with
  | none => s.lose rules last cursor (.truncated ⟨"record payload", h.size, block.length - start⟩)
  | some payload =>
    match h.kind with
    | .volume => (.ok (true, block.length), s)
    | .vbn => (s.data payload).answer (true, start + h.size)
    | .file =>
      match FileAttributes.decode payload h.size with
      | .ok a => (s.file rules a h.flags).answer (true, start + h.size)
      | .error e => s.lose rules last cursor (.truncated e)
    | .unknown number => s.lose rules last cursor (.unknownKind number h.size)
    | _ => (.ok (true, start + h.size), s)

def record (rules : PassRules) (last : Bool) (block : Bytes) (cursor : Nat) (s : Session σ) :
    Except Fault (Bool × Nat) × Session σ :=
  match RecordHeader.decode (block.drop cursor) with
  | .error e => s.lose rules last cursor (.truncated e)
  | .ok h =>
    if h.size = 0 then (.ok (true, block.length), s)
    else (if h.kind.continuesFile then .ok s else s.close).andAnswer (handle rules last block cursor h)

lemma close_andAnswer {α : Type} {s : Session σ} {next : Session σ → Except Fault α × Session σ}
    {step : Session σ → Outcome (Session σ)} {a : α} (h : ∀ t, t.active = none → next t = (step t).answer a) :
    s.close.andAnswer next = (s.close.andThen step).answer a := by
  have ha := s.active_close
  rcases hc : s.close with ⟨t, _ | f⟩
  · rw [hc] at ha
    exact h t ha
  · rfl

lemma close_answer {α : Type} (s : Session σ) (a : α) :
    s.close.andAnswer (fun t => (.ok a, t)) = s.close.answer a := by
  rcases s.close with ⟨t, _ | f⟩ <;> rfl

lemma close_lose (rules : PassRules) (last : Bool) (cursor : Nat) (w : Warning) (s : Session σ) :
    s.close.andAnswer (lose rules last cursor w) = s.lose rules last cursor w := by
  apply close_andAnswer
  intro t ht
  rw [lose, apply, close_inactive ht, Outcome.andThen_ok]

lemma record_eq (rules : PassRules) (last : Bool) (block : Bytes) (cursor : Nat) (s : Session σ) :
    s.record rules last block cursor =
      (s.apply rules last (readRecord block.length cursor (block.drop cursor)).event).answer
        ((readRecord block.length cursor (block.drop cursor)).next.isSome,
          (readRecord block.length cursor (block.drop cursor)).next.getD cursor) := by
  rw [record, readRecord]
  cases hh : RecordHeader.decode (block.drop cursor) with
  | error e => rfl
  | ok h =>
  dsimp only
  split
  · rfl
  -- The file before may have been closed already; to close it again, as a lost record does, changes nothing.
  by_cases hend : cursor + RecordHeader.layout.length + h.size ≤ block.length
  · have hpayload : Bytes.slice (block.drop cursor) RecordHeader.layout.length h.size =
        Bytes.slice block (cursor + RecordHeader.layout.length) h.size := by
      rw [Bytes.slice, Bytes.slice, List.drop_drop]
    rw [if_neg (Nat.not_lt.mpr hend), RecordReading.ofPayload, hpayload]
    unfold handle
    simp only [Bytes.range?_eq hend]
    cases hkind : h.kind with
    | null | volume | vbn => rfl
    | unknown number => exact close_lose rules last cursor _ s
    | file =>
      dsimp only
      cases FileAttributes.decode (Bytes.slice block (cursor + RecordHeader.layout.length) h.size) h.size with
      | ok a => exact close_andAnswer fun t _ => rfl
      | error e => exact close_lose rules last cursor _ s
    | summary | physicalVolume | lbn | fid | fileExtension | lbn576 | directoryAttributes | aliasEntry =>
      exact close_answer s _
  · have hnone : block.range? (cursor + RecordHeader.layout.length)
        (cursor + RecordHeader.layout.length + h.size) = none := if_neg fun h => hend h.2
    have hlost (t : Session σ) : handle rules last block cursor h t = t.lose rules last cursor
        (.truncated ⟨"record payload", h.size, block.length - (cursor + RecordHeader.layout.length)⟩) := by
      rw [handle, hnone]
    rw [if_pos (Nat.lt_of_not_le hend), funext hlost]
    split
    · rfl
    · exact close_lose rules last cursor _ s

lemma record_sound {rules : PassRules} {last : Bool} {block : Bytes} {cursor next : Nat} {s t : Session σ}
    (h : s.record rules last block cursor = (.ok (true, next), t)) : nextRecord? block cursor = some next := by
  rw [record_eq] at h
  obtain ⟨hanswer, -⟩ := Outcome.of_answer_ok h
  obtain ⟨hsome, hnext⟩ := Prod.mk.inj hanswer
  obtain ⟨n, hn⟩ := Option.isSome_iff_exists.mp hsome
  rw [hn, Option.getD_some] at hnext
  rw [nextRecord?, hn, hnext]

end Session

structure BlockWalk (σ : Type) where
  answer : Except Fault Bool
  cursors : List Nat
  session : Session σ

structure BlockWalk.Agrees (w : BlockWalk σ) (o : Outcome (Session σ)) (sound : Bool) (cursors : List Nat) : Prop where
  answer : w.answer = (o.answer sound).1
  session : w.session = o.state
  cursors : o.fault = none → w.cursors = cursors

def BlockWalk.behind (cursor : Nat) (w : BlockWalk σ) : BlockWalk σ := { w with cursors := cursor :: w.cursors }

namespace Session

def records (rules : PassRules) (last : Bool) (block : Bytes) (cursor : Nat) (s : Session σ) : BlockWalk σ :=
  if _hc : cursor < block.length then
    match _hr : s.record rules last block cursor with
    | (.error f, t) => ⟨.error f, [cursor], t⟩
    | (.ok (false, _), t) => ⟨.ok false, [cursor], t⟩
    | (.ok (true, next), t) => (t.records rules last block next).behind cursor
  else ⟨.ok true, [], s⟩
termination_by block.length - cursor
decreasing_by
  have := readRecord_next _hc (record_sound _hr)
  omega

def block (rules : PassRules) (last : Bool) (g : Geometry) (bytes : Bytes) (s : Session σ) : BlockWalk σ :=
  let lose (w : Warning) : BlockWalk σ :=
    let lost := (s.apply rules last (.badBlock w)).answer false
    ⟨lost.1, [], lost.2⟩
  match BlockHeader.decode bytes with
  | .error e => lose (.truncated e)
  | .ok h =>
    if h.isCompatible g.blockSize then s.records rules last (bytes.take g.blockSize) g.headerSize
    else lose (.blockSize g.blockSize h.blockSize)

end Session

def recordCursors (block : Bytes) (cursor : Nat) : List Nat :=
  if _hc : cursor < block.length then
    match _hn : nextRecord? block cursor with
    | none => [cursor]
    | some next => cursor :: recordCursors block next
  else []
termination_by block.length - cursor
decreasing_by
  have := readRecord_next _hc _hn
  omega

def Geometry.cursors (g : Geometry) (bytes : Bytes) : List Nat :=
  match BlockHeader.decode bytes with
  | .error _ => []
  | .ok h => if h.isCompatible g.blockSize then recordCursors (bytes.take g.blockSize) g.headerSize else []

variable {block : Bytes} {cursor next : Nat}

lemma nextRecord?_bounds (h : nextRecord? block cursor = some next) : cursor + 16 ≤ next ∧ next ≤ block.length := by
  rw [nextRecord?, readRecord] at h
  cases hh : RecordHeader.decode (block.drop cursor) with
  | error e =>
    rw [hh] at h
    cases h
  | ok header =>
    have hroom := RecordHeader.length_of_decode hh
    rw [List.length_drop, RecordHeader.length_layout] at hroom
    rw [hh] at h
    simp only [RecordHeader.length_layout] at h
    split at h
    · next hempty =>
      cases h
      omega
    · split at h
      · cases h
      · next hend =>
        obtain rfl | rfl := RecordReading.next_ofPayload h
        · omega
        · omega

lemma readRecords_lost (hc : cursor < block.length) (hn : nextRecord? block cursor = none) :
    readRecords block cursor = ⟨[(readRecord block.length cursor (block.drop cursor)).event], false⟩ :=
  readRecordsAfter_none hc hn []

lemma readRecords_next (hc : cursor < block.length) (hn : nextRecord? block cursor = some next) :
    readRecords block cursor =
      ⟨(readRecord block.length cursor (block.drop cursor)).event :: (readRecords block next).events,
        (readRecords block next).sound⟩ := by
  have hlt := (readRecord_next hc hn).1
  rw [readRecords, readRecordsAfter_some hc hn, List.drop_drop, Nat.add_sub_cancel' (Nat.le_of_lt hlt)]
  exact readRecordsAfter_append [_] [] block.length next (block.drop next)

lemma readRecords_end (hc : block.length ≤ cursor) : readRecords block cursor = ⟨[], true⟩ :=
  readRecordsAfter_past hc []

lemma recordCursors_next (hc : cursor < block.length) (hn : nextRecord? block cursor = some next) :
    recordCursors block cursor = cursor :: recordCursors block next := by
  rw [recordCursors, dif_pos hc]
  split
  · next hs => exact absurd (hn.symm.trans hs) (Option.some_ne_none _)
  · next n hs => rw [Option.some.inj (hn.symm.trans hs)]

lemma recordCursors_lost (hc : cursor < block.length) (hn : nextRecord? block cursor = none) :
    recordCursors block cursor = [cursor] := by
  rw [recordCursors, dif_pos hc]
  split
  · rfl
  · next hs => exact absurd (hs.symm.trans hn) (Option.some_ne_none _)

lemma recordCursors_end (hc : block.length ≤ cursor) : recordCursors block cursor = [] := by
  rw [recordCursors, dif_neg (Nat.not_lt.mpr hc)]

lemma recordCursors_bounds (block : Bytes) (cursor : Nat) :
    (∀ c ∈ recordCursors block cursor, cursor ≤ c ∧ c < block.length) ∧
      (recordCursors block cursor).Pairwise (fun c d => c + 16 ≤ d) := by
  fun_induction recordCursors block cursor with
  | case1 cursor hc =>
    exact ⟨List.forall_mem_singleton.mpr ⟨Nat.le_refl _, hc⟩, List.pairwise_singleton _ _⟩
  | case2 cursor hc next hn ih =>
    obtain ⟨hbounds, hapart⟩ := ih
    have hnext := (nextRecord?_bounds hn).1
    refine ⟨List.forall_mem_cons.mpr ⟨⟨Nat.le_refl _, hc⟩, fun c hmem => ?_⟩,
      List.pairwise_cons.mpr ⟨fun d hd => ?_, hapart⟩⟩
    · have := hbounds c hmem
      omega
    · have := hbounds d hd
      omega
  | case3 cursor hc => exact ⟨fun c hmem => absurd hmem List.not_mem_nil, .nil⟩

lemma length_recordCursors (block : Bytes) (cursor : Nat) :
    16 * (recordCursors block cursor).length ≤ block.length - cursor + 15 := by
  fun_induction recordCursors block cursor with
  | case1 cursor hc =>
    rw [List.length_singleton]
    omega
  | case2 cursor hc next hn ih =>
    have hnext := nextRecord?_bounds hn
    rw [List.length_cons]
    by_cases hend : next < block.length
    · omega
    · rw [recordCursors_end (Nat.not_lt.mp hend), List.length_nil]
      omega
  | case3 cursor hc => exact Nat.zero_le _

namespace Session

lemma records_eq (rules : PassRules) (last : Bool) (block : Bytes) (cursor : Nat) (s : Session σ) :
    (s.records rules last block cursor).Agrees (s.applyAll rules last (readRecords block cursor).events)
      (readRecords block cursor).sound (recordCursors block cursor) := by
  fun_induction records rules last block cursor s with
  | case1 cursor s hc f t hr =>
    rw [record_eq] at hr
    have hstop : ∀ es, s.applyAll rules last ((readRecord block.length cursor (block.drop cursor)).event :: es) =
        .stop t f := by
      intro es
      rw [applyAll, Outcome.each_cons, Outcome.of_answer_error hr, Outcome.andThen_stop]
    cases hn : nextRecord? block cursor with
    | none =>
      rw [readRecords_lost hc hn, hstop]
      exact ⟨rfl, rfl, fun h => nomatch h⟩
    | some next =>
      rw [readRecords_next hc hn, hstop]
      exact ⟨rfl, rfl, fun h => nomatch h⟩
  | case2 cursor s hc _ t hr =>
    rw [record_eq] at hr
    obtain ⟨hanswer, happly⟩ := Outcome.of_answer_ok hr
    have hn : nextRecord? block cursor = none := by
      simpa [nextRecord?] using (Prod.mk.inj hanswer).1
    rw [readRecords_lost hc hn, recordCursors_lost hc hn, applyAll, Outcome.each_cons, happly, Outcome.andThen_ok]
    exact ⟨rfl, rfl, fun _ => rfl⟩
  | case3 cursor s hc next t hr ih =>
    have hn := record_sound hr
    rw [record_eq] at hr
    obtain ⟨-, happly⟩ := Outcome.of_answer_ok hr
    rw [readRecords_next hc hn, recordCursors_next hc hn, applyAll, Outcome.each_cons, happly, Outcome.andThen_ok]
    exact ⟨ih.answer, ih.session, fun h => congrArg (cursor :: ·) (ih.cursors h)⟩
  | case4 cursor s hc =>
    rw [readRecords_end (Nat.not_lt.mp hc), recordCursors_end (Nat.not_lt.mp hc)]
    exact ⟨rfl, rfl, fun _ => rfl⟩

lemma block_eq (rules : PassRules) (last : Bool) (g : Geometry) (bytes : Bytes) (s : Session σ) :
    (s.block rules last g bytes).Agrees (s.applyAll rules last (readBlock g bytes).events)
      (readBlock g bytes).sound (g.cursors bytes) := by
  have hlost (w : Warning) : s.applyAll rules last [.badBlock w] = s.apply rules last (.badBlock w) := by
    rw [applyAll, Outcome.each_cons]
    rcases s.apply rules last (.badBlock w) with ⟨t, _ | f⟩ <;> rfl
  rw [block, readBlock, Geometry.cursors]
  cases BlockHeader.decode bytes with
  | error e =>
    dsimp only
    rw [hlost]
    exact ⟨rfl, Outcome.state_answer _ _, fun _ => rfl⟩
  | ok h =>
    dsimp only
    split
    · exact records_eq rules last _ _ s
    · dsimp only
      rw [hlost]
      exact ⟨rfl, Outcome.state_answer _ _, fun _ => rfl⟩

end Session

end SaveSet
