import SaveSet.Proofs.Content.ByteByByte
import SaveSet.Proofs.Content.Targets

namespace SaveSet

inductive RecordItem (control : Nat) where
  | record (area data : Bytes) (pad : UInt8) (area_length : area.length = control)
    (fits : control + data.length < Content.sentinel)
  | sentinel

namespace RecordItem

variable {control : Nat}

def body : RecordItem control → Bytes
  | record area data _ _ _ => Bytes.ofNat 2 (control + data.length) ++ (area ++ data)
  | sentinel => Bytes.ofNat 2 Content.sentinel

/-- A pad follows an item that ends at an odd offset; all items start at even ones. -/
def padding : RecordItem control → Bytes
  | record area data pad h f => if (record area data pad h f).body.length % 2 = 1 then [pad] else []
  | sentinel => []

def encode (x : RecordItem control) : Bytes := x.body ++ x.padding

def stream (closed : Bool) : List (RecordItem control) → Bytes
  | [] => []
  | [x] => if closed then x.encode else x.body
  | x :: y :: xs => x.encode ++ stream closed (y :: xs)

def data : RecordItem control → Bytes
  | record _ data _ _ _ => data
  | sentinel => []

def output (text : Bool) : RecordItem control → Bytes
  | record _ data _ _ _ => if text then data ++ LineEnds.hostEnd else data
  | sentinel => []

def IsPlain (text : Bool) (x : RecordItem control) : Prop :=
  text = true → ∀ b ∈ x.data, LineEnds.isEnd b = false

lemma even_encode (x : RecordItem control) : x.encode.length % 2 = 0 := by
  cases x with
  | record area data pad h f =>
    rw [encode, List.length_append, padding]
    split
    · rw [List.length_singleton]
      omega
    · rw [List.length_nil]
      omega
  | sentinel => rw [encode, padding, List.append_nil, body, Bytes.length_ofNat]

lemma length_body_pos (x : RecordItem control) : 0 < x.body.length := by
  cases x with
  | record area data pad h f => rw [body, List.length_append, Bytes.length_ofNat]; omega
  | sentinel => exact Nat.two_pos

end RecordItem

lemma LineEnds.step_plain {b : UInt8} (h : isEnd b = false) : step false b = (false, [b]) := by
  rw [isEnd, Bool.or_eq_false_iff, beq_eq_false_iff_ne, beq_eq_false_iff_ne] at h
  rw [step, if_neg h.2, if_neg Bool.false_ne_true, if_neg h.1]

lemma LineEnds.hostText_plain {data : Bytes} (h : ∀ b ∈ data, isEnd b = false) :
    hostText false data = (false, data) := by
  induction data with
  | nil => rfl
  | cons b bs ih =>
    rw [hostText_cons, step_plain (h b List.mem_cons_self), ih fun b hb => h b (List.mem_cons_of_mem _ hb)]
    rfl

namespace ByteMachine

open RecordItem

variable {m : ByteMachine} {n : Nat} {s : State}

def atItem (n : Nat) (s : State) : State := { s with phase := .word, position := n, offset := n }

def behindItem (m : ByteMachine) (n : Nat) (s : State) : State :=
  goTo (if n % 2 = 1 ∧ n < m.size then .pad else .word) (atItem n s)

def take (m : ByteMachine) (s : State) : RecordItem m.control → State
  | .record _ data _ _ _ => goTo s.phase (m.stop (m.put data s))
  | .sentinel => s

lemma put_atItem (data : Bytes) (n : Nat) (s : State) : m.put data (atItem n s) = atItem n (m.put data s) := by
  rw [put, put]
  split <;> rfl

lemma stop_put_atItem (data : Bytes) (n : Nat) (s : State) :
    m.stop (m.put data (atItem n s)) = behindItem m n (m.stop (m.put data s)) := by
  rw [put_atItem]
  rfl

lemma run_length (hn : n < m.size) (word : Nat) (hw : word ≤ Content.sentinel) (rest : Bytes) :
    m.run (atItem n s) (Bytes.ofNat 2 word ++ rest) = m.run (m.begin word (atItem (n + 2) s)) rest := by
  have hword : Bytes.toNat (Bytes.ofNat 2 word) = word := by
    rw [Bytes.toNat_ofNat]
    exact Nat.mod_eq_of_lt (Nat.lt_of_le_of_lt hw (by decide))
  have hlow : m.step (atItem n s) (UInt8.ofNat word) = goTo (.high (UInt8.ofNat word)) (atItem (n + 1) s) :=
    if_pos hn
  have hhigh : m.step (goTo (.high (UInt8.ofNat word)) (atItem (n + 1) s)) (UInt8.ofNat (word / 256)) =
      m.begin word (atItem (n + 2) s) := by
    change m.begin (Bytes.toNat (Bytes.ofNat 2 word)) _ = _
    rw [hword]
    exact m.begin_goTo word (.high (UInt8.ofNat word)) (atItem (n + 2) s)
  rw [run_append, Bytes.ofNat, Bytes.ofNat, Bytes.ofNat, run_cons, run_cons, run_nil, hlow, hhigh]

lemma run_record {area data : Bytes} (ha : area.length = m.control)
    (hf : m.control + data.length < Content.sentinel) (hn : n + 2 + m.control + data.length ≤ m.size) :
    m.run (m.begin (m.control + data.length) (atItem (n + 2) s)) (area ++ data) =
      behindItem m (n + 2 + m.control + data.length) (m.stop (m.put data s)) := by
  have howed : min (m.control + data.length - m.control) (m.size - (n + 2 + m.control)) = data.length := by omega
  have harea : m.run (m.begin (m.control + data.length) (atItem (n + 2) s)) area =
      m.enter data.length (atItem (n + 2 + m.control) s) := by
    have hbegin : m.begin (m.control + data.length) (atItem (n + 2) s) =
        if m.control = 0 then m.enter data.length (atItem (n + 2) s)
        else goTo (.control m.control data.length) (atItem (n + 2) s) := by
      rw [begin, if_neg (Nat.ne_of_lt hf)]
      dsimp only [atItem]
      rw [howed]
    rw [hbegin, m.run_area ha]
    rfl
  rw [run_append, harea]
  by_cases hnil : data = []
  · rw [hnil, run_nil, enter, List.length_nil, if_pos rfl]
    exact stop_put_atItem [] _ s
  · have hpos := List.length_pos_iff.mpr hnil
    rw [enter, if_neg (Nat.ne_of_gt hpos), m.run_data rfl hnil (Nat.le_refl _), if_pos rfl, moved_goTo, put_goTo,
      stop_goTo]
    exact stop_put_atItem data _ s

lemma run_body (x : RecordItem m.control) (heven : n % 2 = 0) (hn : n + x.body.length ≤ m.size) :
    m.run (atItem n s) x.body = behindItem m (n + x.body.length) (m.take s x) := by
  have hpos := x.length_body_pos
  cases x with
  | record area data pad ha hf =>
    have hlen : n + (RecordItem.record area data pad ha hf).body.length = n + 2 + m.control + data.length := by
      rw [body, List.length_append, List.length_append, Bytes.length_ofNat, ha]
      omega
    rw [hlen] at hn ⊢
    rw [body, run_length (by omega) _ (Nat.le_of_lt hf), run_record ha hf hn]
    rfl
  | sentinel =>
    have hrun : m.run (atItem n s) (Bytes.ofNat 2 Content.sentinel ++ []) =
        m.begin Content.sentinel (atItem (n + 2) s) := run_length (by omega) _ (Nat.le_refl _) []
    rw [List.append_nil, begin, if_pos rfl] at hrun
    rw [body, Bytes.length_ofNat, hrun, behindItem, if_neg (by omega)]
    rfl

lemma run_encode (x : RecordItem m.control) (heven : n % 2 = 0) (hn : n + x.encode.length ≤ m.size) :
    m.run (atItem n s) x.encode = atItem (n + x.encode.length) (m.take s x) := by
  have hodd := x.even_encode
  rw [encode, List.length_append] at hn hodd ⊢
  rw [run_append, run_body x heven (by omega), behindItem]
  cases x with
  | record area data pad ha hf =>
    rw [padding] at hn hodd ⊢
    split at hn
    · next hpad =>
      rw [List.length_singleton] at hn
      rw [if_pos hpad, if_pos ⟨by omega, by omega⟩]
      rfl
    · next hpad =>
      rw [if_neg hpad, if_neg (by omega)]
      rfl
  | sentinel =>
    have hlen : (RecordItem.sentinel : RecordItem m.control).body.length = 2 := Bytes.length_ofNat _ _
    rw [if_neg (by omega)]
    rfl

lemma run_stream (closed : Bool) (xs : List (RecordItem m.control)) (heven : n % 2 = 0)
    (hn : n + (stream closed xs).length = m.size) :
    m.run (atItem n s) (stream closed xs) = atItem m.size (xs.foldl m.take s) := by
  induction xs generalizing n s with
  | nil =>
    rw [stream, run_nil, ← hn]
    rfl
  | cons x xs ih =>
    cases xs with
    | nil =>
      rw [stream] at hn ⊢
      cases closed with
      | true =>
        rw [if_pos rfl] at hn ⊢
        rw [run_encode x heven (Nat.le_of_eq hn), hn]
        rfl
      | false =>
        rw [if_neg Bool.false_ne_true] at hn ⊢
        rw [run_body x heven (Nat.le_of_eq hn), hn, behindItem, if_neg (by omega)]
        rfl
    | cons y xs =>
      have hodd := x.even_encode
      rw [stream, List.length_append, ← Nat.add_assoc] at hn
      rw [stream, run_append, run_encode x heven (by omega), ih (by omega) hn]
      rfl

lemma run_file (closed : Bool) (xs : List (RecordItem m.control)) (hs : m.size = (stream closed xs).length)
    (extra : Bytes) :
    m.run {} (stream closed xs ++ extra) =
      { atItem m.size (xs.foldl m.take {}) with offset := m.size + extra.length } := by
  have hstream : m.run {} (stream closed xs) = atItem m.size (xs.foldl m.take {}) :=
    run_stream (n := 0) (s := {}) closed xs rfl ((Nat.zero_add _).trans hs.symm)
  rw [run_append, hstream]
  exact m.run_done rfl (Nat.le_refl _) extra

lemma take_plain {x : RecordItem m.control} (hx : x.IsPlain m.text) (hp : s.pending = false)
    (hl : s.lastEnded = false) : m.take s x = { s with out := s.out ++ x.output m.text } := by
  rcases s with ⟨phase, position, offset, pending, lastEnded, out⟩
  obtain rfl : pending = false := hp
  obtain rfl : lastEnded = false := hl
  cases x with
  | record area data pad ha hf =>
    have hx : m.text = true → ∀ b ∈ data, LineEnds.isEnd b = false := hx
    have hout : (RecordItem.record area data pad ha hf).output m.text =
        if m.text then data ++ LineEnds.hostEnd else data := rfl
    rw [take, stop, put, hout]
    cases ht : m.text with
    | true =>
      have hlast : data.getLast?.any LineEnds.isEnd = false := by
        cases hd : data.getLast? with
        | none => rfl
        | some b => exact hx ht b (List.mem_of_getLast? hd)
      simp [goTo, LineEnds.hostText_plain (hx ht), hlast]
    | false => simp [goTo]
  | sentinel =>
    change _ = State.mk phase position offset false false (out ++ [])
    rw [List.append_nil]
    rfl

lemma foldl_take_plain {xs : List (RecordItem m.control)} (hx : ∀ x ∈ xs, x.IsPlain m.text)
    (hp : s.pending = false) (hl : s.lastEnded = false) :
    xs.foldl m.take s = { s with out := s.out ++ xs.flatMap (RecordItem.output m.text) } := by
  induction xs generalizing s with
  | nil => rw [List.foldl_nil, List.flatMap_nil, List.append_nil]
  | cons x xs ih =>
    rw [List.foldl_cons, take_plain (hx x List.mem_cons_self) hp hl,
      ih (s := { s with out := s.out ++ x.output m.text }) (fun y hy => hx y (List.mem_cons_of_mem x hy)) hp hl,
      List.flatMap_cons, List.append_assoc]

lemma run_file_plain (closed : Bool) {xs : List (RecordItem m.control)} (hx : ∀ x ∈ xs, x.IsPlain m.text)
    (hs : m.size = (stream closed xs).length) (extra : Bytes) :
    m.run {} (stream closed xs ++ extra) =
      { position := m.size, offset := m.size + extra.length, out := xs.flatMap (RecordItem.output m.text) } := by
  rw [run_file closed xs hs extra, foldl_take_plain hx rfl rfl]
  rfl

end ByteMachine

namespace Content

open ByteMachine

lemma absorbAll_stream {c : Content} (hf : c.format.isVariable = true) (hm : c.mode = .binary ∨ c.mode = .ascii)
    (closed : Bool) (xs : List (RecordItem c.format.controlLength))
    (hx : ∀ x ∈ xs, x.IsPlain (c.mode == .ascii)) (hs : c.size = (RecordItem.stream closed xs).length)
    (extra : Bytes) {payloads : List Bytes} (hp : payloads.flatten = RecordItem.stream closed xs ++ extra) :
    c.reset.output payloads = xs.flatMap (RecordItem.output (c.mode == .ascii)) ∧
      (absorbAll true payloads c.reset).value.isComplete = true := by
  have hframed := framed_reset hf hm
  obtain ⟨hout, hfollows⟩ := follows_absorbAll payloads hframed (follows_reset c)
  have hrun : c.machine.run {} payloads.flatten =
      { position := c.size, offset := c.size + extra.length,
        out := xs.flatMap (RecordItem.output (c.mode == .ascii)) } := by
    rw [hp]
    exact run_file_plain (m := c.machine) closed hx hs extra
  rw [hrun] at hout hfollows
  have hsize : (absorbAll true payloads c.reset).value.size = c.size := congrArg ByteMachine.size hfollows.machine
  have hfinish : (absorbAll true payloads c.reset).value.finish.bytes = [] := by
    rw [bytes_finish, hfollows.pending]
    rfl
  refine ⟨?_, ?_⟩
  · rw [output, Emission.bytes_andThen, hfinish, List.append_nil]
    exact hout.symm
  · rw [isComplete, hsize, hfollows.position]
    exact beq_self_eq_true c.size

end Content

namespace Target

open Content

variable {σ : Type} [Sink σ]

def feedAll (payloads : List Bytes) (t : Target) (s : σ) : Outcome (Target × σ) :=
  Outcome.each (fun payload r => r.1.feed payload r.2) payloads (t, s)

variable [FileSink σ] {t : Target} {h : Handle} {s : σ} {fs : List OutputFile} {f : OutputFile}

lemma feedAll_unsettled (payloads : List Bytes) (hs : t.content.settled = false) (hh : t.handle = some h)
    (ho : FileSink.IsOpen h s) (hf : FileSink.files s = fs ++ [f]) :
    ∃ out, t.feedAll payloads s = .ok ({ t with content := (absorbAll true payloads t.content).value }, out) ∧
      FileSink.IsOpen h out ∧
      FileSink.files out = fs ++ [f.append (absorbAll true payloads t.content).bytes] := by
  induction payloads generalizing t s f with
  | nil =>
    refine ⟨s, rfl, ho, ?_⟩
    rw [hf, absorbAll, Emission.bytes_silent, OutputFile.append_nil]
  | cons p ps ih =>
    have hnext : (t.content.feed true p).value.settled = false := (settled_feed (Or.inl rfl) p).trans hs
    obtain ⟨out, hfeed, hout, hfiles⟩ := feed_open p hh ho hf
    obtain ⟨out', hall, hout', hfiles'⟩ :=
      ih (t := { t with content := (t.content.feed true p).value }) hnext hh hout hfiles
    refine ⟨out', ?_, hout', ?_⟩
    · rw [feedAll, Outcome.each_cons, hfeed, Outcome.andThen_ok, absorbAll_cons hs]
      exact hall
    · rw [hfiles', absorbAll_cons hs, Emission.bytes_andThen, OutputFile.append_append]

lemma feedAll_open (payloads : List Bytes) (hc : Framed t.content) (hh : t.handle = some h)
    (ho : FileSink.IsOpen h s) (hf : FileSink.files s = fs ++ [f]) :
    ∃ out, t.feedAll payloads s = .ok ({ t with content := (absorbAll true payloads t.content).value }, out) ∧
      FileSink.IsOpen h out ∧
      FileSink.files out = fs ++ [f.append (absorbAll true payloads t.content).bytes] :=
  feedAll_unsettled payloads hc.unsettled hh ho hf

/-- Records come back from any cut of their stream: as binary they stand one behind the other, as text
each is a line. Nothing is made of sentinels, and nothing behind the end of the file is looked at. -/
theorem records_come_back {format : RecordFormat} {mode : ContentMode} (hf : format.isVariable = true)
    (hm : mode = .binary ∨ mode = .ascii) (closed : Bool) (xs : List (RecordItem format.controlLength))
    (hx : ∀ x ∈ xs, x.IsPlain (mode == .ascii)) (extra : Bytes) {payloads : List Bytes}
    (hp : payloads.flatten = RecordItem.stream closed xs ++ extra)
    (hc : t.content = { size := (RecordItem.stream closed xs).length, format, mode })
    (hh : t.handle = some h) (ho : FileSink.IsOpen h s) (hfs : FileSink.files s = fs ++ [f]) :
    ∃ u out, ((t.feedAll payloads s).andThen fun r => r.1.finish r.2) = .ok (u, out) ∧
      u.content.isComplete = true ∧
      FileSink.files out = fs ++ [f.append (xs.flatMap (RecordItem.output (mode == .ascii)))] := by
  rcases t with ⟨name, version, selected, content, handle⟩
  obtain rfl : content = { size := (RecordItem.stream closed xs).length, format, mode } := hc
  obtain rfl : handle = some h := hh
  let c : Content := { size := (RecordItem.stream closed xs).length, format, mode }
  have hframed : Framed c :=
    ⟨hf, fun hraw => by rcases hm with hm | hm <;> exact absurd (hm.symm.trans hraw) (by decide), rfl⟩
  obtain ⟨houtput, hcomplete⟩ := absorbAll_stream (c := c) hf hm closed xs hx rfl extra hp
  obtain ⟨out, hall, hout, hfiles⟩ := feedAll_open payloads (t := ⟨name, version, selected, c, some h⟩)
    hframed rfl ho hfs
  let u : Target := ⟨name, version, selected, (absorbAll true payloads c).value, some h⟩
  obtain ⟨out', hfinish, -, hfiles'⟩ := finish_open (t := u) rfl hout hfiles
  refine ⟨{ u with content := u.content.finish.value }, out', ?_, hcomplete, ?_⟩
  · rw [hall, Outcome.andThen_ok]
    exact hfinish
  · rw [hfiles', OutputFile.append_append, ← houtput, output, Emission.bytes_andThen]
    rfl

def twoRecords : List (RecordItem 2) :=
  [.record [1, 2] [65, 66, 67] 9 rfl (by decide), .sentinel, .record [3, 4] [68] 7 rfl (by decide)]

def cutRecords : List Bytes := [[5], [0, 1], [2, 65], [66, 67, 9, 0xFF], [], [0xFF, 3, 0, 3, 4, 68], [7, 77]]

def openRecords : Target := ⟨"A.B;1", 1, true, { size := 16, format := .vfc, mode := .ascii }, some ⟨0⟩⟩

def openedRecords : MemorySink := (MemorySink.openFile ⟨"A.B;1", ⟨0⟩, ⟨0⟩⟩ {}).2

theorem two_records_come_back :
    ∃ u out, ((openRecords.feedAll cutRecords openedRecords).andThen fun r => r.1.finish r.2) = .ok (u, out) ∧
      u.content.isComplete = true ∧
      FileSink.files out = [⟨"A.B;1", ⟨0⟩, ⟨0⟩, [65, 66, 67, 10, 68, 10]⟩] := by
  have hplain : (twoRecords.flatMap RecordItem.data).any LineEnds.isEnd = false := by decide
  have hitems : ∀ x ∈ twoRecords, x.IsPlain true := by
    intro x hx _ b hb
    exact Bool.eq_false_iff.mpr (List.any_eq_false.mp hplain b (List.mem_flatMap.mpr ⟨x, hx, hb⟩))
  have hfiles : FileSink.files openedRecords = [] ++ [.ofRequest ⟨"A.B;1", ⟨0⟩, ⟨0⟩⟩] := rfl
  exact records_come_back (rfl : RecordFormat.vfc.isVariable = true)
    (Or.inr rfl : ContentMode.ascii = .binary ∨ ContentMode.ascii = .ascii) true twoRecords hitems [77]
    rfl rfl rfl rfl hfiles

end Target

end SaveSet
