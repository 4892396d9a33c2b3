import SaveSet.Proofs.Content.Payloads

/-! Sniffing a file and writing it as binary look at the same bytes: the file is found to be binary if
and only if a byte above seven bits would be written. -/

namespace SaveSet.Content

def asBinary (c : Content) : Content := { c with mode := .binary }

structure Undecided (c : Content) : Prop where
  smart : c.mode = .smart
  unsettled : c.settled = false
  lines : c.lines = {}

def high (bytes : Bytes) : Bool := bytes.any Bytes.isHigh

lemma high_append (xs ys : Bytes) : high (xs ++ ys) = (high xs || high ys) := List.any_append

structure Sniffs {α : Type} (c : Content) (stop : α) (e e' : Emission (Content × α)) : Prop where
  writes_eq : e.writes = []
  plain : high e'.bytes = false →
    Undecided e.value.1 ∧ e.value.1.reset = c.reset ∧ e'.value = (e.value.1.asBinary, e.value.2)
  binary : high e'.bytes = true →
    e.value.1.settled = true ∧ e.value.1.reset = c.asBinary.reset ∧ e.value.2 = stop

variable {α β : Type} {c : Content}

lemma Sniffs.silent {stop a : α} {x : Content} (hx : Undecided x) (hr : x.reset = c.reset) :
    Sniffs c stop (.silent (x, a)) (.silent (x.asBinary, a)) where
  writes_eq := rfl
  plain _ := ⟨hx, hr, rfl⟩
  binary h := absurd h Bool.false_ne_true

lemma asBinary_reset {x : Content} (h : x.reset = c.reset) : x.asBinary.reset = c.asBinary.reset :=
  congrArg asBinary h

lemma Sniffs.of_reset {stop : α} {e e' : Emission (Content × α)} {d : Content} (h : Sniffs d stop e e')
    (hr : d.reset = c.reset) : Sniffs c stop e e' where
  writes_eq := h.writes_eq
  plain hp := ⟨(h.plain hp).1, (h.plain hp).2.1.trans hr, (h.plain hp).2.2⟩
  binary hp := ⟨(h.binary hp).1, (h.binary hp).2.1.trans (asBinary_reset hr), (h.binary hp).2.2⟩

lemma Sniffs.andThen {stop : α} {stop' : β} {e e' : Emission (Content × α)}
    {f f' : Content × α → Emission (Content × β)} (h : Sniffs c stop e e')
    (hf : ∀ x a, Undecided x → x.reset = c.reset → Sniffs x stop' (f (x, a)) (f' (x.asBinary, a)))
    (hstop : ∀ x, x.settled = true → f (x, stop) = .silent (x, stop')) :
    Sniffs c stop' (e.andThen f) (e'.andThen f') := by
  rcases e with ⟨ws, x, a⟩
  obtain rfl : ws = [] := h.writes_eq
  cases hb : high e'.bytes with
  | true =>
    obtain ⟨hs, hr, ha⟩ := h.binary hb
    obtain rfl : a = stop := ha
    refine ⟨?_, fun hp => ?_, fun _ => ?_⟩
    · rw [Emission.andThen, hstop x hs]
      rfl
    · rw [Emission.bytes_andThen, high_append, hb] at hp
      exact absurd hp.symm Bool.false_ne_true
    · rw [Emission.value_andThen, hstop x hs]
      exact ⟨hs, hr, rfl⟩
  | false =>
    obtain ⟨hx, hr, hv⟩ := h.plain hb
    have hnext := hf x a hx hr
    have hbytes : high (e'.andThen f').bytes = high (f' (x.asBinary, a)).bytes := by
      rw [Emission.bytes_andThen, high_append, hb, Bool.false_or, hv]
    refine ⟨hnext.writes_eq, fun hp => ?_, fun hp => ?_⟩
    · obtain ⟨hu, hur, huv⟩ := hnext.plain (hbytes ▸ hp)
      refine ⟨hu, hur.trans hr, ?_⟩
      rw [Emission.value_andThen, hv]
      exact huv
    · obtain ⟨hs, hur, hus⟩ := hnext.binary (hbytes ▸ hp)
      exact ⟨hs, hur.trans (asBinary_reset hr), hus⟩

lemma sniffs_emit (h : Undecided c) (data : Bytes) :
    Sniffs c false (c.emit false data) (c.asBinary.emit true data) := by
  rcases c with ⟨size, format, mode, position, settled, carry, offset, lines⟩
  obtain ⟨rfl, rfl, rfl⟩ := h
  have hb : ∀ (d : Content) (r : Content × Bool), (⟨piece data d, r⟩ : Emission (Content × Bool)).bytes = data :=
    fun d _ => flatMap_piece data d
  refine ⟨rfl, fun hp => ?_, fun hp => ?_⟩
  · have hp' : data.any Bytes.isHigh = false := by simpa [emit, asBinary, hb, high] using hp
    have hundecided : Undecided ⟨size, format, .smart, position, false, carry, offset, {}⟩ := ⟨rfl, rfl, rfl⟩
    simpa [emit, sniff, hp', asBinary] using hundecided
  · have hp' : data.any Bytes.isHigh = true := by simpa [emit, asBinary, hb, high] using hp
    simp [emit, sniff, hp', asBinary, reset]

lemma pad_asBinary (c : Content) (start used : Nat) (rest : Bytes) :
    c.asBinary.pad start used rest = ((c.pad start used rest).1.asBinary, (c.pad start used rest).2) := by
  by_cases h : (start + used) % 2 = 1 ∧ c.position < c.size
  · cases hd : rest.drop used <;> simp [pad, asBinary, h, hd]
  · simp [pad, asBinary, h]

lemma Undecided.pad {x : Content} (h : Undecided x) (start used : Nat) (rest : Bytes) :
    Undecided (x.pad start used rest).1 := by
  rw [Content.pad]
  split
  · split
    · exact ⟨h.smart, h.unsettled, h.lines⟩
    · exact ⟨h.smart, h.unsettled, h.lines⟩
  · exact h

lemma Undecided.of_eq {x y : Content} (h : Undecided x) (hm : y.mode = x.mode)
    (hs : y.settled = x.settled) (hl : y.lines = x.lines) : Undecided y :=
  ⟨hm.trans h.smart, hs.trans h.unsettled, hl.trans h.lines⟩

lemma sniffs_endInFlight (h : Undecided c) (start used : Nat) (rest : Bytes) :
    Sniffs c none (c.endInFlight false start used rest) (c.asBinary.endInFlight true start used rest) := by
  let d : Content := { c with carry := { c.carry with inRecord := false } }
  have hd : Undecided d := h.of_eq rfl rfl rfl
  change Sniffs c none (.silent (d.pad start used rest)) (.silent (d.asBinary.pad start used rest))
  rw [pad_asBinary]
  exact .silent (hd.pad start used rest) ((keeps_pad true d start used rest).reset (Or.inl rfl))

lemma sniffs_countOff (h : Undecided c) (start used : Nat) (rest : Bytes) :
    Sniffs c none (c.countOff false start used rest) (c.asBinary.countOff true start used rest) := by
  let d : Content := { c with
    position := c.position + used, carry := { c.carry with owed := c.carry.owed - used } }
  have hd : Undecided d := h.of_eq rfl rfl rfl
  refine Sniffs.of_reset (d := d) ?_ rfl
  change Sniffs d none (if 0 < d.carry.owed then _ else _) (if 0 < d.carry.owed then _ else _)
  split
  · exact .silent hd rfl
  · exact sniffs_endInFlight hd start used rest

lemma sniffs_resume (h : Undecided c) (start : Nat) (rest : Bytes) :
    Sniffs c none (c.resume false start rest) (c.asBinary.resume true start rest) := by
  by_cases hr : rest ≠ [] ∨ c.carry.owed = 0
  · rw [resume_eq hr, resume_eq (c := c.asBinary) hr]
    refine (sniffs_emit h _).andThen (fun x goesOn hx _ => ?_) fun x _ => rfl
    cases goesOn with
    | true => exact sniffs_countOff hx _ _ _
    | false => exact .silent hx rfl
  · obtain ⟨hn, ho⟩ := not_or.mp hr
    obtain rfl := Classical.not_not.mp hn
    have ho := Nat.pos_of_ne_zero ho
    rw [resume_nil ho, resume_nil (c := c.asBinary) ho]
    exact .silent h rfl

lemma Sniffs.map {stop : α} {stop' : β} {e e' : Emission (Content × α)} (h : Sniffs c stop e e')
    (f : α → β) (hf : f stop = stop') :
    Sniffs c stop' (e.map fun r => (r.1, f r.2)) (e'.map fun r => (r.1, f r.2)) where
  writes_eq := h.writes_eq
  plain hp := by
    obtain ⟨hu, hr, hv⟩ := h.plain hp
    exact ⟨hu, hr, by rw [Emission.value_map, hv]; rfl⟩
  binary hp := by
    obtain ⟨hs, hr, ha⟩ := h.binary hp
    exact ⟨hs, hr, (congrArg f ha).trans hf⟩

lemma sniffs_beginRecord (h : Undecided c) (start : Nat) (rest : Bytes) (word : Nat) :
    Sniffs c none (c.beginRecord false start rest word) (c.asBinary.beginRecord true start rest word) := by
  by_cases hw : word = sentinel
  · rw [hw, beginRecord_sentinel, beginRecord_sentinel]
    exact .silent h rfl
  · rw [beginRecord_eq hw, beginRecord_eq hw, beginData, beginData]
    change Sniffs c none (if rest.length < c.format.controlLength then _ else _)
      (if rest.length < c.format.controlLength then _ else _)
    split
    · exact .silent (x := { c.declare word with position := _, carry := _ }) (h.of_eq rfl rfl rfl) rfl
    · let d : Content := { c.declare word with position := c.position + c.format.controlLength }
      have hd : Undecided d := h.of_eq rfl rfl rfl
      refine Sniffs.of_reset (d := d) ?_ rfl
      exact (sniffs_resume hd (start + c.format.controlLength) (rest.drop c.format.controlLength)).map
        (Option.map (c.format.controlLength + ·)) rfl

def Studies (c : Content) (e e' : Emission Content) : Prop :=
  Sniffs c () (e.map (·, ())) (e'.map (·, ()))

lemma Studies.silent {x : Content} (hx : Undecided x) (hr : x.reset = c.reset) :
    Studies c (.silent x) (.silent x.asBinary) :=
  Sniffs.silent hx hr

lemma Studies.of_reset {e e' : Emission Content} {d : Content} (h : Studies d e e')
    (hr : d.reset = c.reset) : Studies c e e' :=
  Sniffs.of_reset h hr

lemma studies_continueRecords {e e' : Emission (Content × Option Nat)} (h : Sniffs c none e e') (start : Nat)
    (rest : Bytes)
    (hn : ∀ used x, Undecided x → Studies x (x.records false (start + used) (rest.drop used))
      (x.asBinary.records true (start + used) (rest.drop used))) :
    Studies c (continueRecords false start rest e) (continueRecords true start rest e') := by
  let next (writing : Bool) (r : Content × Option Nat) : Emission (Content × Unit) :=
    Emission.map (·, ())
      (r.2.elim (.silent r.1) fun used => records writing r.1 (start + used) (rest.drop used))
  have hnext (writing : Bool) (e : Emission (Content × Option Nat)) :
      Emission.map (·, ()) (continueRecords writing start rest e) = e.andThen (next writing) := by
    rcases e with ⟨writes, x, _ | used⟩
    · rfl
    · rfl
  rw [Studies, hnext, hnext]
  refine h.andThen (fun x used hx _ => ?_) fun x _ => rfl
  cases used with
  | none => exact Studies.silent hx rfl
  | some used => exact hn used x hx

lemma studies_records (h : Undecided c) (start : Nat) (rest : Bytes) :
    Studies c (c.records false start rest) (c.asBinary.records true start rest) := by
  induction rest using Bytes.word_induction generalizing c start with
  | nil =>
    rw [records_nil, records_nil]
    exact .silent h rfl
  | single low =>
    by_cases hp : c.position < c.size
    · rw [records_single hp, records_single (c := c.asBinary) hp]
      exact .silent (x := { c with position := _, carry := _ }) (h.of_eq rfl rfl rfl) rfl
    · have hp := Nat.le_of_not_lt hp
      rw [records_of_le hp, records_of_le (c := c.asBinary) hp]
      exact .silent h rfl
  | word low high rest ih =>
    by_cases hp : c.position < c.size
    · rw [records_cons_cons hp, records_cons_cons (c := c.asBinary) hp]
      have hm : Undecided { c with position := c.position + 2 } := h.of_eq rfl rfl rfl
      have hb := sniffs_beginRecord hm (start + 2) rest (Bytes.toNat [low, high])
      exact (studies_continueRecords hb (start + 2) rest fun used x hx => ih used hx _).of_reset rfl
    · have hp := Nat.le_of_not_lt hp
      rw [records_of_le hp, records_of_le (c := c.asBinary) hp]
      exact .silent h rfl

lemma studies_goOn (h : Undecided c) (start : Nat) (rest : Bytes) :
    Studies c (c.goOn false start rest) (c.asBinary.goOn true start rest) := by
  have hlow : c.asBinary.carry.lowByte = c.carry.lowByte := rfl
  rw [goOn, goOn, hlow]
  cases c.carry.lowByte with
  | some low =>
    cases rest with
    | nil => exact .silent h rfl
    | cons high rest =>
      let d : Content := { c with position := c.position + 1, carry := { c.carry with lowByte := none } }
      have hd : Undecided d := h.of_eq rfl rfl rfl
      have hb := sniffs_beginRecord hd (start + 1) rest (Bytes.toNat [low, high])
      exact (studies_continueRecords hb (start + 1) rest fun used x hx => studies_records hx _ _).of_reset rfl
  | none =>
    change Studies c (if c.carry.inRecord then _ else _) (if c.carry.inRecord then _ else _)
    split
    · exact studies_continueRecords (sniffs_resume h start rest) start rest fun used x hx =>
        studies_records hx _ _
    · exact studies_records h start rest

lemma studies_takeUp (h : Undecided c) (payload : Bytes) :
    Studies c (c.takeUp false payload) (c.asBinary.takeUp true payload) := by
  rw [takeUp_eq, takeUp_eq]
  change Studies c (if payload.length < c.carry.skip then _ else _)
    (if payload.length < c.carry.skip then _ else _)
  split
  · exact .silent (x := c.passOver payload.length) (h.of_eq rfl rfl rfl) rfl
  · have hp : Undecided (c.passOver c.carry.skip) := h.of_eq rfl rfl rfl
    exact (studies_goOn hp _ _).of_reset rfl

lemma bytes_feedRecords (writing : Bool) (c : Content) (payload : Bytes) :
    (c.feedRecords writing payload).bytes = (c.takeUp writing payload).bytes := by
  rw [feedRecords, Emission.bytes, Emission.bytes, List.flatMap_map]

lemma studies_feedRecords (h : Undecided c) (payload : Bytes) :
    Studies c (c.feedRecords false payload) (c.asBinary.feedRecords true payload) := by
  have ht := studies_takeUp h payload
  have hw : (c.takeUp false payload).writes = [] := ht.writes_eq
  have hb : (Emission.map (·, ()) (c.asBinary.feedRecords true payload)).bytes =
      (c.asBinary.takeUp true payload).bytes := bytes_feedRecords true _ payload
  refine ⟨?_, fun hp => ?_, fun hp => ?_⟩
  · rw [feedRecords, Emission.map, hw]
    rfl
  · obtain ⟨hu, hr, hv⟩ := ht.plain (hb ▸ hp)
    refine ⟨hu.of_eq rfl rfl rfl, hr, ?_⟩
    have hv : (c.asBinary.takeUp true payload).value = (c.takeUp false payload).value.asBinary :=
      congrArg Prod.fst hv
    rw [Emission.value_map, feedRecords, hv]
    rfl
  · obtain ⟨hs, hr, -⟩ := ht.binary (hb ▸ hp)
    exact ⟨hs, hr, rfl⟩

lemma studies_copyStream (h : Undecided c) (payload : Bytes) :
    Studies c (c.copyStream false payload) (c.asBinary.copyStream true payload) := by
  have he := sniffs_emit h (payload.take c.remaining)
  refine ⟨he.writes_eq, fun hp => ?_, fun hp => ?_⟩
  · obtain ⟨hu, hr, hv⟩ := he.plain hp
    refine ⟨hu.of_eq rfl rfl rfl, hr, ?_⟩
    have hv : (c.asBinary.emit true (payload.take c.remaining)).value.1 =
        (c.emit false (payload.take c.remaining)).value.1.asBinary := congrArg Prod.fst hv
    have he : (c.asBinary.copyStream true payload).value =
        (c.asBinary.emit true (payload.take c.remaining)).value.1.moved (payload.take c.remaining).length := rfl
    rw [Emission.value_map, he, hv]
    rfl
  · obtain ⟨hs, hr, -⟩ := he.binary hp
    exact ⟨hs, hr, rfl⟩

lemma studies_feed (h : Undecided c) (hf : c.format ≠ .udf) (payload : Bytes) :
    Studies c (c.feed false payload) (c.asBinary.feed true payload) := by
  have hr : ¬ (c.mode = .raw ∨ c.format = .udf) := by
    rw [h.smart]
    simpa using hf
  have hr' : ¬ (c.asBinary.mode = .raw ∨ c.asBinary.format = .udf) := by
    simpa [asBinary] using hf
  rw [feed, feed, if_neg hr, if_neg hr']
  change Studies c (if c.format.isStreamLike then _ else _) (if c.format.isStreamLike then _ else _)
  split
  · exact studies_copyStream h payload
  · change Studies c (if c.format.isVariable then _ else _) (if c.format.isVariable then _ else _)
    split
    · exact studies_feedRecords h payload
    · exact .silent h rfl

lemma absorb_settled (h : c.settled = true) (writing : Bool) (payload : Bytes) :
    c.absorb writing payload = .silent c := by
  rw [absorb, if_pos h]

lemma absorbAll_settled (h : c.settled = true) (writing : Bool) (payloads : List Bytes) :
    absorbAll writing payloads c = .silent c := by
  induction payloads with
  | nil => rfl
  | cons p ps ih =>
    rw [absorbAll, absorb_settled h]
    exact ih

lemma studies_absorbAll (payloads : List Bytes) (h : Undecided c) (hf : c.format ≠ .udf) :
    Studies c (absorbAll false payloads c) (absorbAll true payloads c.asBinary) := by
  induction payloads generalizing c with
  | nil => exact .silent h rfl
  | cons p ps ih =>
    have hfeed : Studies c (c.absorb false p) (c.asBinary.absorb true p) := by
      have hs : ¬ c.settled = true := by simp [h.unsettled]
      rw [absorb, absorb, if_neg hs, if_neg (show ¬ c.asBinary.settled = true from hs)]
      exact studies_feed h hf p
    let next (writing : Bool) (r : Content × Unit) : Emission (Content × Unit) :=
      (absorbAll writing ps r.1).map (·, ())
    change Sniffs c () (((c.absorb false p).map (·, ())).andThen (next false))
      (((c.asBinary.absorb true p).map (·, ())).andThen (next true))
    refine hfeed.andThen (fun x _ hx hr => ?_) fun x hx => ?_
    · have hfx : x.format ≠ .udf := by
        have hxc : x.reset.format = c.reset.format := by rw [hr]
        exact fun hx => hf (hxc.symm.trans hx)
      exact ih hx hfx
    · change Emission.map (·, ()) (absorbAll false ps x) = _
      rw [absorbAll_settled hx]
      rfl

lemma mode_absorbAll (hm : c.mode = .smart) (hf : c.format ≠ .udf) (payloads : List Bytes) :
    (absorbAll false payloads c.reset).value.reset =
      if high (c.reset.asBinary.output payloads) then c.asBinary.reset else c.reset := by
  have h : Undecided c.reset := ⟨hm, rfl, rfl⟩
  have hs := studies_absorbAll payloads h hf
  cases hb : high (absorbAll true payloads c.reset.asBinary).bytes with
  | true =>
    obtain ⟨-, hr, -⟩ := hs.binary hb
    have ho : high (c.reset.asBinary.output payloads) = true := by
      rw [output, Emission.bytes_andThen, high_append, hb, Bool.true_or]
    rw [if_pos ho]
    exact hr
  | false =>
    obtain ⟨hu, hr, hv⟩ := hs.plain hb
    have hv : (absorbAll true payloads c.reset.asBinary).value =
        (absorbAll false payloads c.reset).value.asBinary := congrArg Prod.fst hv
    have hu : Undecided (absorbAll false payloads c.reset).value := hu
    have hfin : ∀ x : Content, Undecided x → x.asBinary.finish.bytes = [] := by
      rintro ⟨size, format, mode, position, settled, carry, offset, lines⟩ ⟨-, -, rfl⟩
      rfl
    have ho : high (c.reset.asBinary.output payloads) = false := by
      rw [output, Emission.bytes_andThen, high_append, hb, hv, hfin _ hu]
      rfl
    rw [if_neg (by rw [ho]; exact Bool.false_ne_true)]
    exact hr

lemma absorbAll_udf (hf : c.format = .udf) (payloads : List Bytes) :
    (absorbAll false payloads c).value.reset = c.reset := by
  induction payloads generalizing c with
  | nil => rfl
  | cons p ps ih =>
    rw [absorbAll, Emission.value_andThen, absorb, feed]
    split
    · exact ih hf
    · rw [if_pos (Or.inr hf)]
      exact ih (c := (c.copyRaw false p).value) hf

end SaveSet.Content
