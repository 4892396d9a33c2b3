import Mathlib.Data.List.DropRight
import SaveSet.Proofs.Content.Partitions

/-! Records of text as lines. A CR at the end of a record is held back like any other, so it is the next byte
of data that decides about it, and that may stand in another record. -/

namespace SaveSet

namespace LineEnds

def normalized (data : Bytes) : Bytes :=
  let out := ({} : LineEnds).normalize data
  out.2 ++ out.1.finish.2

lemma normalized_eq (data : Bytes) :
    normalized data = (hostText false data).2 ++ if (hostText false data).1 then hostEnd else [] := rfl

def lineEnd (data : Bytes) : Bytes := if data.getLast?.any isEnd then [] else hostEnd

def lines (pending : Bool) : List Bytes → Bool × Bytes
  | [] => (pending, [])
  | r :: rs =>
    let line := hostText pending r
    let rest := lines line.1 rs
    (rest.1, line.2 ++ lineEnd r ++ rest.2)

def allLines (pending : Bool) (rs : List Bytes) : Bytes :=
  (lines pending rs).2 ++ if (lines pending rs).1 then hostEnd else []

/-- Of the CRs at the end of the data every second one is put out, so the last of an odd number is held back. -/
def EndsHeld (data : Bytes) : Prop := (data.rtakeWhile (· == cr)).length % 2 = 1

instance (data : Bytes) : Decidable (EndsHeld data) := inferInstanceAs (Decidable (_ = _))

lemma step_held (pending : Bool) (b : UInt8) : (step pending b).1 = (!pending && b == cr) := by
  rw [step]
  split_ifs with hlf hp hcr
  · rw [hlf, show (lf == cr) = false from rfl, Bool.and_false]
  · rw [hp, Bool.not_true, Bool.false_and]
  · rw [Bool.eq_false_iff.mpr hp, hcr, beq_self_eq_true, Bool.not_false, Bool.and_true]
  · rw [beq_eq_false_iff_ne.mpr hcr, Bool.and_false]

lemma held_snoc (data : Bytes) (b : UInt8) :
    (hostText false (data ++ [b])).1 = (!(hostText false data).1 && b == cr) := by
  rw [hostText_append, hostText_cons, hostText_nil]
  exact step_held _ b

lemma held_iff (data : Bytes) : (hostText false data).1 = true ↔ EndsHeld data := by
  induction data using List.reverseRecOn with
  | nil => exact iff_of_false Bool.false_ne_true (by decide)
  | append_singleton data b ih =>
    rw [held_snoc, Bool.and_eq_true, Bool.not_eq_true', ← Bool.not_eq_true, ih, beq_iff_eq, EndsHeld, EndsHeld,
      List.rtakeWhile_concat]
    by_cases hb : b = cr
    · rw [if_pos (beq_iff_eq.mpr hb), List.length_append, List.length_singleton, and_iff_left hb]
      omega
    · rw [if_neg fun h => hb (beq_iff_eq.mp h)]
      exact iff_of_false (fun h => hb h.2) (by decide)

lemma lineEnd_of_held {data : Bytes} (h : (hostText false data).1 = true) : lineEnd data = [] := by
  induction data using List.reverseRecOn with
  | nil => cases h
  | append_singleton data b =>
    rw [held_snoc, Bool.and_eq_true, beq_iff_eq] at h
    rw [lineEnd, List.getLast?_concat, h.2]
    rfl

lemma allLines_nil (pending : Bool) : allLines pending [] = if pending then hostEnd else [] := rfl

lemma allLines_cons (pending : Bool) (r : Bytes) (rs : List Bytes) :
    allLines pending (r :: rs) = (hostText pending r).2 ++ lineEnd r ++ allLines (hostText pending r).1 rs := by
  rw [allLines, allLines, lines, ← List.append_assoc]

lemma lines_append (pending : Bool) (rs qs : List Bytes) :
    lines pending (rs ++ qs) =
      ((lines (lines pending rs).1 qs).1, (lines pending rs).2 ++ (lines (lines pending rs).1 qs).2) := by
  induction rs generalizing pending with
  | nil => rfl
  | cons r rs ih =>
    rw [List.cons_append, lines, ih, lines]
    simp only [List.append_assoc]

lemma allLines_append (pending : Bool) (rs qs : List Bytes) :
    allLines pending (rs ++ qs) = (lines pending rs).2 ++ allLines (lines pending rs).1 qs := by
  rw [allLines, allLines, lines_append, List.append_assoc]

lemma held_lines (pending : Bool) (rs : List Bytes) : (lines pending rs).1 = (hostText pending rs.flatten).1 := by
  induction rs generalizing pending with
  | nil => rfl
  | cons r rs ih => rw [lines, ih, List.flatten_cons, hostText_append]

lemma allLines_singleton (data : Bytes) : allLines false [data] = normalized data ++ lineEnd data := by
  rw [allLines_cons, allLines_nil, normalized_eq]
  cases hp : (hostText false data).1 with
  | true =>
    rw [lineEnd_of_held hp, List.append_nil, List.append_nil]
  | false =>
    rw [if_neg Bool.false_ne_true, List.append_nil, List.append_nil]

lemma allLines_held_lf (data : Bytes) (rs : List Bytes) :
    allLines true ((lf :: data) :: rs) = allLines false ((lf :: data) :: rs) := rfl

lemma allLines_held_plain {b : UInt8} (h : isEnd b = false) (data : Bytes) (rs : List Bytes) :
    allLines true ((b :: data) :: rs) = hostEnd ++ allLines false ((b :: data) :: rs) := by
  have hlf : ¬ b = lf := fun hb => by rw [hb] at h; cases h
  have hheld : step true b = (false, hostEnd ++ [b]) := if_neg hlf
  rw [allLines_cons, allLines_cons, hostText_cons, hostText_cons, hheld, step_plain h]
  simp only [List.append_assoc]

lemma head_hostText_held {data : Bytes} (h : data ≠ []) : (hostText true data).2.head? = some lf := by
  cases data with
  | nil => exact absurd rfl h
  | cons b bs =>
    have hstep : (step true b).2.head? = some lf := by
      rw [step]
      split <;> rfl
    rw [hostText_cons, List.head?_append, hstep]
    rfl

lemma head_allLines_held (rs : List Bytes) : (allLines true rs).head? = some lf := by
  cases rs with
  | nil => rfl
  | cons r rs =>
    rw [allLines_cons]
    cases r with
    | nil => rfl
    | cons b bs =>
      rw [List.append_assoc, List.head?_append, head_hostText_held (List.cons_ne_nil b bs)]
      rfl

lemma head_allLines_cr (data : Bytes) (rs : List Bytes) :
    (allLines false ((cr :: data) :: rs)).head? = some lf := by
  rw [allLines_cons]
  change ((hostText true data).2 ++ _ ++ allLines (hostText true data).1 rs).head? = _
  by_cases hd : data = []
  · rw [hd]
    exact head_allLines_held rs
  · rw [List.append_assoc, List.head?_append, head_hostText_held hd]
    rfl

lemma allLines_held_iff (rs : List Bytes) :
    allLines true rs = hostEnd ++ allLines false rs ↔ ¬ rs.flatten.head?.any isEnd := by
  induction rs with
  | nil => exact iff_of_true rfl (by decide)
  | cons r rs ih =>
    cases r with
    | nil =>
      rw [allLines_cons, allLines_cons, List.flatten_cons, List.nil_append, ← ih]
      exact List.append_right_inj hostEnd
    | cons b bs =>
      rw [List.flatten_cons, List.cons_append, List.head?_cons, Option.any_some]
      cases hb : isEnd b with
      | false => exact iff_of_true (allLines_held_plain hb bs rs) Bool.false_ne_true
      | true =>
        refine iff_of_false (fun h => ?_) (not_not_intro rfl)
        rw [isEnd, Bool.or_eq_true, beq_iff_eq, beq_iff_eq] at hb
        rcases hb with rfl | rfl
        · -- The second CR is put out as it is.
          obtain ⟨rest, hrest⟩ : ∃ rest, allLines true ((cr :: bs) :: rs) = hostEnd ++ cr :: rest := by
            rw [allLines_cons, hostText_cons]
            exact ⟨_, rfl⟩
          have hhead := congrArg List.head? (List.append_cancel_left (hrest.symm.trans h))
          rw [head_allLines_cr] at hhead
          exact absurd (Option.some.inj hhead) (by decide)
        · -- The two are one line end.
          rw [allLines_held_lf] at h
          simpa [hostEnd] using congrArg List.length h

lemma allLines_join_iff (rs qs : List Bytes) :
    allLines false (rs ++ qs) = allLines false rs ++ allLines false qs ↔
      ¬ (EndsHeld rs.flatten ∧ qs.flatten.head?.any isEnd) := by
  have hrs : allLines false rs = (lines false rs).2 ++ if (lines false rs).1 then hostEnd else [] := rfl
  rw [allLines_append, hrs, List.append_assoc, List.append_right_inj, ← held_iff, ← held_lines]
  cases (lines false rs).1 with
  | true => rw [if_pos rfl, allLines_held_iff, eq_self, true_and]
  | false =>
    rw [if_neg Bool.false_ne_true, List.nil_append]
    exact iff_of_true rfl fun h => Bool.false_ne_true h.1

end LineEnds

open LineEnds

namespace RecordItem

variable {control : Nat}

def line? : RecordItem control → Option Bytes
  | record _ data _ _ _ => some data
  | sentinel => none

lemma flatten_lines (xs : List (RecordItem control)) : (xs.filterMap line?).flatten = xs.flatMap data := by
  induction xs with
  | nil => rfl
  | cons x xs ih =>
    cases x with
    | record area data pad ha hf =>
      rw [List.filterMap_cons_some (f := line?) rfl, List.flatten_cons, ih, List.flatMap_cons]
      rfl
    | sentinel => rw [List.filterMap_cons_none (f := line?) rfl, ih, List.flatMap_cons, data, List.nil_append]

end RecordItem

namespace ByteMachine

open RecordItem

variable {m : ByteMachine} {s : State}

lemma take_record (ht : m.text = true) (area data : Bytes) (pad : UInt8) (ha : area.length = m.control)
    (hf : m.control + data.length < Content.sentinel) :
    (m.take s (.record area data pad ha hf)).pending = (hostText s.pending data).1 ∧
      (m.take s (.record area data pad ha hf)).out = s.out ++ ((hostText s.pending data).2 ++ lineEnd data) := by
  rw [take, stop, put, ht, if_pos rfl, lineEnd]
  cases data.getLast?.any isEnd with
  | true => exact ⟨rfl, congrArg (s.out ++ ·) (List.append_nil _).symm⟩
  | false => exact ⟨rfl, List.append_assoc _ _ _⟩

lemma total_foldl_take (ht : m.text = true) (xs : List (RecordItem m.control)) :
    (xs.foldl m.take s).total = s.out ++ allLines s.pending (xs.filterMap line?) := by
  induction xs generalizing s with
  | nil => rfl
  | cons x xs ih =>
    rw [List.foldl_cons, ih]
    cases x with
    | record area data pad ha hf =>
      obtain ⟨hpending, hout⟩ := take_record (s := s) ht area data pad ha hf
      rw [List.filterMap_cons_some (f := line?) rfl, allLines_cons, hpending, hout]
      simp only [List.append_assoc]
    | sentinel => rfl

end ByteMachine

namespace Target

open Content ByteMachine

variable {σ : Type} [Sink σ] [FileSink σ] {t : Target} {h : Handle} {s : σ} {fs : List OutputFile} {f : OutputFile}

/-- The text that is written for a file of these records, whether the last of them has a pad, wherever its bytes
are cut and whatever stands behind them. -/
def Yields (t : Target) (s : σ) (format : RecordFormat) (xs : List (RecordItem format.controlLength))
    (bytes : Bytes) : Prop :=
  ∀ closed extra payloads, payloads.flatten = RecordItem.stream closed xs ++ extra →
    let content : Content := { size := (RecordItem.stream closed xs).length, format, mode := .ascii }
    Writes { t with content } s payloads bytes

lemma yields_allLines {format : RecordFormat} (hf : format.isVariable = true) (hh : t.handle = some h)
    (ho : FileSink.IsOpen h s) (hfs : FileSink.files s = fs ++ [f]) (xs : List (RecordItem format.controlLength)) :
    t.Yields s format xs (allLines false (xs.filterMap RecordItem.line?)) := by
  intro closed extra payloads hp c
  have hrun := congrArg State.total (run_file (m := c.machine) closed xs rfl extra)
  have htotal : (c.machine.run {} payloads.flatten).total = allLines false (xs.filterMap RecordItem.line?) := by
    rw [hp]
    exact hrun.trans ((total_foldl_take (m := c.machine) (s := {}) rfl xs).trans (List.nil_append _))
  have hstart : Reached { t with content := c } fs f {} ({ t with content := c }, s) :=
    reached_start hf (Or.inr rfl) rfl hh ho hfs
  have hwrites := hstart.writes rfl payloads
  rw [htotal] at hwrites
  exact hwrites

/-- The lines of two files of text one behind the other are those of one file with the records of both, unless a
CR that is held back at the end of the first meets a CR or LF at the start of the second. A record by itself is
its data and a line end. -/
theorem lines_meet_at_a_held_cr {format : RecordFormat} (hf : format.isVariable = true) (hh : t.handle = some h)
    (ho : FileSink.IsOpen h s) (hfs : FileSink.files s = fs ++ [f]) :
    (∀ xs ys : List (RecordItem format.controlLength), ∃ one two both,
      t.Yields s format xs one ∧ t.Yields s format ys two ∧ t.Yields s format (xs ++ ys) both ∧
      (both = one ++ two ↔
        ¬ (EndsHeld (xs.flatMap RecordItem.data) ∧ (ys.flatMap RecordItem.data).head?.any isEnd))) ∧
    ∀ (area data : Bytes) (pad : UInt8) (ha : area.length = format.controlLength)
      (hfits : format.controlLength + data.length < sentinel),
      t.Yields s format [.record area data pad ha hfits] (normalized data ++ lineEnd data) := by
  refine ⟨fun xs ys => ?_, fun area data pad ha hfits => ?_⟩
  · refine ⟨_, _, _, yields_allLines hf hh ho hfs xs, yields_allLines hf hh ho hfs ys,
      yields_allLines hf hh ho hfs (xs ++ ys), ?_⟩
    rw [List.filterMap_append, allLines_join_iff, RecordItem.flatten_lines, RecordItem.flatten_lines]
  · rw [← allLines_singleton]
    exact yields_allLines hf hh ho hfs [.record area data pad ha hfits]

theorem lines_of_records_without_control_areas :
    (∀ xs ys : List (RecordItem RecordFormat.var.controlLength), ∃ one two both,
      openRecords.Yields openedRecords .var xs one ∧ openRecords.Yields openedRecords .var ys two ∧
      openRecords.Yields openedRecords .var (xs ++ ys) both ∧
      (both = one ++ two ↔
        ¬ (EndsHeld (xs.flatMap RecordItem.data) ∧ (ys.flatMap RecordItem.data).head?.any isEnd))) ∧
    ∀ (area data : Bytes) (pad : UInt8) (ha : area.length = RecordFormat.var.controlLength)
      (hfits : RecordFormat.var.controlLength + data.length < sentinel),
      openRecords.Yields openedRecords .var [.record area data pad ha hfits] (normalized data ++ lineEnd data) :=
  lines_meet_at_a_held_cr rfl rfl rfl files_openedRecords

def crLast : RecordItem RecordFormat.var.controlLength := .record [] [97, cr] 0 rfl (by decide)

def lfFirst : RecordItem RecordFormat.var.controlLength := .record [] [lf, 98] 0 rfl (by decide)

theorem cr_and_lf_of_two_records_are_one_line_end :
    openRecords.Yields openedRecords .var [crLast] [97, lf] ∧
      openRecords.Yields openedRecords .var [lfFirst] [lf, 98, lf] ∧
      openRecords.Yields openedRecords .var ([crLast] ++ [lfFirst]) [97, lf, 98, lf] ∧
      ([97, lf, 98, lf] : Bytes) ≠ [97, lf] ++ [lf, 98, lf] :=
  ⟨yields_allLines rfl rfl rfl files_openedRecords [crLast],
    yields_allLines rfl rfl rfl files_openedRecords [lfFirst],
    yields_allLines rfl rfl rfl files_openedRecords ([crLast] ++ [lfFirst]), by decide⟩

end Target

end SaveSet
