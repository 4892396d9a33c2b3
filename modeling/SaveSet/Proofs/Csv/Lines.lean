import SaveSet.Listing
import SaveSet.Proofs.Csv.Reader

namespace SaveSet

open Csv

def IsPlain (s : String) : Prop := ∀ c ∈ s.toList, c ∉ special

instance (s : String) : Decidable (IsPlain s) := List.decidableBAll (fun c => c ∉ special) s.toList

namespace IsPlain

variable {s t : String}

lemma append (hs : IsPlain s) (ht : IsPlain t) : IsPlain (s ++ t) := by
  rw [IsPlain, String.toList_append]
  exact List.forall_mem_append.mpr ⟨hs, ht⟩

lemma spells (h : IsPlain s) : Spells s.toList s.toList := .plain h

lemma not_quote_mem (h : IsPlain s) : '"' ∉ s.toList := fun hmem => h '"' hmem (by decide)

lemma digit : ∀ d < 10, Numeral.digit d ∉ special := by decide

lemma digits {base : Nat} (hbase : 1 < base) (hten : base ≤ 10) (n : Nat) :
    ∀ c ∈ Numeral.digits base n, c ∉ special := by
  fun_induction Numeral.digits base n with
  | case1 n _ ih =>
    refine List.forall_mem_append.mpr ⟨ih, ?_⟩
    intro c hc
    rw [List.mem_singleton.mp hc]
    exact digit _ (Nat.lt_of_lt_of_le (Nat.mod_lt n (Nat.zero_lt_of_lt hbase)) hten)
  | case2 n h =>
    intro c hc
    rw [List.mem_singleton.mp hc]
    exact digit n (by omega)

lemma natural (n : Nat) : IsPlain (Numeral.natural n) := by
  rw [IsPlain, Numeral.natural, String.toList_ofList]
  exact digits (by decide) (by decide) n

lemma integer (i : Int) : IsPlain (Numeral.integer i) := by
  rw [Numeral.integer]
  split
  · exact append (by decide) (natural _)
  · exact natural _

lemma padLeft (width : Nat) {c : Char} (hc : c ∉ special) (hs : IsPlain s) : IsPlain (Numeral.padLeft width c s) := by
  rw [IsPlain, Numeral.padLeft, String.toList_ofList, List.leftpad]
  refine List.forall_mem_append.mpr ⟨fun x hx => ?_, hs⟩
  rw [List.eq_of_mem_replicate hx]
  exact hc

lemma octal (n : Nat) : IsPlain (Listing.octal n) := by
  apply padLeft 6 (by decide)
  rw [IsPlain, String.toList_ofList]
  exact digits (by decide) (by decide) n

lemma twoDigits (n : Nat) : IsPlain (Stamp.twoDigits n) := padLeft 2 (by decide) (natural n)

lemma monthName (i : Nat) : IsPlain (Stamp.monthNames.getD i "") := by
  have hnames : ∀ name ∈ Stamp.monthNames, IsPlain name := by decide
  rw [List.getD_eq_getElem?_getD]
  cases h : Stamp.monthNames[i]? with
  | none => exact (by decide : IsPlain "")
  | some name => exact hnames name (List.mem_of_getElem? h)

lemma dateText (d : Date) : IsPlain (Stamp.dateText d) :=
  ((((natural d.day).append (by decide)).append (monthName _)).append (by decide)).append (integer d.year)

lemma clockText (second : Nat) : IsPlain (Stamp.clockText second) :=
  ((((twoDigits _).append (by decide)).append (twoDigits _)).append (by decide)).append (twoDigits _)

lemma fractionText (t : Stamp) (digits : Nat) : IsPlain (t.fractionText digits) := padLeft _ (by decide) (natural _)

lemma format (t : Stamp) (digits : Nat) : IsPlain (t.format digits) := by
  rw [Stamp.format]
  split
  · split
    · exact (by decide : IsPlain "<Invalid Date>")
    · have htext (d : Date) (second : Nat) : IsPlain (Stamp.dateText d ++ " " ++ Stamp.clockText second) :=
        ((dateText d).append (by decide)).append (clockText second)
      dsimp only
      split
      · exact htext _ _
      · exact ((htext _ _).append (by decide)).append (fractionText t digits)
  · exact (by decide : IsPlain "<None Specified>")

lemma accessText (nibble : Nat) : IsPlain (Listing.accessText nibble) := by
  have hletters : ∀ a ∈ [('R', 0), ('W', 1), ('E', 2), ('D', 3)], a.1 ∉ special := by decide
  rw [IsPlain, Listing.accessText, String.toList_ofList]
  intro c hc
  obtain ⟨a, ha, rfl⟩ := List.mem_map.mp hc
  exact hletters a (List.mem_of_mem_filter ha)

lemma carriageControlText (n : Nat) : IsPlain (Listing.carriageControlText n) := by
  rw [Listing.carriageControlText.eq_def]
  split
  case h_6 => exact append (by decide) (natural n)
  all_goals decide

lemma organizationText (f : RecordFlags) : IsPlain (Listing.organizationText f) := by
  rw [Listing.organizationText]
  split <;> decide

end IsPlain

namespace Listing

lemma not_quote_mem_formatText (format : RecordFormat) (recordSize : Nat) :
    '"' ∉ (formatText format recordSize).toList := by
  have hmaximum {name : String} (hname : '"' ∉ name.toList) :
      '"' ∉ (if recordSize = 0 then name else name ++ ", maximum " ++ Numeral.natural recordSize ++ " bytes").toList := by
    split
    · exact hname
    · simp [hname, (IsPlain.natural recordSize).not_quote_mem]
  cases format with
  | var | vfc | stm | stmLf | stmCr => exact hmaximum (by decide)
  | fix =>
    rw [formatText]
    decide
  | udf | unknown => exact List.not_mem_nil

def csvValues (e : Listed) : List String :=
  let a := e.attributes
  let r := a.recordAttributes
  [a.filename, Numeral.natural r.usedBlocks, Numeral.natural a.allocatedBlocks, a.created.format 7, group a, member a,
    a.revised.format 7, Numeral.natural a.revision, Numeral.natural (fid a 0), Numeral.natural (fid a 1),
    Numeral.natural (fid a 2), a.expires.format 7, a.backedUp.format 7, access a 0, access a 1, access a 2, access a 3,
    organizationText e.flags, Numeral.natural a.allocatedBlocks, "0", "0",
    if contiguousBestTry a then "Contiguous best try" else "", formatText r.format r.recordSize,
    carriageControlText r.carriageControl]

lemma spells_quoted {s : String} (h : '"' ∉ s.toList) : Spells (quoted s).toList s.toList := by
  have hquoted : (quoted s).toList = '"' :: (doubled s.toList ++ ['"']) := by
    rw [doubled_eq_self h, quoted, String.toList_append, String.toList_append]
    rfl
  rw [hquoted]
  exact .quoted s.toList

lemma spells_csvFields {e : Listed} (h : '"' ∉ e.attributes.filename.toList) :
    List.Forall₂ Spells ((csvFields e).map String.toList) ((csvValues e).map String.toList) := by
  have hname := spells_quoted h
  have hnumber (n : Nat) := (IsPlain.natural n).spells
  have hgroup := (IsPlain.octal (e.attributes.uic.getD 1 0)).spells
  have hmember := (IsPlain.octal (e.attributes.uic.getD 0 0)).spells
  have hdate (t : Stamp) := spells_quoted (IsPlain.format t 7).not_quote_mem
  have haccess (i : Nat) : Spells (quoted (access e.attributes i)).toList (access e.attributes i).toList :=
    spells_quoted (IsPlain.accessText _).not_quote_mem
  have hzero := (by decide : IsPlain "0").spells
  have hbest : IsPlain (if contiguousBestTry e.attributes then "Contiguous best try" else "") := by
    split <;> decide
  have hformat (f : RecordFormat) (n : Nat) := spells_quoted (not_quote_mem_formatText f n)
  have hcontrol (n : Nat) := spells_quoted (IsPlain.carriageControlText n).not_quote_mem
  simp only [csvFields, csvValues, List.map_cons, List.map_nil, List.forall₂_cons, List.Forall₂.nil, and_true,
    hname, hnumber, hdate, haccess, hzero, hformat, hcontrol, hbest.spells,
    (IsPlain.organizationText e.flags).spells, group, member, hgroup, hmember]

lemma csvFields_start (e : Listed) : ∃ rest,
    (",".intercalate (csvFields e)).toList = '"' :: (e.attributes.filename.toList ++ '"' :: ',' :: rest) := by
  obtain ⟨second, more, hfields⟩ : ∃ second more, csvFields e = quoted e.attributes.filename :: second :: more :=
    ⟨_, _, rfl⟩
  refine ⟨(",".intercalate (second :: more)).toList, ?_⟩
  rw [hfields, String.intercalate_cons_cons]
  simp [quoted]

/-- A line is a record of 24 values, the name first, if there are no quotes in the name. Otherwise, whatever is read
of it, the name does not come first. -/
theorem lines_are_records_unless_names_have_quotes (e : Listed) :
    ∃ record, csv e = record ++ "\n" ∧ (csvValues e).length = 24 ∧
      (csvValues e).head? = some e.attributes.filename ∧
      ('"' ∉ e.attributes.filename.toList → Csv.read record = some (csvValues e)) ∧
      ('"' ∈ e.attributes.filename.toList → ∀ values, Csv.read record = some values →
        values.head? ≠ some e.attributes.filename) := by
  have hrecord : (",".intercalate (csvFields e)).toList = [','].intercalate ((csvFields e).map String.toList) := by
    rw [String.toList_intercalate]
    rfl
  refine ⟨",".intercalate (csvFields e), rfl, rfl, rfl, fun h => ?_, fun h values hread hhead => ?_⟩
  · exact read_eq_some_iff.mpr ⟨_, ⟨List.cons_ne_nil _ _, spells_csvFields h⟩, hrecord⟩
  · obtain ⟨texts, htexts, heq⟩ := read_eq_some_iff.mp hread
    obtain ⟨more, rfl⟩ : ∃ more, values = e.attributes.filename :: more := List.head?_eq_some_iff.mp hhead
    obtain ⟨rest, hstart⟩ := csvFields_start e
    exact not_mem_of_first htexts (hstart.symm.trans heq) h

def commaFile : Listed :=
  ⟨(FileAttributes.empty.put .filename [65, 44, 66]).put .recordAttributes [2, 2, 80, 0], ⟨0⟩⟩

def quoteFile : Listed := ⟨FileAttributes.empty.put .filename [65, 34, 66], ⟨0⟩⟩

theorem commas_in_names_are_kept :
    (∃ record, csv commaFile = record ++ "\n" ∧ Csv.read record = some (csvValues commaFile)) ∧
      ∃ record, csv quoteFile = record ++ "\n" ∧
        ∀ values, Csv.read record = some values → values.head? ≠ some quoteFile.attributes.filename := by
  obtain ⟨record, hcsv, -, -, hread, -⟩ := lines_are_records_unless_names_have_quotes commaFile
  obtain ⟨record', hcsv', -, -, -, hspoilt⟩ := lines_are_records_unless_names_have_quotes quoteFile
  exact ⟨⟨record, hcsv, hread (by decide +kernel)⟩, record', hcsv', hspoilt (by decide +kernel)⟩

theorem a_quote_in_the_name_spoils_the_line :
    ¬ ∀ e : Listed, ∃ record values, csv e = record ++ "\n" ∧ Csv.read record = some values ∧
      values.length = 24 ∧ values.head? = some e.attributes.filename := by
  intro h
  obtain ⟨record, values, hcsv, hread, -, -⟩ := h quoteFile
  have hrecord : record = ",".intercalate (csvFields quoteFile) :=
    (String.append_left_inj "\n").mp hcsv.symm
  have hnone : Csv.read (",".intercalate (csvFields quoteFile)) = none := by decide +kernel
  rw [hrecord, hnone] at hread
  exact nomatch hread

end Listing

end SaveSet
