import Mathlib.Data.List.TakeWhile
import SaveSet.Proofs.Text.Numerals
import SaveSet.Selection.Options

namespace SaveSet

variable {l cs r : List Char} {c : Char}

lemma dropWhile_blank (hl : ∀ c ∈ l, isBlank c = true) (hcs : cs ≠ []) (h : ∀ c ∈ cs, isBlank c = false) :
    (l ++ cs ++ r).dropWhile isBlank = cs ++ r := by
  obtain ⟨c, cs, rfl⟩ := List.exists_cons_of_ne_nil hcs
  rw [List.append_assoc, List.dropWhile_append_of_pos hl, List.cons_append,
    List.dropWhile_cons_of_neg (Bool.eq_false_iff.mp (h c List.mem_cons_self))]

lemma trim_append (hl : ∀ c ∈ l, isBlank c = true) (hr : ∀ c ∈ r, isBlank c = true) (hcs : cs ≠ [])
    (h : ∀ c ∈ cs, isBlank c = false) : trim (l ++ cs ++ r) = cs := by
  have hback : (cs ++ r).reverse.dropWhile isBlank = cs.reverse := by
    have hdrop : (r.reverse ++ cs.reverse ++ []).dropWhile isBlank = cs.reverse ++ [] :=
      dropWhile_blank (fun c hc => hr c (List.mem_reverse.mp hc)) (by simpa using hcs)
        fun c hc => h c (List.mem_reverse.mp hc)
    rwa [List.append_nil, List.append_nil, ← List.reverse_append] at hdrop
  rw [trim, dropWhile_blank hl hcs h, hback, List.reverse_reverse]

lemma exists_trim (cs : List Char) : ∃ l r, cs = l ++ trim cs ++ r ∧ (∀ c ∈ l, isBlank c = true) ∧
    ∀ c ∈ r, isBlank c = true := by
  let rest := cs.dropWhile isBlank
  have hrest : rest = trim cs ++ (rest.reverse.takeWhile isBlank).reverse := by
    rw [trim, ← List.reverse_append, List.takeWhile_append_dropWhile, List.reverse_reverse]
  refine ⟨cs.takeWhile isBlank, (rest.reverse.takeWhile isBlank).reverse, ?_, fun c => List.mem_takeWhile_imp,
    fun c hc => List.mem_takeWhile_imp (List.mem_reverse.mp hc)⟩
  rw [List.append_assoc, ← hrest, List.takeWhile_append_dropWhile]

namespace Numeral

lemma isBlank_of_isDigit (h : isDigit c = true) : isBlank c = false := by
  rw [isDigit, Bool.and_eq_true, decide_eq_true_iff, decide_eq_true_iff, Char.le_def, Char.le_def,
    UInt32.le_iff_toNat_le, UInt32.le_iff_toNat_le] at h
  have hcode : 48 ≤ c.toNat ∧ c.toNat ≤ 57 := h
  simp only [isBlank, blankRanges, List.any_cons, List.any_nil, Bool.or_false, Bool.or_eq_false_iff,
    Bool.and_eq_false_iff, decide_eq_false_iff_not]
  omega

lemma Denotes.not_blank {i : Int} (h : Denotes cs i) : cs ≠ [] ∧ ∀ c ∈ cs, isBlank c = false := by
  cases h with
  | unsigned h => exact ⟨h.nonempty, fun c hc => isBlank_of_isDigit (h.all_digits c hc)⟩
  | positive h | negative h =>
    refine ⟨List.cons_ne_nil _ _, fun c hc => ?_⟩
    obtain rfl | hc := List.mem_cons.mp hc
    · decide
    · exact isBlank_of_isDigit (h.all_digits c hc)

lemma IsNumeral.notMem (h : IsNumeral cs) (hc : isDigit c = false) : c ∉ cs := fun hmem =>
  Bool.false_ne_true (hc.symm.trans (h.all_digits c hmem))

lemma Denotes.semicolon_notMem {i : Int} (h : Denotes cs i) : ';' ∉ cs := by
  have hsemicolon : isDigit ';' = false := by decide
  cases h with
  | unsigned h => exact h.notMem hsemicolon
  | positive h | negative h => exact List.not_mem_cons_of_ne_of_not_mem (by decide) (h.notMem hsemicolon)

end Numeral

namespace Selector

open Numeral

inductive Spells : List Char → Selector → Prop
  | all : Spells ['*'] all
  | exact {cs : List Char} {n : Nat} (h : Denotes cs n) (pos : 0 < n) (le : n ≤ 4294967295) : Spells cs (exact n)
  | relative {cs : List Char} {r : Int} (h : Denotes cs r) (le : r ≤ 0) (ge : -2147483648 ≤ r) :
      Spells cs (relative r)

variable {s : String} {v : Selector} {i : Int}

lemma Spells.not_blank (h : Spells cs v) : cs ≠ [] ∧ ∀ c ∈ cs, isBlank c = false := by
  cases h with
  | all => exact ⟨List.cons_ne_nil _ _, List.forall_mem_singleton.mpr (by decide)⟩
  | exact h | relative h => exact h.not_blank

lemma ofInt?_eq_some_iff : ofInt? i = some v ↔
    (∃ n : Nat, i = n ∧ 0 < n ∧ n ≤ 4294967295 ∧ v = exact n) ∨ i ≤ 0 ∧ -2147483648 ≤ i ∧ v = relative i := by
  rw [ofInt?]
  constructor
  · intro h
    split at h
    · split at h
      · exact .inl ⟨i.toNat, by omega, by omega, by omega, (Option.some.inj h).symm⟩
      · cases h
    · split at h
      · exact .inr ⟨by omega, by omega, (Option.some.inj h).symm⟩
      · cases h
  · rintro (⟨n, rfl, hpos, hle, rfl⟩ | ⟨hle, hge, rfl⟩)
    · rw [if_pos (by omega), if_pos (by omega), Int.toNat_natCast]
    · rw [if_neg (by omega), if_pos (by omega)]

lemma spells_iff : Spells cs v ↔ cs = ['*'] ∧ v = all ∨ ∃ i, Denotes cs i ∧ ofInt? i = some v := by
  simp only [ofInt?_eq_some_iff]
  constructor
  · rintro (_ | ⟨h, hpos, hle⟩ | ⟨h, hle, hge⟩)
    · exact .inl ⟨rfl, rfl⟩
    · exact .inr ⟨_, h, .inl ⟨_, rfl, hpos, hle, rfl⟩⟩
    · exact .inr ⟨_, h, .inr ⟨hle, hge, rfl⟩⟩
  · rintro (⟨rfl, rfl⟩ | ⟨i, h, ⟨n, rfl, hpos, hle, rfl⟩ | ⟨hle, hge, rfl⟩⟩)
    · exact .all
    · exact .exact h hpos hle
    · exact .relative h hle hge

lemma parse_eq_ok_iff_trim : parse s = .ok v ↔ Spells (trim s.toList) v := by
  rw [parse, spells_iff]
  simp only [← readInteger_eq_some_iff, ← Option.bind_eq_some_iff]
  by_cases hstar : trim s.toList = ['*']
  · have hnone : readInteger ['*'] = none := rfl
    simp [hstar, hnone, eq_comm]
  · rw [if_neg hstar]
    cases (readInteger (trim s.toList)).bind ofInt? <;> simp [hstar]

lemma parse_eq_error (h : ∀ v, parse s ≠ .ok v) : parse s = .error (.version (String.ofList (trim s.toList))) := by
  rw [parse] at h ⊢
  split
  · next hstar =>
    exact absurd (if_pos hstar) (h all)
  · next hstar =>
    rw [if_neg hstar] at h
    split
    · next v hv =>
      rw [hv] at h
      exact absurd rfl (h v)
    · rfl

lemma parse_eq_ok_iff : parse s = .ok v ↔ ∃ l cs r, s.toList = l ++ cs ++ r ∧ (∀ c ∈ l, isBlank c = true) ∧
    (∀ c ∈ r, isBlank c = true) ∧ Spells cs v := by
  rw [parse_eq_ok_iff_trim]
  constructor
  · intro h
    obtain ⟨l, r, hs, hl, hr⟩ := exists_trim s.toList
    exact ⟨l, _, r, hs, hl, hr, h⟩
  · rintro ⟨l, cs, r, hs, hl, hr, h⟩
    rwa [hs, trim_append hl hr h.not_blank.1 h.not_blank.2]

lemma spells_text (h : Spells cs v) : Spells v.text.toList v := by
  cases h with
  | all => exact .all
  | exact _ hpos hle => exact .exact (denotes_natural _) hpos hle
  | relative _ hle hge => exact .relative (denotes_integer _) hle hge

lemma parse_text (h : parse s = .ok v) : parse v.text = .ok v := by
  obtain ⟨l, cs, r, -, -, -, hcs⟩ := parse_eq_ok_iff.mp h
  exact parse_eq_ok_iff.mpr ⟨[], _, [], (List.append_nil _).symm, List.forall_mem_nil _, List.forall_mem_nil _,
    spells_text hcs⟩

lemma Spells.semicolon_notMem (h : Spells cs v) : ';' ∉ cs := by
  cases h with
  | all => decide
  | exact h | relative h => exact h.semicolon_notMem

lemma semicolon_notMem_of_parse (h : parse s = .ok v) : ';' ∉ s.toList := by
  obtain ⟨l, cs, r, hs, hl, hr, hcs⟩ := parse_eq_ok_iff.mp h
  rw [hs, List.mem_append, List.mem_append]
  rintro ((hmem | hmem) | hmem)
  · exact absurd (hl ';' hmem) (by decide)
  · exact hcs.semicolon_notMem hmem
  · exact absurd (hr ';' hmem) (by decide)

end Selector

namespace Options

inductive Taken (o : Options) (text : String) : Options → Prop
  | name (h : ';' ∉ text.toList) : Taken o text { o with mask := text }
  | version {name version : String} {v : Selector} (h : text = name ++ ";" ++ version) (hn : ';' ∉ name.toList)
      (hv : Selector.parse version = .ok v) : Taken o text { o with version := v, mask := name }

inductive Refused (text : String) : SelectionError → Prop
  | mask (h : 2 ≤ text.toList.count ';') : Refused text (.mask text)
  | version {name version : String} (h : text = name ++ ";" ++ version) (hn : ';' ∉ name.toList)
      (hv : ';' ∉ version.toList) (he : ∀ v, Selector.parse version ≠ .ok v) :
      Refused text (.version (String.ofList (trim version.toList)))

variable {o o' : Options} {text name version : String}

lemma toList_split (name version : String) :
    (name ++ ";" ++ version).toList = name.toList ++ ';' :: version.toList := by
  rw [String.toList_append, String.toList_append, List.append_assoc]
  rfl

lemma split_cases (text : String) : ';' ∉ text.toList ∨
    (∃ name version, text = name ++ ";" ++ version ∧ ';' ∉ name.toList ∧ ';' ∉ version.toList) ∨
    2 ≤ text.toList.count ';' := by
  by_cases hmem : ';' ∈ text.toList
  · obtain ⟨name, version, htext, hname⟩ := List.eq_append_cons_of_mem hmem
    by_cases hversion : ';' ∈ version
    · have hcount := List.count_pos_iff.mpr hversion
      refine .inr (.inr ?_)
      rw [htext, List.count_append, List.count_cons_self]
      omega
    · refine .inr (.inl ⟨String.ofList name, String.ofList version, ?_, ?_, ?_⟩)
      · apply String.toList_inj.mp
        rw [toList_split, String.toList_ofList, String.toList_ofList, htext]
      · rwa [String.toList_ofList]
      · rwa [String.toList_ofList]
  · exact .inl hmem

lemma takeMask_name (h : ';' ∉ text.toList) (o : Options) :
    (takeMask text).run o = .ok () { o with mask := text } := by
  rw [takeMask, List.splitOn_eq_singleton h]
  dsimp only
  rw [String.ofList_toList]
  rfl

lemma takeMask_version (h : text = name ++ ";" ++ version) (hn : ';' ∉ name.toList) (hv : ';' ∉ version.toList)
    (o : Options) : (takeMask text).run o = match Selector.parse version with
      | .ok v => .ok () { o with version := v, mask := name }
      | .error e => .error e o := by
  rw [takeMask, h, toList_split, List.splitOn_append_cons_self, List.splitOn_eq_singleton hn,
    List.splitOn_eq_singleton hv, List.singleton_append]
  dsimp only
  rw [String.ofList_toList, String.ofList_toList]
  cases Selector.parse version <;> rfl

lemma takeMask_more (h : 2 ≤ text.toList.count ';') (o : Options) :
    (takeMask text).run o = .error (.mask text) o := by
  have hfirst : ';' ∈ text.toList := List.count_pos_iff.mp (by omega)
  obtain ⟨name, rest, htext, hname⟩ := List.eq_append_cons_of_mem hfirst
  rw [htext, List.count_append, List.count_cons_self, List.count_eq_zero_of_not_mem hname] at h
  have hsecond : ';' ∈ rest := List.count_pos_iff.mp (by omega)
  obtain ⟨version, more, hrest, hversion⟩ := List.eq_append_cons_of_mem hsecond
  obtain ⟨piece, pieces, hmore⟩ := List.exists_cons_of_ne_nil (List.splitOn_ne_nil ';' more)
  rw [takeMask, htext, hrest, List.splitOn_append_cons_self, List.splitOn_append_cons_self,
    List.splitOn_eq_singleton hname, List.splitOn_eq_singleton hversion, hmore]
  rfl

lemma Taken.run_eq (h : Taken o text o') : (takeMask text).run o = .ok () o' := by
  cases h with
  | name h => exact takeMask_name h o
  | version h hn hv => rw [takeMask_version h hn (Selector.semicolon_notMem_of_parse hv), hv]

lemma Refused.run_eq {e : SelectionError} (h : Refused text e) (o : Options) :
    (takeMask text).run o = .error e o := by
  cases h with
  | mask h => exact takeMask_more h o
  | version h hn hv he => rw [takeMask_version h hn hv, Selector.parse_eq_error he]

lemma taken_or_refused (o : Options) (text : String) : (∃ o', Taken o text o') ∨ ∃ e, Refused text e := by
  obtain hname | ⟨name, version, htext, hname, hversion⟩ | hmore := split_cases text
  · exact .inl ⟨_, .name hname⟩
  · cases hparse : Selector.parse version with
    | ok v => exact .inl ⟨_, .version htext hname hparse⟩
    | error e => exact .inr ⟨_, .version htext hname hversion fun v hv => by cases hparse.symm.trans hv⟩
  · exact .inr ⟨_, .mask hmore⟩

lemma takeMask_error_iff {e : SelectionError} :
    (takeMask text).run o = .error e o' ↔ o' = o ∧ Refused text e := by
  constructor
  · intro h
    obtain ⟨u, htaken⟩ | ⟨e, hrefused⟩ := taken_or_refused o text
    · cases h.symm.trans htaken.run_eq
    · cases h.symm.trans (hrefused.run_eq o)
      exact ⟨rfl, hrefused⟩
  · rintro ⟨rfl, hrefused⟩
    exact hrefused.run_eq _

lemma takeMask_ok_iff : (takeMask text).run o = .ok () o' ↔ Taken o text o' := by
  refine ⟨fun h => ?_, Taken.run_eq⟩
  obtain ⟨u, htaken⟩ | ⟨e, hrefused⟩ := taken_or_refused o text
  · cases h.symm.trans htaken.run_eq
    exact htaken
  · cases h.symm.trans (hrefused.run_eq o)

lemma Taken.semicolon_notMem (h : Taken o text o') : ';' ∉ o'.mask.toList := by
  cases h with
  | name h => exact h
  | version _ hn _ => exact hn

/-- Exactly the texts of the grammar are read as selectors, and what is written is read back. A mask is taken or
refused, never both: one that is refused leaves all options as they are, and one that is taken is got again by its
text with the version. -/
theorem masks_are_read_back :
    (∀ s v, Selector.parse s = .ok v ↔ ∃ l cs r, s.toList = l ++ cs ++ r ∧ (∀ c ∈ l, isBlank c = true) ∧
      (∀ c ∈ r, isBlank c = true) ∧ Selector.Spells cs v) ∧
    (∀ s v, Selector.parse s = .ok v → Selector.parse v.text = .ok v) ∧
    ∀ (o : Options) (text : String),
      (∀ e o', (takeMask text).run o = .error e o' ↔ o' = o ∧ Refused text e) ∧
      (∀ o', (takeMask text).run o = .ok () o' ↔ Taken o text o') ∧
      ∀ o', (takeMask text).run o = .ok () o' → ';' ∉ o'.mask.toList ∧
        ∀ s, Selector.parse s = .ok o'.version →
          (takeMask (o'.mask ++ ";" ++ o'.version.text)).run o' = .ok () o' := by
  refine ⟨fun s v => Selector.parse_eq_ok_iff, fun s v => Selector.parse_text, fun o text =>
    ⟨fun e o' => takeMask_error_iff, fun o' => takeMask_ok_iff, fun o' h => ?_⟩⟩
  have hmask := (takeMask_ok_iff.mp h).semicolon_notMem
  refine ⟨hmask, fun s hs => takeMask_ok_iff.mpr ?_⟩
  exact .version (o := o') rfl hmask (Selector.parse_text hs)

theorem version_with_sign_and_zeros_is_read_back :
    Selector.parse " +007" = .ok (.exact 7) ∧ Selector.parse "7" = .ok (.exact 7) ∧
    (takeMask "A.*; +007").run {} = .ok () { mask := "A.*", version := .exact 7 } ∧
    (takeMask "A.*;7").run { mask := "A.*", version := .exact 7 } = .ok () { mask := "A.*", version := .exact 7 } := by
  obtain ⟨-, hagain, hmask⟩ := masks_are_read_back
  have hparse : Selector.parse " +007" = .ok (.exact 7) := by decide
  have htaken : (takeMask "A.*; +007").run {} = .ok () { mask := "A.*", version := .exact 7 } := by rfl
  have htext : (Selector.exact 7).text = "7" := Numeral.natural_eq_toString 7
  have hseven := hagain _ _ hparse
  have hsame := ((hmask {} "A.*; +007").2.2 _ htaken).2 _ hparse
  rw [htext] at hseven hsame
  exact ⟨hparse, hseven, htaken, hsame⟩

end Options

end SaveSet
