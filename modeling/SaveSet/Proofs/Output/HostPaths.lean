import Mathlib.Data.List.Basic
import SaveSet.Output.Folder

namespace SaveSet

namespace Name

lemma brackets?_eq {spec : String} {before inner rest : List Char}
    (hspec : spec.toList = before ++ '[' :: (inner ++ ']' :: rest)) (hopen : '[' ∉ before)
    (hclose : ']' ∉ before) (hinner : ']' ∉ inner) : brackets? spec = some (inner, rest) := by
  have hsplit : spec.toList = (before ++ '[' :: inner) ++ ']' :: rest := by
    rw [hspec, List.append_assoc, List.cons_append]
  have hopening : spec.toList.idxOf '[' = before.length := by
    rw [hspec, List.idxOf_append_of_notMem hopen, List.idxOf_cons_self, Nat.add_zero]
  have hclosing : spec.toList.idxOf ']' = (before ++ '[' :: inner).length := by
    have hnot : ']' ∉ before ++ '[' :: inner := by simp [hclose, hinner]
    rw [hsplit, List.idxOf_append_of_notMem hnot, List.idxOf_cons_self, Nat.add_zero]
  have horder : before.length < (before ++ '[' :: inner).length ∧
      (before ++ '[' :: inner).length < spec.toList.length := by
    rw [hsplit]
    simp
  have hinside : (before ++ '[' :: inner).drop (before.length + 1) = inner := by
    rw [List.drop_length_add_append]
    rfl
  have hafter : ((before ++ '[' :: inner) ++ ']' :: rest).drop ((before ++ '[' :: inner).length + 1) = rest := by
    rw [List.drop_length_add_append]
    rfl
  simp only [brackets?, hopening, hclosing]
  rw [if_pos horder, hsplit, List.take_left, hinside, hafter]

lemma directories_eq {spec : String} {before inner rest : List Char}
    (hspec : spec.toList = before ++ '[' :: (inner ++ ']' :: rest)) (hopen : '[' ∉ before)
    (hclose : ']' ∉ before) (hinner : ']' ∉ inner) :
    (directories spec).map String.toList = (inner.splitOn '.').filter (· ≠ []) := by
  rw [directories, brackets?_eq hspec hopen hclose hinner]
  simp [Function.comp_def]

structure IsComponent (c : String) : Prop where
  nonempty : c ≠ ""
  harmless : ∀ ch ∈ c.toList, isHarmless ch = true
  named : ∃ ch ∈ c.toList, ch ≠ '.'

lemma isComponent_ofList {cs : List Char} (harmless : ∀ ch ∈ cs, isHarmless ch = true)
    (named : ∃ ch ∈ cs, ch ≠ '.') : IsComponent (String.ofList cs) where
  nonempty h := by
    obtain ⟨ch, hch, -⟩ := named
    rw [String.ofList_eq_empty_iff.mp h] at hch
    exact List.not_mem_nil hch
  harmless := by simpa using harmless
  named := by simpa using named

def cleaned (cs : List Char) : List Char := cs.map fun ch => if isHarmless ch then ch else '_'

lemma isHarmless_of_mem_cleaned {cs : List Char} {ch : Char} (h : ch ∈ cleaned cs) : isHarmless ch = true := by
  obtain ⟨x, -, rfl⟩ := List.mem_map.mp h
  split
  · assumption
  · decide

lemma cleaned_eq_self {cs : List Char} (h : ∀ ch ∈ cs, isHarmless ch = true) : cleaned cs = cs := by
  rw [cleaned, List.map_congr_left fun ch hch => if_pos (h ch hch), List.map_id']

lemma isComponent_sanitize (component : String) : IsComponent (sanitize component) := by
  change IsComponent (if (cleaned component.toList).all (· == '.') then _ else String.ofList (cleaned component.toList))
  split
  case isTrue =>
    apply isComponent_ofList
    · intro ch hch
      rw [List.eq_of_mem_replicate hch]
      decide
    · exact ⟨'_', by simp, by decide⟩
  case isFalse hdots =>
    apply isComponent_ofList
    · intro ch hch
      exact isHarmless_of_mem_cleaned hch
    · simpa using hdots

lemma sanitize_eq_self {c : String} (h : IsComponent c) : sanitize c = c := by
  have hnamed : (cleaned c.toList).all (· == '.') = false := by
    rw [cleaned_eq_self h.harmless]
    simpa using h.named
  change (if (cleaned c.toList).all (· == '.') then _ else String.ofList (cleaned c.toList)) = c
  rw [hnamed, if_neg Bool.false_ne_true, cleaned_eq_self h.harmless, String.ofList_toList]

lemma isComponent_of_mem {style : PathStyle} {spec c : String} (h : c ∈ components style spec) :
    IsComponent c := by
  rcases List.mem_append.mp h with hdirectory | hfile
  · split at hdirectory
    · obtain ⟨d, -, rfl⟩ := List.mem_map.mp hdirectory
      exact isComponent_sanitize d
    · exact absurd hdirectory List.not_mem_nil
  · rw [List.mem_singleton.mp hfile]
    exact isComponent_sanitize _

namespace IsComponent

variable {c : String}

lemma toList_ne_nil (h : IsComponent c) : c.toList ≠ [] := fun hnil => h.nonempty (String.toList_eq_nil_iff.mp hnil)

lemma not_slash_mem (h : IsComponent c) : '/' ∉ c.toList := by
  intro hmem
  exact absurd (h.harmless '/' hmem) (by decide)

lemma ne_of_dots (h : IsComponent c) {s : String} (hs : ∀ ch ∈ s.toList, ch = '.') : c ≠ s := by
  rintro rfl
  obtain ⟨ch, hch, hne⟩ := h.named
  exact hne (hs ch hch)

end IsComponent

def asFolder (path : String) : String := if path.isEmpty || path.endsWith '/' then path else path ++ "/"

lemma join_component {c : String} (h : IsComponent c) (path : String) : join path c = asFolder path ++ c := by
  have hslash : c.startsWith '/' = false := by
    rw [String.startsWith_char_eq_head?, beq_eq_false_iff_ne]
    exact fun hhead => h.not_slash_mem (List.mem_of_head? hhead)
  rw [join, hslash, if_neg Bool.false_ne_true, asFolder]
  split <;> rfl

lemma asFolder_below {c : String} (h : IsComponent c) (path : String) : asFolder (path ++ c) = path ++ c ++ "/" := by
  have hlast : (path ++ c).toList.getLast? = c.toList.getLast? := by
    rw [String.toList_append, List.getLast?_append, List.getLast?_eq_some_getLast h.toList_ne_nil, Option.some_or]
  have hslash : (path ++ c).endsWith '/' = false := by
    rw [String.endsWith_char_eq_getLast?, hlast, beq_eq_false_iff_ne]
    exact fun hmem => h.not_slash_mem (List.mem_of_getLast? hmem)
  have hempty : (path ++ c).isEmpty = false := by
    rw [Bool.eq_false_iff, ne_eq, String.isEmpty_iff, String.append_eq_empty_iff]
    exact fun hboth => h.nonempty hboth.2
  rw [asFolder, hslash, hempty]
  rfl

lemma foldl_join {cs : List String} (hne : cs ≠ []) (hcs : ∀ c ∈ cs, IsComponent c) (path : String) :
    cs.foldl join path = asFolder path ++ "/".intercalate cs := by
  induction cs generalizing path with
  | nil => exact absurd rfl hne
  | cons c cs ih =>
    have hc : IsComponent c := hcs c List.mem_cons_self
    rw [List.foldl_cons, join_component hc]
    cases cs with
    | nil => rw [List.foldl_nil, String.intercalate_singleton]
    | cons d ds =>
      rw [ih (List.cons_ne_nil d ds) fun x hx => hcs x (List.mem_cons_of_mem c hx), asFolder_below hc,
        String.intercalate_cons_cons]
      simp only [String.append_assoc]

end Name

namespace HostTree

open Name

def named (path : List Char) : List String :=
  ((path.splitOn '/').map String.ofList).filter fun n => n != "" && n != "."

lemma names_eq (path : String) :
    names path = (if path.toList.head? = some '/' then ["/"] else []) ++ named path.toList := by
  have hstart : path.startsWith "/" = true ↔ path.toList.head? = some '/' := by
    rw [String.startsWith_string_iff]
    cases path.toList <;> simp [eq_comm]
  rw [names, named]
  simp only [hstart]

lemma named_append (path below : List Char) : named (path ++ '/' :: below) = named path ++ named below := by
  rw [named, List.splitOn_append_cons_self, List.map_append, List.filter_append, named, named]

lemma named_nil : named [] = [] := rfl

lemma named_component {c : String} (h : IsComponent c) : named c.toList = [c] := by
  have hdot : c ≠ "." := h.ne_of_dots (by simp)
  rw [named, List.splitOn_eq_singleton h.not_slash_mem, List.map_singleton, String.ofList_toList, List.filter_eq_self]
  simp [h.nonempty, hdot]

lemma asFolder_ends {path : String} (hne : path ≠ "") :
    ∃ cs, (asFolder path).toList = cs ++ ['/'] ∧ named path.toList = named cs ∧
      path.toList.head? = (asFolder path).toList.head? := by
  rw [asFolder]
  split
  case isTrue hslash =>
    obtain ⟨cs, hcs⟩ : ∃ cs, path.toList = cs ++ ['/'] := by
      simpa [hne, String.endsWith_char_eq_getLast?, List.getLast?_eq_some_iff] using hslash
    refine ⟨cs, hcs, ?_, rfl⟩
    rw [hcs, named_append, named_nil, List.append_nil]
  case isFalse =>
    refine ⟨path.toList, String.toList_append, rfl, ?_⟩
    obtain ⟨x, xs, hx⟩ := List.exists_cons_of_ne_nil fun hnil => hne (String.toList_eq_nil_iff.mp hnil)
    rw [String.toList_append, hx, List.cons_append, List.head?_cons, List.head?_cons]

lemma names_join {c : String} (h : IsComponent c) (path : String) : names (join path c) = names path ++ [c] := by
  rw [join_component h]
  by_cases hne : path = ""
  · have hhead : c.toList.head? ≠ some '/' := fun hhead => h.not_slash_mem (List.mem_of_head? hhead)
    have hempty : asFolder path ++ c = c := by rw [hne, asFolder]; exact String.empty_append
    rw [hempty, hne, names_eq, if_neg hhead, named_component h]
    rfl
  · obtain ⟨cs, hcs, hnamed, hhead⟩ := asFolder_ends hne
    have hstart : (cs ++ '/' :: c.toList).head? = path.toList.head? := by
      rw [hhead, hcs]
      cases cs <;> rfl
    rw [names_eq, names_eq path, String.toList_append, hcs, List.append_assoc, List.singleton_append, hstart,
      named_append, named_component h, hnamed, List.append_assoc]

lemma names_foldl_join {cs : List String} (hcs : ∀ c ∈ cs, IsComponent c) (path : String) :
    names (cs.foldl join path) = names path ++ cs := by
  induction cs generalizing path with
  | nil => exact (List.append_nil _).symm
  | cons c cs ih =>
    rw [List.foldl_cons, ih fun x hx => hcs x (List.mem_cons_of_mem c hx), names_join (hcs c List.mem_cons_self),
      List.append_assoc, List.singleton_append]

end HostTree

end SaveSet
