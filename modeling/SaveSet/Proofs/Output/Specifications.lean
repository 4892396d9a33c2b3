import SaveSet.Proofs.Output.Folder

namespace SaveSet

lemma mem_intercalate {α : Type} {x sep : α} {ls : List (List α)} (h : x ∈ [sep].intercalate ls) :
    x = sep ∨ ∃ l ∈ ls, x ∈ l := by
  induction ls with
  | nil => exact absurd h List.not_mem_nil
  | cons l ls ih =>
    cases ls with
    | nil =>
      rw [List.intercalate_singleton] at h
      exact .inr ⟨l, List.mem_cons_self, h⟩
    | cons k ks =>
      rw [List.intercalate_cons_cons, List.mem_append, List.mem_append, List.mem_singleton] at h
      obtain (hl | hsep) | hrest := h
      · exact .inr ⟨l, List.mem_cons_self, hl⟩
      · exact .inl hsep
      · obtain hsep | ⟨k', hk', hx⟩ := ih hrest
        · exact .inl hsep
        · exact .inr ⟨k', List.mem_cons_of_mem l hk', hx⟩

namespace Name

structure PlainSpec where
  directories : List String
  file : String
  hasDirectory : directories ≠ []
  isDirectory : ∀ d ∈ directories, d ≠ "" ∧ ∀ ch ∈ d.toList, isHarmless ch = true ∧ ch ≠ '.'
  isFile : IsComponent file

namespace PlainSpec

variable {s t : PlainSpec} {d : String}

def text (s : PlainSpec) : String := "[" ++ ".".intercalate s.directories ++ "]" ++ s.file

def names (s : PlainSpec) : List String := s.directories ++ [s.file]

lemma isComponent_directory (s : PlainSpec) (h : d ∈ s.directories) : IsComponent d where
  nonempty := (s.isDirectory d h).1
  harmless ch hch := ((s.isDirectory d h).2 ch hch).1
  named := by
    obtain ⟨ch, chs, hd⟩ :=
      List.exists_cons_of_ne_nil fun hnil => (s.isDirectory d h).1 (String.toList_eq_nil_iff.mp hnil)
    have hch : ch ∈ d.toList := hd ▸ List.mem_cons_self
    exact ⟨ch, hch, ((s.isDirectory d h).2 ch hch).2⟩

lemma brackets?_text (s : PlainSpec) :
    brackets? s.text = some (['.'].intercalate (s.directories.map String.toList), s.file.toList) := by
  have htext : s.text.toList =
      [] ++ '[' :: (['.'].intercalate (s.directories.map String.toList) ++ ']' :: s.file.toList) := by
    rw [text]
    simp [String.toList_intercalate]
  apply brackets?_eq htext
  · exact List.not_mem_nil
  · exact List.not_mem_nil
  · intro hmem
    obtain hdot | ⟨l, hl, hclose⟩ := mem_intercalate hmem
    · exact absurd hdot (by decide)
    · obtain ⟨d, hd, rfl⟩ := List.mem_map.mp hl
      exact absurd ((s.isDirectory d hd).2 ']' hclose).1 (by decide)

lemma directories_text (s : PlainSpec) : Name.directories s.text = s.directories := by
  have hsplit : (['.'].intercalate (s.directories.map String.toList)).splitOn '.' = s.directories.map String.toList := by
    apply List.splitOn_intercalate
    · rintro _ hl
      obtain ⟨d, hd, rfl⟩ := List.mem_map.mp hl
      exact fun hdot => ((s.isDirectory d hd).2 '.' hdot).2 rfl
    · exact fun hnil => s.hasDirectory (List.map_eq_nil_iff.mp hnil)
  have hkept : (s.directories.map String.toList).filter (· ≠ []) = s.directories.map String.toList := by
    rw [List.filter_eq_self]
    rintro _ hl
    obtain ⟨d, hd, rfl⟩ := List.mem_map.mp hl
    simpa using (s.isDirectory d hd).1
  rw [Name.directories, brackets?_text]
  dsimp only
  rw [hsplit, hkept, List.map_map]
  simp [Function.comp_def]

lemma components_text (s : PlainSpec) : components ⟨true, true⟩ s.text = s.names := by
  have hdirectories : s.directories.map sanitize = s.directories := by
    rw [List.map_congr_left fun d hd => sanitize_eq_self (s.isComponent_directory hd), List.map_id']
  have hfile : filePart s.text = s.file := by
    rw [filePart, brackets?_text]
    exact String.ofList_toList
  rw [components, names]
  dsimp only
  rw [if_pos rfl, if_pos rfl, directories_text, hdirectories, hfile, sanitize_eq_self s.isFile]

lemma names_ne_nil (s : PlainSpec) : s.names ≠ [] := List.concat_ne_nil _ _

lemma isComponent (s : PlainSpec) : ∀ c ∈ s.names, IsComponent c := by
  intro c hc
  obtain hdirectory | hfile := List.mem_append.mp hc
  · exact s.isComponent_directory hdirectory
  · exact List.mem_singleton.mp hfile ▸ s.isFile

lemma names_inj (h : s.names = t.names) : s = t := by
  obtain ⟨hdirectories, hfile⟩ := List.append_inj' h rfl
  rw [List.singleton_inj] at hfile
  cases s
  cases t
  congr

end PlainSpec

/-- Plain specifications keep all their names on the host, and no two of them meet there. -/
theorem plain_specifications_keep_apart (root : String) (s t : PlainSpec) :
    hostPath root ⟨true, true⟩ s.text = asFolder root ++ "/".intercalate s.names ∧
      HostTree.names (hostPath root ⟨true, true⟩ s.text) = HostTree.names root ++ s.names ∧
      (s.text ≠ t.text → hostPath root ⟨true, true⟩ s.text ≠ hostPath root ⟨true, true⟩ t.text ∧
        HostTree.names (hostPath root ⟨true, true⟩ s.text) ≠ HostTree.names (hostPath root ⟨true, true⟩ t.text)) ∧
      ∀ x y : FolderSink, x.root = y.root → x.style = ⟨true, true⟩ → y.style = ⟨true, true⟩ →
        ∀ file, (x.place s.text).1 = .ok file → (y.place t.text).1 = .ok file → s.text = t.text := by
  have hnames (u : PlainSpec) :
      HostTree.names (hostPath root ⟨true, true⟩ u.text) = HostTree.names root ++ u.names := by
    rw [hostPath, u.components_text, HostTree.names_foldl_join u.isComponent]
  refine ⟨?_, hnames s, fun hne => ?_, fun x y hroot hx hy file hs ht => ?_⟩
  · rw [hostPath, s.components_text, foldl_join s.names_ne_nil s.isComponent]
  · have happart : HostTree.names (hostPath root ⟨true, true⟩ s.text) ≠
        HostTree.names (hostPath root ⟨true, true⟩ t.text) := by
      rw [hnames, hnames, ne_eq, List.append_right_inj]
      exact fun h => hne (congrArg PlainSpec.text (PlainSpec.names_inj h))
    exact ⟨fun h => happart (congrArg HostTree.names h), happart⟩
  · have hfiles := (FolderSink.place_eq hs).symm.trans (FolderSink.place_eq ht)
    rw [hroot, hx, hy, s.components_text, t.components_text, List.append_right_inj] at hfiles
    exact congrArg PlainSpec.text (PlainSpec.names_inj hfiles)

theorem a_dot_in_brackets_is_not_one_behind_them :
    hostPath "/out" ⟨true, true⟩ "[A.B]C;1" = "/out/A/B/C;1" ∧
      hostPath "/out" ⟨true, true⟩ "[A.B]C;1" ≠ hostPath "/out" ⟨true, true⟩ "[A]B.C;1" := by
  let s : PlainSpec := ⟨["A", "B"], "C;1", by simp, by simp [isHarmless], ⟨by simp, by simp [isHarmless], by simp⟩⟩
  let t : PlainSpec := ⟨["A"], "B.C;1", by simp, by simp [isHarmless], ⟨by simp, by simp [isHarmless], by simp⟩⟩
  obtain ⟨hpath, -, happart, -⟩ := plain_specifications_keep_apart "/out" s t
  exact ⟨hpath.trans (by decide +kernel), (happart (by decide +kernel)).1⟩

end Name

end SaveSet
