import SaveSet.Proofs.Output.HostPaths
import SaveSet.Proofs.Walk.Views

namespace SaveSet

open Name

lemma HostFile.path_append (f : HostFile) (piece : Bytes) : (f.append piece).path = f.path := by
  simp only [append]
  split
  · rfl
  · split <;> rfl

namespace HostTree

variable {t : HostTree} {path : List String}

lemma enter_eq {names file : List String} (h : (t.enter path names).1 = .ok file) :
    file = names.foldl follow path := by
  fun_induction enter t path names with
  | case1 => exact (Except.ok.inj h).symm
  | case2 _ _ _ _ _ _ ih => exact ih h
  | case3 | case4 => exact nomatch h
  | case5 _ _ _ _ _ _ _ _ ih => exact ih h

lemma files_enter (t : HostTree) (path names : List String) : (t.enter path names).2.files = t.files := by
  fun_induction enter t path names with
  | case1 | case3 | case4 => rfl
  | case2 _ _ _ _ _ _ ih => exact ih
  | case5 _ _ _ _ _ _ _ _ ih => exact ih

lemma foldl_follow {cs : List String} (hcs : ∀ c ∈ cs, IsComponent c) (path : List String) :
    cs.foldl follow path = path ++ cs := by
  induction cs generalizing path with
  | nil => exact (List.append_nil path).symm
  | cons c cs ih =>
    have hc : c ≠ ".." := (hcs c List.mem_cons_self).ne_of_dots (by simp)
    rw [List.foldl_cons, follow, if_neg fun h => hc h.1, ih fun x hx => hcs x (List.mem_cons_of_mem c hx),
      List.append_assoc, List.singleton_append]

def outside (t : HostTree) (folder : List String) : List HostFile := t.files.filter fun f => !folder.isPrefixOf f.path

variable {folder : List String}

lemma create_eq {name : String} {file : List String} (h : (t.create path name).1 = .ok file) :
    file = path ++ [name] := by
  rw [create] at h
  split at h
  · exact nomatch h
  split at h
  · exact nomatch h
  exact (Except.ok.inj h).symm

lemma outside_create {name : String} (h : folder <+: path ++ [name]) :
    (t.create path name).2.outside folder = t.outside folder := by
  rw [create]
  split
  · rfl
  split
  · rfl
  have hbelow : folder.isPrefixOf (path ++ [name]) = true := List.isPrefixOf_iff_prefix.mpr h
  dsimp only [outside]
  rw [List.filter_cons, hbelow, Bool.not_true, if_neg Bool.false_ne_true, List.filter_filter]
  apply List.filter_congr
  intro f _
  by_cases hf : f.path = path ++ [name]
  · rw [hf, hbelow]
    rfl
  · rw [bne_iff_ne.mpr hf, Bool.and_true]

lemma outside_modifyFirst {f : HostFile → HostFile} (hf : ∀ x, (f x).path = x.path) (h : folder <+: path)
    (files : List HostFile) :
    (modifyFirst path f files).filter (fun x => !folder.isPrefixOf x.path) =
      files.filter fun x => !folder.isPrefixOf x.path := by
  induction files with
  | nil => rfl
  | cons x xs ih =>
    rw [modifyFirst]
    split
    case isTrue hx =>
      have hbelow : folder.isPrefixOf x.path = true := List.isPrefixOf_iff_prefix.mpr (hx ▸ h)
      simp only [List.filter_cons, hf, hbelow, Bool.not_true, if_neg Bool.false_ne_true]
    case isFalse => rw [List.filter_cons, List.filter_cons, ih]

end HostTree

namespace FolderSink

open HostTree

variable {s : FolderSink}

def folderOf (root : String) : List String := (names root).foldl follow []

lemma foldl_follow_below {root : String} {cs : List String} (hcs : ∀ c ∈ cs, IsComponent c) :
    (names root ++ cs).foldl follow [] = folderOf root ++ cs := by
  rw [List.foldl_append, folderOf, foldl_follow hcs]

lemma place_cases (s : FolderSink) (name : String) :
    ((∃ f, (s.place name).1 = .error f) ∧ (s.place name).2.files = s.tree.files) ∨
      ∃ (tree : HostTree) (folder : List String) (file : String), tree.files = s.tree.files ∧
        s.place name = tree.create folder file ∧
        folder ++ [file] = folderOf s.root ++ components s.style name := by
  rw [place]
  split
  · exact .inl ⟨⟨_, rfl⟩, rfl⟩
  have hfiles := files_enter s.tree [] (names s.root ++ (components s.style name).dropLast)
  generalize hentered : s.tree.enter [] (names s.root ++ (components s.style name).dropLast) = entered at hfiles
  rcases entered with ⟨f | folder, tree⟩
  · exact .inl ⟨⟨f, rfl⟩, hfiles⟩
  dsimp only
  split
  · exact .inl ⟨⟨_, rfl⟩, hfiles⟩
  refine .inr ⟨tree, folder, _, hfiles, rfl, ?_⟩
  have hne : components s.style name ≠ [] := List.concat_ne_nil _ _
  have hfolder := enter_eq (congrArg Prod.fst hentered)
  rw [foldl_follow_below fun c hc => isComponent_of_mem (List.dropLast_subset _ hc)] at hfolder
  rw [hfolder, List.append_assoc, List.getLastD_eq_getLast?, List.getLast?_eq_some_getLast hne, Option.getD_some,
    List.dropLast_concat_getLast]

lemma place_eq {name : String} {file : List String} (h : (s.place name).1 = .ok file) :
    file = folderOf s.root ++ components s.style name := by
  obtain ⟨⟨f, hf⟩, -⟩ | ⟨tree, folder, last, -, hplace, hpath⟩ := s.place_cases name
  · rw [hf] at h
    exact nomatch h
  · rw [hplace] at h
    exact (create_eq h).trans hpath

lemma outside_place (s : FolderSink) (name : String) :
    (s.place name).2.outside (folderOf s.root) = s.tree.outside (folderOf s.root) := by
  obtain ⟨-, hfiles⟩ | ⟨tree, folder, last, hfiles, hplace, hpath⟩ := s.place_cases name
  · rw [outside, hfiles, outside]
  · have hbelow : folderOf s.root <+: folder ++ [last] := hpath ▸ List.prefix_append _ _
    rw [hplace, outside_create hbelow, outside, hfiles, outside]

structure Below (before s : FolderSink) : Prop where
  root_eq : s.root = before.root
  style_eq : s.style = before.style
  opened : ∀ f ∈ s.opened, ∃ name, f.1 = folderOf before.root ++ components before.style name
  outside : s.tree.outside (folderOf before.root) = before.tree.outside (folderOf before.root)

lemma Below.modifyFile {before : FolderSink} (h : Below before s) {i : Nat} {file : List String × Option Int}
    (hi : s.opened[i]? = some file) {f : HostFile → HostFile} (hf : ∀ x, (f x).path = x.path) :
    Below before { s with tree := s.tree.modifyFile file.1 f } where
  root_eq := h.root_eq
  style_eq := h.style_eq
  opened := h.opened
  outside := by
    obtain ⟨name, hname⟩ := h.opened file (Array.mem_of_getElem? hi)
    have hbelow : folderOf before.root <+: file.1 := hname ▸ List.prefix_append _ _
    exact (outside_modifyFirst hf hbelow s.tree.files).trans h.outside

lemma keeps_below (before : FolderSink) : Sink.Keeps (Below before) where
  openFile r s h := by
    have hplace := outside_place s r.name
    change Below before (openFile r s).2
    rw [openFile]
    generalize hplaced : s.place r.name = placed at hplace
    rcases placed with ⟨f | file, tree⟩
    · exact ⟨h.root_eq, h.style_eq, h.opened, (h.root_eq ▸ hplace).trans h.outside⟩
    · refine ⟨h.root_eq, h.style_eq, fun f hf => ?_, (h.root_eq ▸ hplace).trans h.outside⟩
      obtain hf | rfl := Array.mem_push.mp hf
      · exact h.opened f hf
      · exact ⟨r.name, h.root_eq ▸ h.style_eq ▸ place_eq (congrArg Prod.fst hplaced)⟩
  write hd data s h := by
    change Below before (write hd data s).state
    rw [write]
    split
    case h_1 file date hi => exact h.modifyFile hi fun x => x.path_append data
    case h_2 => exact h
  closeFile hd s h := by
    change Below before (closeFile hd s).state
    rw [closeFile]
    split
    case h_1 file date hi => exact h.modifyFile hi fun x => rfl
    case h_2 => exact h

/-- A run puts its files below its output folder and leaves all others as they were. -/
theorem run_stays_below_the_root (o : Options) (r : Reader) (s : FolderSink) (hs : s.opened = #[]) :
    Below s (run o r s).sink := by
  apply (keeps_below s).run o r
  refine ⟨rfl, rfl, fun f hf => ?_, rfl⟩
  rw [hs] at hf
  exact absurd hf (Array.not_mem_empty f)

end FolderSink

/-- Whatever the specification says, its path is the root and after it one name or more that lead down. -/
theorem Name.paths_lead_below_the_root (root : String) (style : PathStyle) (spec : String) :
    hostPath root style spec = asFolder root ++ "/".intercalate (components style spec) ∧
      HostTree.names (hostPath root style spec) = HostTree.names root ++ components style spec ∧
      (∀ c ∈ components style spec, IsComponent c) ∧
      (components style spec).length = (if style.folders then (directories spec).length else 0) + 1 ∧
      (∀ before inner rest, spec.toList = before ++ '[' :: (inner ++ ']' :: rest) → '[' ∉ before → ']' ∉ before →
        ']' ∉ inner → (directories spec).map String.toList = (inner.splitOn '.').filter (· ≠ [])) ∧
      (∀ s : FolderSink, s.root = root → s.style = style → ∀ file, (s.place spec).1 = .ok file →
        file = FolderSink.folderOf root ++ components style spec) ∧
      ∀ component, sanitize (sanitize component) = sanitize component := by
  have hcs : ∀ c ∈ components style spec, IsComponent c := fun c hc => isComponent_of_mem hc
  have hne : components style spec ≠ [] := List.concat_ne_nil _ _
  refine ⟨foldl_join hne hcs root, HostTree.names_foldl_join hcs root, hcs, ?_, ?_, ?_, ?_⟩
  · rw [components, List.length_append, List.length_singleton]
    split
    · rw [List.length_map]
    · rfl
  · intro before inner rest hspec hopen hclose hinner
    exact directories_eq hspec hopen hclose hinner
  · rintro s rfl rfl file hfile
    exact FolderSink.place_eq hfile
  · intro component
    exact sanitize_eq_self (isComponent_sanitize component)

theorem Name.dots_and_slashes_lead_nowhere :
    ∃ s : FolderSink, s.opened = #[] ∧ s.root = "/out" ∧ s.style = ⟨true, false⟩ ∧
      (s.place "[..A/B.]../../C;1").1 = .ok ["/", "out", "A_B", ".._.._C"] ∧
      hostPath "/out" ⟨true, false⟩ "[..A/B.]../../C;1" = "/out/A_B/.._.._C" ∧
      (directories "[..A/B.]../../C;1").map String.toList = [['A', '/', 'B']] := by
  obtain ⟨hpath, -, -, -, hdirectories, hplace, -⟩ :=
    paths_lead_below_the_root "/out" ⟨true, false⟩ "[..A/B.]../../C;1"
  let s : FolderSink := ⟨{}, "/out", ⟨true, false⟩, false, none, false, #[]⟩
  refine ⟨s, rfl, rfl, rfl, ?_, hpath.trans (by decide +kernel), ?_⟩
  · have hok : (s.place "[..A/B.]../../C;1").1.isOk = true := by decide +kernel
    cases hs : (s.place "[..A/B.]../../C;1").1 with
    | error f =>
      rw [hs] at hok
      exact absurd hok Bool.false_ne_true
    | ok file =>
      rw [hplace s rfl rfl file hs]
      exact congrArg Except.ok (by decide +kernel)
  · rw [hdirectories [] "..A/B.".toList "../../C;1".toList rfl (by simp) (by simp) (by simp)]
    decide +kernel

end SaveSet
