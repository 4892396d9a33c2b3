/-! Tables from keys to values; each key once, in the order of its first entry. -/

namespace SaveSet

structure Table (κ α : Type) where
  entries : List (κ × α)
  deriving DecidableEq, Repr

namespace Table

variable {κ α : Type} [DecidableEq κ]

def empty : Table κ α := ⟨[]⟩

instance : Inhabited (Table κ α) := ⟨empty⟩

def keys (t : Table κ α) : List κ := t.entries.map Prod.fst

def values (t : Table κ α) : List α := t.entries.map Prod.snd

def find (k : κ) : List (κ × α) → Option α
  | [] => none
  | e :: es => if e.1 = k then some e.2 else find k es

def get? (t : Table κ α) (k : κ) : Option α := find k t.entries

def set (k : κ) (a : α) : List (κ × α) → List (κ × α)
  | [] => [(k, a)]
  | e :: es => if e.1 = k then (k, a) :: es else e :: set k a es

def put (t : Table κ α) (k : κ) (a : α) : Table κ α := ⟨set k a t.entries⟩

def modify (t : Table κ α) (k : κ) (f : α → α) : Table κ α :=
  ⟨t.entries.map fun e => if e.1 = k then (e.1, f e.2) else e⟩

def map (t : Table κ α) (f : α → α) : Table κ α := ⟨t.entries.map fun e => (e.1, f e.2)⟩

theorem find_set (k j : κ) (a : α) (es : List (κ × α)) :
    find j (set k a es) = if k = j then some a else find j es := by
  induction es with
  | nil => simp [set, find]
  | cons e es ih =>
    by_cases he : e.1 = k
    · by_cases hk : k = j <;> simp [set, find, he, hk]
    · by_cases hj : e.1 = j
      · have hk : ¬ j = k := fun h => he (hj.trans h)
        simp [set, find, hj, hk, Ne.symm hk]
      · simpa [set, find, he, hj] using ih

theorem get?_put (t : Table κ α) (k j : κ) (a : α) :
    (t.put k a).get? j = if k = j then some a else t.get? j :=
  find_set k j a t.entries

theorem mem_keys_set (k j : κ) (a : α) (es : List (κ × α)) :
    j ∈ (set k a es).map Prod.fst ↔ j = k ∨ j ∈ es.map Prod.fst := by
  induction es with
  | nil => simp [set]
  | cons e es ih =>
    by_cases he : e.1 = k
    · simp [set, he]
    · rw [set, if_neg he, List.map_cons, List.mem_cons, ih, List.map_cons, List.mem_cons]
      exact or_left_comm

theorem nodup_keys_put {t : Table κ α} (h : t.keys.Nodup) (k : κ) (a : α) : (t.put k a).keys.Nodup := by
  rcases t with ⟨es⟩
  simp only [keys, put] at h ⊢
  induction es with
  | nil => simp [set]
  | cons e es ih =>
    rw [List.map_cons, List.nodup_cons] at h
    by_cases he : e.1 = k
    · rw [set, if_pos he, List.map_cons, List.nodup_cons]
      exact he ▸ h
    · rw [set, if_neg he, List.map_cons, List.nodup_cons, mem_keys_set, not_or]
      exact ⟨⟨he, h.1⟩, ih h.2⟩

theorem mem_entries_iff {t : Table κ α} (h : t.keys.Nodup) {k : κ} {a : α} :
    (k, a) ∈ t.entries ↔ t.get? k = some a := by
  rcases t with ⟨es⟩
  simp only [keys, get?] at h ⊢
  induction es with
  | nil => simp [find]
  | cons e es ih =>
    rw [List.map_cons, List.nodup_cons] at h
    rw [find, List.mem_cons]
    split
    · next he =>
      have hnot : (k, a) ∉ es := fun hmem => h.1 (he ▸ List.mem_map_of_mem hmem)
      rw [or_iff_left hnot, Option.some_inj, Prod.ext_iff]
      exact ⟨fun heq => heq.2.symm, fun heq => ⟨he.symm, heq.symm⟩⟩
    · next he =>
      rw [or_iff_right fun heq => he (congrArg Prod.fst heq).symm]
      exact ih h.2

theorem get?_modify (t : Table κ α) (k j : κ) (f : α → α) :
    (t.modify k f).get? j = if k = j then (t.get? j).map f else t.get? j := by
  rcases t with ⟨es⟩
  simp only [modify, get?]
  induction es with
  | nil => simp [find]
  | cons e es ih =>
    by_cases hj : e.1 = j
    · by_cases hk : k = j
      · simp [find, hj, hk]
      · simp [find, hj, show ¬ j = k from fun h => hk h.symm, hk]
    · by_cases hk : e.1 = k
      · simpa [find, hj, hk, show ¬ k = j from fun h => hj (hk.trans h)] using ih
      · simpa [find, hj, hk] using ih

theorem get?_map (t : Table κ α) (j : κ) (f : α → α) : (t.map f).get? j = (t.get? j).map f := by
  rcases t with ⟨es⟩
  simp only [map, get?]
  induction es with
  | nil => simp [find]
  | cons e es ih =>
    by_cases hj : e.1 = j
    · simp [find, hj]
    · simpa [find, hj] using ih

end Table

end SaveSet
