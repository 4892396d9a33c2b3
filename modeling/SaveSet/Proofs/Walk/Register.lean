import SaveSet.Proofs.Walk.Choice

namespace SaveSet.Catalog

variable {o : Options} {known : List Member} {c c' : Catalog}

structure Knows (o : Options) (known : List Member) (c : Catalog) : Prop where
  mask : c.mask = .compile o.mask
  selector : c.selector = o.version
  mode : c.mode = o.mode
  newest : ∀ base, c.mask.accepts base = true → c.newest.get? base = highest known base

structure Agrees (c c' : Catalog) : Prop where
  mask : c'.mask = c.mask
  selector : c'.selector = c.selector
  mode : c'.mode = c.mode
  newest : c'.newest = c.newest

lemma Agrees.trans {c'' : Catalog} (h : Agrees c c') (h' : Agrees c' c'') : Agrees c c'' :=
  ⟨h'.mask.trans h.mask, h'.selector.trans h.selector, h'.mode.trans h.mode, h'.newest.trans h.newest⟩

lemma Knows.agrees (h : Knows o known c) (ha : Agrees c c') : Knows o known c' where
  mask := ha.mask.trans h.mask
  selector := ha.selector.trans h.selector
  mode := ha.mode.trans h.mode
  newest base hb := by
    rw [ha.mask] at hb
    rw [ha.newest, h.newest base hb]

structure SetTo (c c' : Catalog) (key : String) (t : Target) : Prop where
  agrees : Agrees c c'
  target? : ∀ j, c'.target? j = if key = j then some t else c.target? j

variable {key : String} {t t' : Target}

lemma SetTo.target_eq (h : SetTo c c' key t) : c'.target? key = some t := by
  rw [h.target?, if_pos rfl]

lemma SetTo.refl (h : c.target? key = some t) : SetTo c c key t where
  agrees := ⟨rfl, rfl, rfl, rfl⟩
  target? j := by
    by_cases hj : key = j
    · rw [if_pos hj, ← hj, h]
    · rw [if_neg hj]

lemma SetTo.trans {c'' : Catalog} (h : SetTo c c' key t) (h' : SetTo c' c'' key t') : SetTo c c'' key t' where
  agrees := h.agrees.trans h'.agrees
  target? j := by
    rw [h'.target?, h.target?]
    split <;> rfl

lemma setTo_modify (h : c.target? key = some t) (f : Target → Target) :
    SetTo c (c.modify key f) key (f t) where
  agrees := ⟨rfl, rfl, rfl, rfl⟩
  target? j := by
    rw [target?, modify, Table.get?_modify]
    by_cases hj : key = j
    · rw [if_pos hj, if_pos hj, ← hj, ← target?, h]
      rfl
    · rw [if_neg hj, if_neg hj, target?]

lemma target?_register (c : Catalog) (a : FileAttributes) (j : String) :
    (c.register a).2.target? j =
      if a.filename = j then
        some { (c.target? a.filename).getD (newTarget c.mode a.filename a) with
          selected := (c.register a).1.selected }
      else c.target? j :=
  Table.get?_put _ _ _ _

lemma target?_reset (c : Catalog) (k : String) :
    c.reset.target? k =
      (c.target? k).map fun t => { t with content := t.content.reset, handle := none } :=
  Table.get?_map _ _ _

def Closed (c : Catalog) : Prop := ∀ k t, c.target? k = some t → t.handle = none

lemma closed_ofOptions (o : Options) : (Catalog.ofOptions o).Closed := by
  intro k t ht
  cases ht

lemma closed_reset (c : Catalog) : c.reset.Closed := by
  intro k t ht
  rw [target?_reset] at ht
  obtain ⟨t', -, rfl⟩ := Option.map_eq_some_iff.mp ht
  rfl

lemma Closed.setTo (h : c.Closed) (hs : c.SetTo c' key t) (ht : t.handle = none) : c'.Closed := by
  intro k u hk
  rw [hs.target?] at hk
  split at hk
  · obtain rfl := Option.some.inj hk
    exact ht
  · exact h k u hk

lemma Closed.register (h : c.Closed) (a : FileAttributes) : (c.register a).2.Closed := by
  intro k t ht
  rw [target?_register] at ht
  split at ht
  · obtain rfl := Option.some.inj ht
    cases hc : c.target? a.filename with
    | none => rfl
    | some t' => exact h a.filename t' hc
  · exact h k t ht

structure Shows (view : Content → Content) (expected : String → Option Content) (c : Catalog) : Prop where
  content : ∀ k, (c.target? k).map (fun t => view t.content) = expected k
  closed : ∀ k t, c.target? k = some t → t.handle = none

variable {view : Content → Content} {expected : String → Option Content}

lemma Knows.register_selected (h : Knows o known c) (m : Member) :
    (c.register m.attributes).1.selected = o.wants (known ++ [m]) m := by
  change (c.mask.accepts m.base && c.selector.selects m.version
    (((if c.mask.accepts m.base then raiseNewest c.newest m.base m.version else c.newest).get? m.base).getD
      m.version)) = _
  rw [Options.wants, ← h.mask, ← h.selector]
  cases ha : c.mask.accepts m.base with
  | false => rfl
  | true =>
    rw [if_pos rfl, raiseNewest, Table.get?_put, if_pos rfl, highest_snoc, h.newest m.base ha]

lemma Knows.register (h : Knows o known c) (m : Member) :
    Knows o (known ++ [m]) (c.register m.attributes).2 where
  mask := h.mask
  selector := h.selector
  mode := h.mode
  newest base hb := by
    change c.mask.accepts base = true at hb
    change (if c.mask.accepts m.base then raiseNewest c.newest m.base m.version else c.newest).get? base = _
    by_cases he : m.base = base
    · rw [← he] at hb ⊢
      rw [if_pos hb, raiseNewest, Table.get?_put, if_pos rfl, highest_snoc, h.newest m.base hb]
    · rw [highest_snoc_apart known he, ← h.newest base hb]
      split
      · rw [raiseNewest, Table.get?_put, if_neg he]
      · rfl

lemma Shows.register {modes : String → ContentMode} (hk : Knows o known c)
    (h : Shows view (fun k => (declared known k).map fun d => d.content (modes k)) c) (m : Member)
    (hnew : declared known m.key = none → view (m.content o.mode) = m.content (modes m.key)) :
    Shows view (fun k => (declared (known ++ [m]) k).map fun d => d.content (modes k))
      (c.register m.attributes).2 where
  content k := by
    rw [target?_register, declared_snoc]
    by_cases he : m.key = k
    · rw [← he]
      change Option.map _ (if m.key = m.key then _ else _) = _
      rw [if_pos rfl, if_pos rfl]
      have hc := h.content m.key
      change some (view ((c.target? m.key).getD (newTarget c.mode m.key m.attributes)).content) = _
      cases ht : c.target? m.key with
      | none =>
        rw [ht] at hc
        have hd := Option.map_eq_none_iff.mp hc.symm
        rw [hd, hk.mode]
        exact congrArg some (hnew hd)
      | some t =>
        rw [ht] at hc
        obtain ⟨d, hd, hv⟩ := Option.map_eq_some_iff.mp hc.symm
        rw [hd]
        exact congrArg some hv.symm
    · change Option.map _ (if m.key = k then _ else _) = _
      rw [if_neg he, if_neg he, Option.or_none]
      exact h.content k
  closed := Closed.register h.closed m.attributes

lemma Shows.target {modes : String → ContentMode}
    (h : Shows view (fun k => (declared known k).map fun d => d.content (modes k)) c) {d : Member}
    (hd : declared known key = some d) :
    ∃ t, c.target? key = some t ∧ t.handle = none ∧ view t.content = d.content (modes key) := by
  have hc := h.content key
  rw [hd] at hc
  obtain ⟨t, ht, hv⟩ := Option.map_eq_some_iff.mp hc
  exact ⟨t, ht, h.closed key t ht, hv⟩

lemma Shows.setTo {modes modes' : String → ContentMode}
    (h : Shows view (fun k => (declared known k).map fun d => d.content (modes k)) c)
    (hs : SetTo c c' key t) (ht : t.handle = none) {d : Member} (hd : declared known key = some d)
    (hv : view t.content = d.content (modes' key)) (hm : ∀ k, key ≠ k → modes' k = modes k) :
    Shows view (fun k => (declared known k).map fun d => d.content (modes' k)) c' where
  content k := by
    rw [hs.target?]
    by_cases hk : key = k
    · rw [if_pos hk, ← hk, hd]
      exact congrArg some hv
    · rw [if_neg hk, h.content k, hm k hk]
  closed := Closed.setTo h.closed hs ht

lemma Shows.reset (hview : ∀ x : Content, view x.reset = view x) (h : Shows view expected c) :
    Shows view expected c.reset where
  content k := by
    rw [target?_reset, Option.map_map, ← h.content k]
    congr 1
    funext t
    exact hview t.content
  closed := closed_reset c

lemma knows_ofOptions (o : Options) : Knows o [] (.ofOptions o) :=
  ⟨rfl, rfl, rfl, fun _ _ => rfl⟩

lemma shows_ofOptions (o : Options) (modes : String → ContentMode) :
    Shows view (fun k => (declared [] k).map fun d => d.content (modes k)) (.ofOptions o) where
  content _ := rfl
  closed := closed_ofOptions o

end SaveSet.Catalog
