import Mathlib.Data.List.Forall2

namespace SaveSet.Csv

inductive Phase where
  | plain (field : List Char)
  | quoted (field : List Char)
  | closed (field : List Char)

def readFrom : Phase → List Char → Option (List (List Char))
  | .plain field, [] => some [field.reverse]
  | .quoted _, [] => none
  | .closed field, [] => some [field.reverse]
  | .plain field, c :: cs =>
    if c = ',' then (readFrom (.plain []) cs).map (field.reverse :: ·)
    else if c = '"' then if field = [] then readFrom (.quoted []) cs else none
    else if c = '\r' ∨ c = '\n' then none
    else readFrom (.plain (c :: field)) cs
  | .quoted field, c :: cs =>
    if c = '"' then readFrom (.closed field) cs else readFrom (.quoted (c :: field)) cs
  | .closed field, c :: cs =>
    if c = ',' then (readFrom (.plain []) cs).map (field.reverse :: ·)
    else if c = '"' then readFrom (.quoted ('"' :: field)) cs
    else none

def read (record : String) : Option (List String) :=
  (readFrom (.plain []) record.toList).map (·.map String.ofList)

def special : List Char := ['"', ',', '\r', '\n']

def doubled (value : List Char) : List Char := value.flatMap fun c => if c = '"' then ['"', '"'] else [c]

inductive Spells : List Char → List Char → Prop where
  | plain {value} : (∀ c ∈ value, c ∉ special) → Spells value value
  | quoted (value) : Spells ('"' :: (doubled value ++ ['"'])) value

def Phase.text : Phase → List Char
  | plain field => field.reverse
  | quoted field => '"' :: doubled field.reverse
  | closed field => '"' :: (doubled field.reverse ++ ['"'])

def Phase.Sound : Phase → Prop
  | plain field => ∀ c ∈ field, c ∉ special
  | quoted _ | closed _ => True

lemma doubled_quote (cs : List Char) : doubled ('"' :: cs) = '"' :: '"' :: doubled cs := rfl

lemma doubled_cons {c : Char} (h : c ≠ '"') (cs : List Char) : doubled (c :: cs) = c :: doubled cs := by
  rw [doubled, List.flatMap_cons, if_neg h]
  rfl

lemma doubled_append (xs ys : List Char) : doubled (xs ++ ys) = doubled xs ++ doubled ys := List.flatMap_append

lemma doubled_eq_self {value : List Char} (h : '"' ∉ value) : doubled value = value := by
  induction value with
  | nil => rfl
  | cons c cs ih =>
    rw [List.mem_cons, not_or] at h
    rw [doubled_cons (Ne.symm h.1), ih h.2]

def IsRecord (texts values : List (List Char)) : Prop := texts ≠ [] ∧ List.Forall₂ Spells texts values

lemma spells_plain {field : List Char} (hs : (Phase.plain field).Sound) : Spells field.reverse field.reverse :=
  .plain fun c hc => hs c (List.mem_reverse.mp hc)

lemma IsRecord.cons {text value : List Char} {texts values : List (List Char)} (htext : Spells text value)
    (h : IsRecord texts values) :
    IsRecord (text :: texts) (value :: values) ∧
      [','].intercalate (text :: texts) = text ++ ',' :: [','].intercalate texts := by
  refine ⟨⟨List.cons_ne_nil _ _, .cons htext h.2⟩, ?_⟩
  rw [List.intercalate_cons_of_ne_nil h.1, List.append_assoc, List.singleton_append]

lemma isRecord_singleton {text value : List Char} (h : Spells text value) : IsRecord [text] [value] :=
  ⟨List.cons_ne_nil _ _, .cons h .nil⟩

lemma readFrom_sound {phase : Phase} {cs : List Char} {values : List (List Char)} (hs : phase.Sound)
    (h : readFrom phase cs = some values) :
    ∃ texts, IsRecord texts values ∧ phase.text ++ cs = [','].intercalate texts := by
  fun_induction readFrom phase cs generalizing values with
  | case1 field =>
    obtain rfl := Option.some.inj h
    refine ⟨[field.reverse], isRecord_singleton (spells_plain hs), ?_⟩
    rw [List.intercalate_singleton, List.append_nil, Phase.text]
  | case3 field =>
    obtain rfl := Option.some.inj h
    refine ⟨_, isRecord_singleton (.quoted field.reverse), ?_⟩
    rw [List.intercalate_singleton, List.append_nil, Phase.text]
  | case2 | case6 | case7 | case13 => exact nomatch h
  | case4 field cs ih =>
    obtain ⟨rest, hrest, rfl⟩ := Option.map_eq_some_iff.mp h
    obtain ⟨texts, htexts, heq⟩ := ih (fun _ hc => absurd hc List.not_mem_nil) hrest
    obtain ⟨hrecord, htext⟩ := htexts.cons (spells_plain hs)
    exact ⟨_, hrecord, by rw [htext, ← heq]; rfl⟩
  | case11 field cs ih =>
    obtain ⟨rest, hrest, rfl⟩ := Option.map_eq_some_iff.mp h
    obtain ⟨texts, htexts, heq⟩ := ih (fun _ hc => absurd hc List.not_mem_nil) hrest
    obtain ⟨hrecord, htext⟩ := htexts.cons (.quoted field.reverse)
    exact ⟨_, hrecord, by rw [htext, ← heq]; rfl⟩
  | case5 cs _ ih =>
    exact ih trivial h
  | case8 field c cs hcomma hquote hbreak ih =>
    have hc : c ∉ special := by simpa [special, hcomma, hquote] using hbreak
    obtain ⟨texts, htexts, heq⟩ := ih (List.forall_mem_cons.mpr ⟨hc, hs⟩) h
    refine ⟨texts, htexts, ?_⟩
    rw [← heq, Phase.text, Phase.text, List.reverse_cons, List.append_assoc, List.singleton_append]
  | case9 field cs ih =>
    obtain ⟨texts, htexts, heq⟩ := ih trivial h
    refine ⟨texts, htexts, ?_⟩
    rw [← heq, Phase.text, Phase.text, List.cons_append, List.cons_append, List.append_assoc, List.singleton_append]
  | case10 field c cs hquote ih =>
    obtain ⟨texts, htexts, heq⟩ := ih trivial h
    refine ⟨texts, htexts, ?_⟩
    rw [← heq, Phase.text, Phase.text, List.reverse_cons, doubled_append, List.cons_append, List.cons_append,
      List.append_assoc]
    simp [doubled, hquote]
  | case12 field cs _ ih =>
    obtain ⟨texts, htexts, heq⟩ := ih trivial h
    refine ⟨texts, htexts, ?_⟩
    rw [← heq, Phase.text, Phase.text, List.reverse_cons, doubled_append, List.cons_append, List.cons_append,
      List.append_assoc, List.append_assoc]
    simp [doubled]

lemma readFrom_plain {text : List Char} (h : ∀ c ∈ text, c ∉ special) (field rest : List Char) :
    readFrom (.plain field) (text ++ rest) = readFrom (.plain (text.reverse ++ field)) rest := by
  induction text generalizing field with
  | nil => rfl
  | cons c cs ih =>
    obtain ⟨hc, hcs⟩ := List.forall_mem_cons.mp h
    obtain ⟨hquote, hcomma, hcr, hlf⟩ : c ≠ '"' ∧ c ≠ ',' ∧ c ≠ '\r' ∧ c ≠ '\n' := by simpa [special] using hc
    rw [List.cons_append, readFrom, if_neg hcomma, if_neg hquote, if_neg (not_or.mpr ⟨hcr, hlf⟩), ih hcs,
      List.reverse_cons, List.append_assoc, List.singleton_append]

lemma readFrom_doubled (value field rest : List Char) :
    readFrom (.quoted field) (doubled value ++ rest) = readFrom (.quoted (value.reverse ++ field)) rest := by
  induction value generalizing field with
  | nil => rfl
  | cons c cs ih =>
    by_cases hc : c = '"'
    · subst hc
      rw [doubled_quote, List.cons_append, List.cons_append, readFrom, if_pos rfl, readFrom, if_neg (by decide),
        if_pos rfl, ih, List.reverse_cons, List.append_assoc, List.singleton_append]
    · rw [doubled_cons hc, List.cons_append, readFrom, if_neg hc, ih, List.reverse_cons, List.append_assoc,
        List.singleton_append]

lemma readFrom_spelled {text value : List Char} (h : Spells text value) :
    readFrom (.plain []) text = some [value] ∧
      ∀ rest, readFrom (.plain []) (text ++ ',' :: rest) = (readFrom (.plain []) rest).map (value :: ·) := by
  cases h with
  | plain hplain =>
    have hread := readFrom_plain hplain []
    refine ⟨?_, fun rest => ?_⟩
    · rw [← List.append_nil text, hread, readFrom, List.append_nil, List.append_nil, List.reverse_reverse]
    · rw [hread, readFrom, if_pos rfl, List.append_nil, List.reverse_reverse]
  | quoted =>
    have hread (rest : List Char) : readFrom (.plain []) ('"' :: (doubled value ++ ['"']) ++ rest) =
        readFrom (.closed value.reverse) rest := by
      rw [List.cons_append, readFrom, if_neg (by decide), if_pos rfl, if_pos rfl, List.append_assoc, readFrom_doubled,
        List.append_nil, List.singleton_append, readFrom, if_pos rfl]
    refine ⟨?_, fun rest => ?_⟩
    · rw [← List.append_nil ('"' :: _), hread, readFrom, List.reverse_reverse]
    · rw [hread, readFrom, if_pos rfl, List.reverse_reverse]

lemma readFrom_record {texts values : List (List Char)} (h : IsRecord texts values) :
    readFrom (.plain []) ([','].intercalate texts) = some values := by
  obtain ⟨hne, hspells⟩ := h
  induction hspells with
  | nil => exact absurd rfl hne
  | @cons text value texts values htext hrest ih =>
    obtain ⟨hlast, hmore⟩ := readFrom_spelled htext
    cases hrest with
    | nil => rw [List.intercalate_singleton, hlast]
    | cons hnext hrest =>
      have hmany := List.Forall₂.cons hnext hrest
      rw [(IsRecord.cons htext ⟨List.cons_ne_nil _ _, hmany⟩).2, hmore, ih (List.cons_ne_nil _ _)]
      rfl

lemma read_eq_some_iff {record : String} {values : List String} :
    read record = some values ↔
      ∃ texts, IsRecord texts (values.map String.toList) ∧ record.toList = [','].intercalate texts := by
  rw [read, Option.map_eq_some_iff]
  constructor
  · rintro ⟨fields, hread, rfl⟩
    have hsound : (Phase.plain []).Sound := fun _ hc => absurd hc List.not_mem_nil
    obtain ⟨texts, htexts, heq⟩ := readFrom_sound hsound hread
    refine ⟨texts, ?_, heq⟩
    simpa [List.map_map, Function.comp_def] using htexts
  · rintro ⟨texts, htexts, heq⟩
    refine ⟨values.map String.toList, ?_, ?_⟩
    · rw [heq, readFrom_record htexts]
    · simp [List.map_map, Function.comp_def]

lemma not_mem_of_doubled {value rest rest' : List Char} (k : Nat)
    (h : List.replicate k '"' ++ (doubled value ++ '"' :: rest) = value ++ '"' :: ',' :: rest') :
    k = 0 ∧ '"' ∉ value := by
  -- The doubled text is `k` quotes ahead, and never falls back.
  induction value generalizing k with
  | nil =>
    cases k with
    | zero => exact ⟨rfl, List.not_mem_nil⟩
    | succ k =>
      cases k <;> simp [List.replicate_succ, doubled] at h
  | cons c cs ih =>
    by_cases hc : c = '"'
    · subst hc
      have hshift (xs : List Char) :
          List.replicate k '"' ++ '"' :: '"' :: xs = '"' :: (List.replicate (k + 1) '"' ++ xs) := by
        rw [← List.cons_append, ← List.replicate_succ, List.replicate_succ', List.replicate_succ', List.append_assoc,
          List.append_assoc]
        rfl
      rw [doubled_quote, List.cons_append, List.cons_append, hshift] at h
      exact absurd (ih (k + 1) (List.cons.inj h).2).1 (Nat.succ_ne_zero k)
    · rw [doubled_cons hc] at h
      cases k with
      | zero =>
        obtain ⟨-, hcs⟩ := ih 0 (List.cons.inj h).2
        exact ⟨rfl, List.not_mem_cons_of_ne_of_not_mem (Ne.symm hc) hcs⟩
      | succ k => exact absurd (List.cons.inj h).1 (Ne.symm hc)

lemma not_mem_of_first {texts values : List (List Char)} {name rest : List Char} (h : IsRecord texts (name :: values))
    (heq : '"' :: (name ++ '"' :: ',' :: rest) = [','].intercalate texts) : '"' ∉ name := by
  obtain ⟨-, htexts⟩ := h
  cases htexts with
  | @cons text _ texts _ htext _ =>
    obtain ⟨more, hmore⟩ : ∃ more, [','].intercalate (text :: texts) = text ++ more := by
      cases texts with
      | nil => exact ⟨[], by rw [List.intercalate_singleton, List.append_nil]⟩
      | cons next texts => exact ⟨_, by rw [List.intercalate_cons_cons, List.append_assoc]⟩
    cases htext with
    | plain hplain => exact fun hquote => hplain '"' hquote (by decide)
    | quoted =>
      rw [hmore, List.cons_append, List.append_assoc] at heq
      exact (not_mem_of_doubled 0 (List.cons.inj heq).2.symm).2

end SaveSet.Csv
