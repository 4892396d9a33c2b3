import Mathlib.Data.List.Forall2
import Mathlib.Data.List.Infix
import Mathlib.Tactic.Lemma
import SaveSet.Name.Mask

namespace SaveSet.Mask

def SameLetter (b c : UInt8) : Prop :=
  b = c ∨ (65 ≤ b ∧ b ≤ 90 ∧ c = b + 32) ∨ (65 ≤ c ∧ c ≤ 90 ∧ b = c + 32)

def StandsFor (b : UInt8) (part : Bytes) : Prop :=
  if b = star then True else if b = query then part.length = 1 else ∃ c, part = [c] ∧ SameLetter b c

def Fits (mask name : Bytes) : Prop := ∃ parts, List.Forall₂ StandsFor mask parts ∧ name = parts.flatten

def token (b : UInt8) : MaskToken := if b = query then .anyByte else if b = star then .anyBytes else .literal b

variable {b c : UInt8} {bs s t : Bytes} {ss : List Bytes}

lemma foldCase_eq_iff : foldCase c = foldCase b ↔ SameLetter b c := by
  rw [foldCase, foldCase, SameLetter]
  constructor
  · intro h
    split at h <;> split at h <;> grind
  · rintro (rfl | ⟨h65, h90, rfl⟩ | ⟨h65, h90, rfl⟩) <;> grind

section Reading

variable {leading : Bool} {before : List MaskToken} {previous : Option UInt8}

lemma scan_query : scan leading before previous (query :: bs) = scan leading (.anyByte :: before) (some query) bs := by
  rw [scan.eq_def]
  exact if_pos rfl

lemma scan_class (hb : isBrace b = true) : scan leading before previous (classStart :: b :: classEnd :: bs) =
    scan leading (.literal b :: before) (some classEnd) bs := by
  have hquery : classStart ≠ query := by decide
  have halone : standsAlone b = true := by
    rw [isBrace, Bool.or_eq_true, beq_iff_eq, beq_iff_eq] at hb
    rcases hb with rfl | rfl <;> rfl
  rw [scan, if_neg hquery, if_pos rfl, if_pos ⟨halone, rfl⟩]

lemma scan_literal (hquery : b ≠ query) (hclass : b ≠ classStart) (hbrace : isBrace b = false) (hstar : b ≠ star) :
    scan leading before previous (b :: bs) = scan leading (.literal b :: before) (some b) bs := by
  rw [scan.eq_def]
  dsimp only
  rw [if_neg hquery, if_neg hclass, if_neg (Bool.eq_false_iff.mp hbrace), if_pos hstar]

lemma scan_star (h : bs.head? ≠ some star) :
    scan leading before previous (star :: bs) = scan leading (.anyBytes :: before) (some star) bs := by
  have hquery : star ≠ query := by decide
  have hstart : star ≠ classStart := by decide
  have hbrace : ¬ isBrace star = true := by decide
  rw [scan.eq_def]
  dsimp only
  rw [if_neg hquery, if_neg hstart, if_neg hbrace, if_neg (not_not_intro rfl)]
  cases bs with
  | nil => rfl
  | cons c cs => exact if_pos fun hc => h (congrArg some hc)

lemma head_quoted (h : bs.head? ≠ some star) : (bs.flatMap quoteByte).head? ≠ some star := by
  cases bs with
  | nil => exact h
  | cons c cs =>
    have hclass : some classStart ≠ some star := by decide
    rw [List.flatMap_cons, quoteByte]
    split
    · exact hclass
    · exact h

lemma scan_quoted (hclass : classStart ∉ bs) (hstars : ¬ [star, star] <:+: bs) (before : List MaskToken)
    (previous : Option UInt8) :
    scan false before previous (bs.flatMap quoteByte) = some ⟨false, before.reverse ++ bs.map token⟩ := by
  induction bs generalizing before previous with
  | nil => rw [List.flatMap_nil, scan, List.map_nil, List.append_nil]
  | cons b bs ih =>
    have hb : b ≠ classStart := fun hb => hclass (hb ▸ List.mem_cons_self)
    have hnext (tok : MaskToken) (prev : Option UInt8) : scan false (tok :: before) prev (bs.flatMap quoteByte) =
        some ⟨false, before.reverse ++ tok :: bs.map token⟩ := by
      rw [ih (fun hmem => hclass (List.mem_cons_of_mem b hmem)) (fun hin => hstars (List.infix_cons hin)),
        List.reverse_cons, List.append_assoc, List.singleton_append]
    rw [List.flatMap_cons, List.map_cons, quoteByte, token]
    by_cases hquery : b = query
    · subst hquery
      exact scan_query.trans (hnext _ _)
    rw [if_neg hquery]
    by_cases hstar : b = star
    · subst hstar
      have hhead : bs.head? ≠ some star := by
        intro hhead
        obtain ⟨rest, rfl⟩ := List.head?_eq_some_iff.mp hhead
        exact hstars (List.prefix_append [star, star] rest).isInfix
      exact (scan_star (head_quoted hhead)).trans (hnext _ _)
    rw [if_neg hstar]
    cases hbrace : isBrace b with
    | true => exact (scan_class hbrace).trans (hnext _ _)
    | false => exact (scan_literal hquery hb hbrace hstar).trans (hnext _ _)

end Reading

section Matching

def Descending (ss : List Bytes) : Prop := ss.Pairwise fun s t => t <:+ s

def Takes (b : UInt8) (s t : Bytes) : Prop := ∃ part, StandsFor b part ∧ s = part ++ t

lemma takes_star : Takes star s t ↔ t <:+ s := by
  constructor
  · rintro ⟨part, -, rfl⟩
    exact List.suffix_append part t
  · rintro ⟨part, rfl⟩
    exact ⟨part, by rw [StandsFor, if_pos rfl]; trivial, rfl⟩

lemma takes_query : Takes query s t ↔ ∃ c, s = c :: t := by
  have hstar : query ≠ star := by decide
  rw [Takes]
  simp only [StandsFor, if_neg hstar, if_pos, List.length_eq_one_iff]
  constructor
  · rintro ⟨_, ⟨c, rfl⟩, rfl⟩
    exact ⟨c, rfl⟩
  · rintro ⟨c, rfl⟩
    exact ⟨[c], ⟨c, rfl⟩, rfl⟩

lemma takes_literal (hstar : b ≠ star) (hquery : b ≠ query) :
    Takes b s t ↔ ∃ c, s = c :: t ∧ foldCase c = foldCase b := by
  rw [Takes]
  simp only [StandsFor, if_neg hstar, if_neg hquery, foldCase_eq_iff]
  constructor
  · rintro ⟨_, ⟨c, rfl, hc⟩, rfl⟩
    exact ⟨c, rfl, hc⟩
  · rintro ⟨c, rfl, hc⟩
    exact ⟨[c], ⟨c, rfl, hc⟩, rfl⟩

lemma suffixes_eq_tails (s : Bytes) : suffixes s = s.tails := by
  induction s with
  | nil => rfl
  | cons b bs ih =>
    rw [List.tails, ← ih, suffixes, List.scanl_cons]
    rfl

lemma descending_tails (s : Bytes) : Descending s.tails := by
  induction s with
  | nil => exact List.pairwise_singleton _ _
  | cons b bs ih =>
    exact List.pairwise_cons.mpr ⟨fun t ht => ((List.mem_tails t bs).mp ht).trans (List.suffix_cons b bs), ih⟩

lemma mem_suffixes_head (h : Descending ss) : t ∈ (ss.head?.map suffixes).getD [] ↔ ∃ s ∈ ss, t <:+ s := by
  cases ss with
  | nil => simp
  | cons s ss =>
    rw [List.head?_cons, Option.map_some, Option.getD_some, suffixes_eq_tails, List.mem_tails]
    refine ⟨fun ht => ⟨s, List.mem_cons_self, ht⟩, ?_⟩
    rintro ⟨u, hu, ht⟩
    obtain rfl | hu := List.mem_cons.mp hu
    · exact ht
    · exact ht.trans (List.rel_of_pairwise_cons h hu)

lemma tail?_eq_some_iff : s.tail? = some t ↔ ∃ c, s = c :: t := by
  cases s <;> simp

lemma pastLiteral_eq_some_iff : (match s with
    | c :: cs => if foldCase c = foldCase b then some cs else none
    | [] => none) = some t ↔ ∃ c, s = c :: t ∧ foldCase c = foldCase b := by
  cases s with
  | nil => simp
  | cons c cs => simp [and_comm]

lemma mem_rests (h : Descending ss) : t ∈ (token b).rests ss ↔ ∃ s ∈ ss, Takes b s t := by
  rw [token]
  split
  · next hquery =>
    subst hquery
    simp only [takes_query, MaskToken.rests, List.mem_filterMap, tail?_eq_some_iff]
  split
  · next hstar =>
    subst hstar
    simp only [takes_star]
    exact mem_suffixes_head h
  · next hquery hstar =>
    simp only [takes_literal hstar hquery]
    exact List.mem_filterMap.trans (exists_congr fun s => and_congr_right fun _ => pastLiteral_eq_some_iff)

lemma suffix_of_cons (h : c :: t <:+ b :: s) : t <:+ s := by
  obtain heq | hsuffix := List.suffix_cons_iff.mp h
  · rw [(List.cons.inj heq).2]
  · exact (List.suffix_cons c t).trans hsuffix

lemma descending_filterMap {f : Bytes → Option Bytes} (hf : ∀ s t, f s = some t → ∃ c, s = c :: t)
    (h : Descending ss) : Descending (ss.filterMap f) := by
  refine List.Pairwise.filterMap f ?_ h
  intro s s' hss t ht t' ht'
  obtain ⟨c, rfl⟩ := hf s t ht
  obtain ⟨c', rfl⟩ := hf s' t' ht'
  exact suffix_of_cons hss

lemma descending_rests (h : Descending ss) (b : UInt8) : Descending ((token b).rests ss) := by
  rw [token]
  split
  · exact descending_filterMap (fun s t ht => tail?_eq_some_iff.mp ht) h
  split
  · cases ss with
    | nil => exact .nil
    | cons s ss =>
      change Descending (suffixes s)
      rw [suffixes_eq_tails]
      exact descending_tails s
  · refine descending_filterMap (fun s t ht => ?_) h
    obtain ⟨c, hs, -⟩ := pastLiteral_eq_some_iff.mp ht
    exact ⟨c, hs⟩

lemma fits_nil : Fits [] s ↔ s = [] := by
  constructor
  · rintro ⟨_, hparts, rfl⟩
    cases hparts
    rfl
  · rintro rfl
    exact ⟨[], .nil, rfl⟩

lemma fits_cons : Fits (b :: bs) s ↔ ∃ t, Takes b s t ∧ Fits bs t := by
  constructor
  · rintro ⟨_, hparts, rfl⟩
    cases hparts with
    | cons hpart hparts => exact ⟨_, ⟨_, hpart, List.flatten_cons⟩, _, hparts, rfl⟩
  · rintro ⟨_, ⟨part, hpart, rfl⟩, parts, hparts, rfl⟩
    exact ⟨part :: parts, .cons hpart hparts, List.flatten_cons.symm⟩

lemma nil_mem_foldl_rests (h : Descending ss) :
    [] ∈ (bs.map token).foldl MaskToken.rests ss ↔ ∃ s ∈ ss, Fits bs s := by
  induction bs generalizing ss with
  | nil => simp [fits_nil]
  | cons b bs ih =>
    rw [List.map_cons, List.foldl_cons, ih (descending_rests h b)]
    simp only [mem_rests h, fits_cons]
    constructor
    · rintro ⟨t, ⟨s, hs, htakes⟩, hfits⟩
      exact ⟨s, hs, t, htakes, hfits⟩
    · rintro ⟨s, hs, t, htakes, hfits⟩
      exact ⟨t, ⟨s, hs, htakes⟩, hfits⟩

end Matching

lemma infix_of_append {front : Bytes} (hfront : star ∉ front) (h : [star, star] <:+: front ++ bs) :
    [star, star] <:+: bs := by
  induction front with
  | nil => exact h
  | cons b front ih =>
    obtain hprefix | hinfix := List.infix_cons_iff.mp h
    · exact absurd ((List.cons_prefix_cons.mp hprefix).1 ▸ List.mem_cons_self) hfront
    · exact ih (fun hmem => hfront (List.mem_cons_of_mem b hmem)) hinfix

lemma infix_of_flatMap {f : Char → Bytes} (hne : ∀ c, f c ≠ []) (hstar : ∀ c, star ∈ f c → c = '*' ∧ f c = [star])
    {cs : List Char} (h : [star, star] <:+: cs.flatMap f) : ['*', '*'] <:+: cs := by
  induction cs with
  | nil => simp at h
  | cons c cs ih =>
    rw [List.flatMap_cons] at h
    by_cases hc : star ∈ f c
    · obtain ⟨rfl, hf⟩ := hstar c hc
      rw [hf] at h
      obtain hprefix | hinfix := List.infix_cons_iff.mp h
      · obtain ⟨rest, hrest⟩ := (List.cons_prefix_cons.mp hprefix).2
        cases cs with
        | nil => simp at hrest
        | cons d ds =>
          obtain ⟨b, bs, hd⟩ := List.exists_cons_of_ne_nil (hne d)
          rw [List.flatMap_cons, hd] at hrest
          obtain rfl : star = b := (List.cons.inj hrest).1
          obtain ⟨rfl, -⟩ := hstar d (hd ▸ List.mem_cons_self)
          exact (List.prefix_append ['*', '*'] ds).isInfix
      · exact List.infix_cons (ih hinfix)
    · exact List.infix_cons (ih (infix_of_append hc h))

lemma stars_apart {mask : String} (h : ¬ ['*', '*'] <:+: mask.toList) : ¬ [star, star] <:+: bytesOf mask := by
  rw [bytesOf, utf8, angled, List.flatMap_map]
  refine fun hinfix => h (infix_of_flatMap (fun c => String.utf8EncodeChar_ne_nil) (fun c hc => ?_) hinfix)
  have hangle := eq_of_mem_utf8 '*' (by decide) hc
  obtain rfl : c = '*' := by
    split at hangle
    · exact absurd hangle (by decide)
    · split at hangle
      · exact absurd hangle (by decide)
      · exact hangle
  exact ⟨rfl, rfl⟩

/-- Without two asterisks in a row, a mask stands for exactly the names that fall into parts for its bytes. -/
theorem only_wildcards_are_special (mask name : String) (h : ¬ ['*', '*'] <:+: mask.toList) :
    (compile mask).accepts name = true ↔ Fits (bytesOf mask) (bytesOf name) := by
  have hread : read (globText mask) = some ⟨false, (bytesOf mask).map token⟩ := by
    rw [read, utf8_globText]
    exact scan_quoted (classStart_notMem mask) (stars_apart h) [] none
  have hcompile : compile mask = ⟨false, (bytesOf mask).map token⟩ := Option.get_of_eq_some _ hread
  have hone : Descending [bytesOf name] := List.pairwise_singleton _ _
  rw [hcompile, accepts]
  dsimp only
  rw [Bool.false_and, Bool.false_or, List.contains_iff_mem, if_neg Bool.false_ne_true, nil_mem_foldl_rests hone]
  simp only [List.mem_singleton, exists_eq_left]

theorem brackets_braces_and_commas_are_not_special :
    ¬ ['*', '*'] <:+: "[A*]?.{x,?}".toList ∧ (compile "[A*]?.{x,?}").accepts "[A.B]C.{X,Y}" = true := by
  have hstars : ¬ ['*', '*'] <:+: "[A*]?.{x,?}".toList := by decide
  -- The asterisk stands for two bytes, each other byte for one.
  have hparts : Fits (bytesOf "[A*]?.{x,?}") (bytesOf "[A.B]C.{X,Y}") :=
    ⟨[[60], [65], [46, 66], [62], [67], [46], [123], [88], [44], [89], [125]],
      by simp [bytesOf, angled, utf8, String.utf8EncodeChar, StandsFor, star, query, SameLetter], by decide⟩
  exact ⟨hstars, (only_wildcards_are_special _ _ hstars).mpr hparts⟩

end SaveSet.Mask
