import SaveSet.Proofs.Content.Lines

namespace SaveSet.LineEnds

def normalizeAll (s : LineEnds) : List Bytes → LineEnds × Bytes
  | [] => (s, [])
  | p :: ps =>
    let first := s.normalize p
    let rest := normalizeAll first.1 ps
    (rest.1, first.2 ++ rest.2)

def hostLines (pieces : List Bytes) : Bytes :=
  let out := normalizeAll {} pieces
  out.2 ++ out.1.finish.2

def joinPairs : Bytes → Bytes
  | [] => []
  | [b] => [b]
  | b :: d :: bs => if b = cr ∧ d = lf then lf :: joinPairs bs else b :: joinPairs (d :: bs)

def crToLf (b : UInt8) : UInt8 := if b = cr then lf else b

lemma normalizeAll_flatten (s : LineEnds) (pieces : List Bytes) :
    (normalizeAll s pieces).1.pending = (hostText s.pending pieces.flatten).1 ∧
      (normalizeAll s pieces).2 = (hostText s.pending pieces.flatten).2 := by
  induction pieces generalizing s with
  | nil => exact ⟨rfl, rfl⟩
  | cons p ps ih =>
    obtain ⟨hpending, hout⟩ := ih (s.normalize p).1
    rw [List.flatten_cons, hostText_append]
    exact ⟨hpending, congrArg ((s.normalize p).2 ++ ·) hout⟩

lemma hostLines_eq (pieces : List Bytes) : hostLines pieces = normalized pieces.flatten := by
  obtain ⟨hpending, hout⟩ := normalizeAll_flatten {} pieces
  rw [hostLines, normalized_eq, finish, hpending, hout]

lemma text_induction {P : Bytes → Prop} (nil : P []) (plain : ∀ b bs, b ≠ cr → P bs → P (b :: bs))
    (last : P [cr]) (pair : ∀ bs, P bs → P (cr :: lf :: bs))
    (held : ∀ b bs, b ≠ lf → P bs → P (cr :: b :: bs)) : ∀ data, P data
  | [] => nil
  | [b] => by
    by_cases hb : b = cr
    · exact hb ▸ last
    · exact plain b [] hb nil
  | b :: d :: bs => by
    by_cases hb : b = cr
    · by_cases hd : d = lf
      · exact hb ▸ hd ▸ pair bs (text_induction nil plain last pair held bs)
      · exact hb ▸ held d bs hd (text_induction nil plain last pair held bs)
    · exact plain b (d :: bs) hb (text_induction nil plain last pair held (d :: bs))

lemma normalized_plain {b : UInt8} (h : b ≠ cr) (bs : Bytes) : normalized (b :: bs) = b :: normalized bs := by
  have hstep : step false b = (false, [b]) := by
    by_cases hlf : b = lf
    · rw [hlf]
      rfl
    · exact step_plain (by simp [isEnd, h, hlf])
  rw [normalized_eq, normalized_eq, hostText_cons, hstep]
  rfl

lemma normalized_pair (bs : Bytes) : normalized (cr :: lf :: bs) = lf :: normalized bs := by
  rw [normalized_eq, normalized_eq, hostText_cons, hostText_cons]
  rfl

lemma normalized_held {b : UInt8} (h : b ≠ lf) (bs : Bytes) :
    normalized (cr :: b :: bs) = lf :: b :: normalized bs := by
  have hstep : step true b = (false, [lf, b]) := if_neg h
  have hcr : step false cr = (true, []) := rfl
  rw [normalized_eq, normalized_eq, hostText_cons, hcr, hostText_cons, hstep]
  rfl

lemma filter_normalized (data : Bytes) :
    (normalized data).filter (!isEnd ·) = data.filter (!isEnd ·) := by
  induction data using text_induction with
  | nil | last => rfl
  | plain b bs hb ih => rw [normalized_plain hb, List.filter_cons, List.filter_cons, ih]
  | pair bs ih =>
    rw [normalized_pair]
    exact ih
  | held b bs hb ih =>
    simp only [normalized_held hb, List.filter_cons, ih]
    rfl

lemma two_crs_iff (b : UInt8) (bs : Bytes) : [cr, cr] <:+: cr :: b :: bs ↔ b = cr ∨ [cr, cr] <:+: b :: bs := by
  rw [List.infix_cons_iff, List.cons_prefix_cons, List.cons_prefix_cons]
  simp [eq_comm]

lemma two_crs_plain {b : UInt8} (h : b ≠ cr) (bs : Bytes) : [cr, cr] <:+: b :: bs ↔ [cr, cr] <:+: bs := by
  rw [List.infix_cons_iff, List.cons_prefix_cons]
  simp [h.symm]

lemma cr_mem_normalized_iff (data : Bytes) : cr ∈ normalized data ↔ [cr, cr] <:+: data := by
  induction data using text_induction with
  | nil => exact iff_of_false List.not_mem_nil (by decide)
  | plain b bs hb ih => rw [normalized_plain hb, List.mem_cons, two_crs_plain hb, ih, or_iff_right hb.symm]
  | last => exact iff_of_false (by decide) (by decide)
  | pair bs ih =>
    rw [normalized_pair, List.mem_cons, two_crs_iff, two_crs_plain (by decide), ih]
    exact or_congr_left (iff_of_false (by decide) (by decide))
  | held b bs hb ih =>
    rw [normalized_held hb, List.mem_cons, List.mem_cons, two_crs_iff, or_iff_right (by decide), eq_comm, ih]
    by_cases hcr : b = cr
    · simp [hcr]
    · rw [two_crs_plain hcr]

lemma joinPairs_plain {b : UInt8} (h : b ≠ cr) (bs : Bytes) : joinPairs (b :: bs) = b :: joinPairs bs := by
  cases bs with
  | nil => rfl
  | cons d bs => exact if_neg fun hpair => h hpair.1

lemma normalized_eq_joinPairs {data : Bytes} (h : ¬ [cr, cr] <:+: data) :
    normalized data = (joinPairs data).map crToLf := by
  induction data using text_induction with
  | nil | last => rfl
  | plain b bs hb ih =>
    rw [normalized_plain hb, joinPairs_plain hb, List.map_cons, ← ih ((two_crs_plain hb bs).not.mp h), crToLf,
      if_neg hb]
  | pair bs ih =>
    have hbs : ¬ [cr, cr] <:+: bs := fun hbs => h (hbs.trans (List.suffix_append [cr, lf] bs).isInfix)
    rw [normalized_pair, ih hbs]
    rfl
  | held b bs hb ih =>
    obtain ⟨hcr, hrest⟩ := not_or.mp ((two_crs_iff b bs).not.mp h)
    have hjoin : joinPairs (cr :: b :: bs) = cr :: joinPairs (b :: bs) := if_neg fun hpair => hb hpair.2
    rw [normalized_held hb, hjoin, joinPairs_plain hcr, List.map_cons, List.map_cons, crToLf, crToLf, if_pos rfl,
      if_neg hcr, ih ((two_crs_plain hcr bs).not.mp hrest)]

lemma normalized_of_not_mem {data : Bytes} (h : cr ∉ data) : normalized data = data := by
  induction data with
  | nil => rfl
  | cons b bs ih =>
    rw [List.mem_cons, not_or] at h
    rw [normalized_plain (Ne.symm h.1), ih h.2]

/-- A text comes out the same from any pieces, with all bytes but its line ends as they were. Unless two CRs stand
side by side, every line end of it has become an LF, and there is nothing left to rewrite. -/
theorem line_ends_become_lfs (pieces : List Bytes) :
    hostLines pieces = normalized pieces.flatten ∧
      (hostLines pieces).filter (!isEnd ·) = pieces.flatten.filter (!isEnd ·) ∧
      (cr ∈ hostLines pieces ↔ [cr, cr] <:+: pieces.flatten) ∧
      (¬ [cr, cr] <:+: pieces.flatten →
        hostLines pieces = (joinPairs pieces.flatten).map crToLf ∧
        ∀ again : List Bytes, again.flatten = hostLines pieces → hostLines again = hostLines pieces) := by
  have hwhole := hostLines_eq pieces
  rw [hwhole]
  refine ⟨rfl, filter_normalized _, cr_mem_normalized_iff _,
    fun h => ⟨normalized_eq_joinPairs h, fun again hagain => ?_⟩⟩
  rw [hostLines_eq, hagain]
  exact normalized_of_not_mem ((cr_mem_normalized_iff _).not.mpr h)

example : hostLines [[97, cr], [lf, cr, cr], [lf]] = [97, lf, lf, cr, lf] := by decide

end SaveSet.LineEnds
