import SaveSet.Bytes

/-! Masks: patterns over file specifications. Matching is on bytes and ignores the case of ASCII
letters; only asterisks and question marks are special. -/

namespace SaveSet

inductive MaskToken where
  | literal (b : UInt8)
  | anyByte
  | anyBytes
  | inner
  | trailing
  deriving DecidableEq, Repr

structure Mask where
  leading : Bool
  tokens : List MaskToken
  deriving DecidableEq, Repr

namespace Mask

def angled (s : String) : List Char :=
  s.toList.map fun c => if c = '[' then '<' else if c = ']' then '>' else c

def utf8 (cs : List Char) : Bytes := cs.flatMap String.utf8EncodeChar

def bytesOf (s : String) : Bytes := utf8 (angled s)

def inClass (brace : Char) (cs : List Char) : List Char :=
  cs.flatMap fun c => if c = brace then ['[', c, ']'] else [c]

def globText (mask : String) : List Char := inClass '}' (inClass '{' (angled mask))

def star : UInt8 := 42
def query : UInt8 := 63
def slash : UInt8 := 47
def classStart : UInt8 := 91
def classEnd : UInt8 := 93

def isBrace (b : UInt8) : Bool := b == 123 || b == 125

def standsAlone (b : UInt8) : Bool := b != classEnd && b != 33 && b != 94

def closeComponent (last : Bool) : List MaskToken → List MaskToken
  | _ :: before => (if last then .trailing else .inner) :: before
  | [] => []

/-- Reads a glob after `before`, the tokens so far, last first, and the byte `previous`. A backslash is a byte like
any other. Groups, and classes of anything but one byte, are not read. -/
def scan (leading : Bool) (before : List MaskToken) (previous : Option UInt8) : Bytes → Option Mask
  | [] => some ⟨leading, before.reverse⟩
  | b :: rest =>
    if b = query then scan leading (.anyByte :: before) (some b) rest
    else if b = classStart then match rest with
      | c :: d :: rest =>
        if standsAlone c ∧ d = classEnd then scan leading (.literal c :: before) (some d) rest else none
      | _ => none
    else if isBrace b then none
    else if b ≠ star then scan leading (.literal b :: before) (some b) rest
    else match rest with
      | [] => scan leading (.anyBytes :: before) (some b) []
      | c :: rest =>
        if c ≠ star then scan leading (.anyBytes :: before) (some b) (c :: rest)
        else if !leading && before.isEmpty then
          match rest with
          | [] => scan true [] (some c) []
          | d :: rest =>
            if d = slash then scan true [] (some d) rest
            else scan leading [.anyBytes, .anyBytes] (some c) (d :: rest)
        else if previous ≠ some slash then
          scan leading (.anyBytes :: .anyBytes :: before) (some c) rest
        else match rest with
          | [] => scan leading (closeComponent true before) (some c) []
          | d :: rest =>
            if d = slash then scan leading (closeComponent false before) (some d) rest
            else scan leading (.anyBytes :: .anyBytes :: before) (some c) (d :: rest)
termination_by bs => bs.length

def read (glob : List Char) : Option Mask := scan false [] none (utf8 glob)

def quoteByte (b : UInt8) : Bytes := if isBrace b then [classStart, b, classEnd] else [b]

theorem toNat_of_mem_utf8 {c : Char} {b : UInt8} (hb : b ∈ String.utf8EncodeChar c) (h : b.toNat < 128) :
    c.toNat = b.toNat := by
  have hcode : c.val.toNat = c.toNat := rfl
  rw [String.utf8EncodeChar, hcode] at hb
  split at hb
  · obtain rfl := List.mem_singleton.mp hb
    rw [UInt8.toNat_ofNat']
    omega
  -- All bytes of a longer character have their highest bit set.
  split at hb
  · simp only [List.mem_cons, List.not_mem_nil, or_false] at hb
    rcases hb with rfl | rfl <;> rw [UInt8.toNat_ofNat'] at h <;> omega
  split at hb
  · simp only [List.mem_cons, List.not_mem_nil, or_false] at hb
    rcases hb with rfl | rfl | rfl <;> rw [UInt8.toNat_ofNat'] at h <;> omega
  · simp only [List.mem_cons, List.not_mem_nil, or_false] at hb
    rcases hb with rfl | rfl | rfl | rfl <;> rw [UInt8.toNat_ofNat'] at h <;> omega

theorem eq_of_mem_utf8 {c : Char} (d : Char) (hd : d.toNat < 128)
    (h : UInt8.ofNat d.toNat ∈ String.utf8EncodeChar c) :
    c = d := by
  have hb : (UInt8.ofNat d.toNat).toNat = d.toNat := by
    rw [UInt8.toNat_ofNat']
    omega
  exact Char.toNat_inj.mp ((toNat_of_mem_utf8 h (by omega)).trans hb)

theorem classStart_notMem (s : String) : classStart ∉ bytesOf s := by
  intro h
  obtain ⟨c, hc, hb⟩ := List.mem_flatMap.mp h
  obtain rfl : c = '[' := eq_of_mem_utf8 '[' (by decide) hb
  obtain ⟨d, -, hd⟩ := List.mem_map.mp hc
  split at hd
  · exact absurd hd (by decide)
  · split at hd
    · exact absurd hd (by decide)
    · contradiction

theorem flatMap_quoteByte {bs : Bytes} (h : ∀ b ∈ bs, isBrace b = false) : bs.flatMap quoteByte = bs := by
  induction bs with
  | nil => rfl
  | cons b bs ih =>
    have hb := h b List.mem_cons_self
    rw [List.flatMap_cons, ih fun c hc => h c (List.mem_cons_of_mem b hc), quoteByte, hb]
    rfl

theorem utf8_globText (mask : String) : utf8 (globText mask) = (bytesOf mask).flatMap quoteByte := by
  rw [globText, utf8, inClass, inClass, bytesOf, utf8, List.flatMap_assoc, List.flatMap_assoc, List.flatMap_assoc]
  congr 1
  funext c
  by_cases hopen : c = '{'
  · subst hopen
    rfl
  by_cases hclose : c = '}'
  · subst hclose
    rfl
  rw [if_neg hopen, flatMap_quoteByte]
  · simp [hclose]
  · intro b hb
    rw [isBrace, Bool.or_eq_false_iff, beq_eq_false_iff_ne, beq_eq_false_iff_ne]
    constructor <;> rintro rfl
    · exact hopen (eq_of_mem_utf8 '{' (by decide) hb)
    · exact hclose (eq_of_mem_utf8 '}' (by decide) hb)

inductive Quoted : Bytes → Prop
  | nil : Quoted []
  | byte {b : UInt8} {bs : Bytes} (h : b ≠ classStart) (hb : isBrace b = false) (hbs : Quoted bs) : Quoted (b :: bs)
  | brace {b : UInt8} {bs : Bytes} (hb : isBrace b = true) (hbs : Quoted bs) :
    Quoted (classStart :: b :: classEnd :: bs)

theorem quoted_flatMap {bs : Bytes} (h : classStart ∉ bs) : Quoted (bs.flatMap quoteByte) := by
  induction bs with
  | nil => exact .nil
  | cons b bs ih =>
    obtain ⟨hne, hmem⟩ := not_or.mp fun hor => h (List.mem_cons.mpr hor)
    rw [List.flatMap_cons, quoteByte]
    cases hb : isBrace b with
    | true => exact .brace hb (ih hmem)
    | false => exact .byte (Ne.symm hne) hb (ih hmem)

theorem Quoted.tail {b : UInt8} {bs : Bytes} (h : Quoted (b :: bs)) (hb : b ≠ classStart) : Quoted bs := by
  cases h with
  | byte _ _ hbs => exact hbs
  | brace => exact absurd rfl hb

theorem Quoted.exists_class {bs : Bytes} (h : Quoted (classStart :: bs)) :
    ∃ b rest, bs = b :: classEnd :: rest ∧ standsAlone b = true ∧ Quoted rest := by
  cases h with
  | byte h => exact absurd rfl h
  | @brace b rest hb hrest =>
    rw [isBrace, Bool.or_eq_true, beq_iff_eq, beq_iff_eq] at hb
    refine ⟨b, rest, rfl, ?_, hrest⟩
    rcases hb with rfl | rfl <;> rfl

theorem isSome_scan {bs : Bytes} (h : Quoted bs) (leading : Bool) (before : List MaskToken) (previous : Option UInt8) :
    (scan leading before previous bs).isSome = true := by
  fun_induction scan leading before previous bs with
  | case1 => rfl
  | case3 _ _ _ _ _ _ _ _ ih =>
    obtain ⟨_, _, heq, -, hrest⟩ := h.exists_class
    cases heq
    exact ih hrest
  | case4 _ _ _ _ _ _ hclass =>
    obtain ⟨_, _, heq, hb, -⟩ := h.exists_class
    cases heq
    exact absurd ⟨hb, rfl⟩ hclass
  | case5 _ _ _ _ hshort =>
    obtain ⟨_, _, heq, -, -⟩ := h.exists_class
    exact absurd heq (hshort _ _ _)
  | case6 _ _ _ _ _ _ hstart hbrace =>
    cases h with
    | byte _ hb => exact absurd hbrace (Bool.eq_false_iff.mp hb)
    | brace => exact absurd rfl hstart
  -- What is read behind a byte that starts no class is quoted too.
  | _ => grind [Quoted.nil, Quoted.tail, star, query, slash, classStart]

theorem isSome_read (mask : String) : (read (globText mask)).isSome = true := by
  rw [read, utf8_globText]
  exact isSome_scan (quoted_flatMap (classStart_notMem mask)) _ _ _

def compile (mask : String) : Mask := (read (globText mask)).get (isSome_read mask)

def foldCase (b : UInt8) : UInt8 := if 65 ≤ b ∧ b ≤ 90 then b + 32 else b

def suffixes (s : Bytes) : List Bytes := s.scanl (fun t _ => t.tail) s

def pastSlash (ss : List Bytes) : List Bytes :=
  ss.filterMap fun s => match s with
    | b :: bs => if b = slash then some bs else none
    | [] => none

def pastFolders (s : Bytes) : List Bytes := s :: pastSlash (suffixes s)

end Mask

namespace MaskToken

open Mask

/-- What can be left after one token, if before it one of `ss` is left. Both stand longest first, and
each is an end of the one before, so that whatever a run of any bytes leaves, it leaves of the first. -/
def rests (ss : List Bytes) : MaskToken → List Bytes
  | literal b => ss.filterMap fun s => match s with
    | c :: cs => if foldCase c = foldCase b then some cs else none
    | [] => none
  | anyByte => ss.filterMap List.tail?
  | anyBytes => (ss.head?.map suffixes).getD []
  | inner => ((pastSlash ss).head?.map pastFolders).getD []
  | trailing => ((pastSlash ss).head?.map suffixes).getD []

end MaskToken

namespace Mask

def accepts (m : Mask) (name : String) : Bool :=
  let s := bytesOf name
  (m.leading && m.tokens.isEmpty) ||
    (m.tokens.foldl MaskToken.rests (if m.leading then pastFolders s else [s])).contains []

end Mask

end SaveSet
