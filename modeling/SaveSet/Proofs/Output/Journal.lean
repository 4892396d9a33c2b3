import Mathlib.Tactic.Lemma
import SaveSet.Output.Sink

namespace SaveSet

inductive Call where
  | opened (request : OpenRequest) (handle : Handle)
  | refused (request : OpenRequest) (fault : Fault)
  | written (handle : Handle) (data : Bytes) (fault : Option Fault)
  | closed (handle : Handle) (fault : Option Fault)
  deriving DecidableEq, Repr

structure Journaled (σ : Type) where
  sink : σ
  calls : List Call

namespace Journaled

variable {σ : Type} [Sink σ]

def start (s : σ) : Journaled σ := ⟨s, []⟩

def openFile (r : OpenRequest) (s : Journaled σ) : Except Fault Handle × Journaled σ :=
  match Sink.openFile r s.sink with
  | (.ok h, t) => (.ok h, ⟨t, s.calls ++ [.opened r h]⟩)
  | (.error f, t) => (.error f, ⟨t, s.calls ++ [.refused r f]⟩)

def write (h : Handle) (data : Bytes) (s : Journaled σ) : Outcome (Journaled σ) :=
  let o := Sink.write h data s.sink
  ⟨⟨o.state, s.calls ++ [.written h data o.fault]⟩, o.fault⟩

def closeFile (h : Handle) (s : Journaled σ) : Outcome (Journaled σ) :=
  let o := Sink.closeFile h s.sink
  ⟨⟨o.state, s.calls ++ [.closed h o.fault]⟩, o.fault⟩

instance : Sink (Journaled σ) where
  openFile := openFile
  write := write
  closeFile := closeFile
  overwritten s := Sink.overwritten s.sink

end Journaled

namespace Call

def opened? : Call → Option Handle
  | opened _ h => some h
  | refused _ _ | written _ _ _ | closed _ _ => none

def closed? : Call → Option Handle
  | closed h _ => some h
  | opened _ _ | refused _ _ | written _ _ _ => none

def after (held : List Handle) : Call → List Handle
  | opened _ h => held ++ [h]
  | closed h _ => held.erase h
  | refused _ _ | written _ _ _ => held

end Call

def outstanding (calls : List Call) : List Handle := calls.foldl Call.after []

lemma outstanding_snoc (calls : List Call) (c : Call) :
    outstanding (calls ++ [c]) = c.after (outstanding calls) := by
  simp [outstanding]

/-- No file is opened before the end of the last one, and each is written to and closed while it is open. -/
structure Disciplined (calls : List Call) : Prop where
  one_at_most : ∀ before later, calls = before ++ later → (outstanding before).length ≤ 1
  written : ∀ before h data fault later, calls = before ++ .written h data fault :: later → outstanding before = [h]
  closed : ∀ before h fault later, calls = before ++ .closed h fault :: later → outstanding before = [h]
  each_once : calls.filterMap Call.opened? = calls.filterMap Call.closed?
  none_left : outstanding calls = []

inductive Orderly : Option Handle → List Call → Prop where
  | start : Orderly none []
  | refused {calls : List Call} (request : OpenRequest) (fault : Fault) (before : Orderly none calls) :
      Orderly none (calls ++ [.refused request fault])
  | opened {calls : List Call} (request : OpenRequest) (handle : Handle) (before : Orderly none calls) :
      Orderly (some handle) (calls ++ [.opened request handle])
  | written {calls : List Call} {handle : Handle} (data : Bytes) (fault : Option Fault)
      (before : Orderly (some handle) calls) : Orderly (some handle) (calls ++ [.written handle data fault])
  | closed {calls : List Call} {handle : Handle} (fault : Option Fault) (before : Orderly (some handle) calls) :
      Orderly none (calls ++ [.closed handle fault])

def Call.Follows (calls : List Call) (held : Option Handle) : Call → Prop
  | refused _ _ => held = none ∧ Orderly none calls
  | opened _ handle => held = some handle ∧ Orderly none calls
  | written handle _ _ => held = some handle ∧ Orderly (some handle) calls
  | closed handle _ => held = none ∧ Orderly (some handle) calls

namespace Orderly

variable {held : Option Handle} {calls : List Call}

lemma outstanding_eq (h : Orderly held calls) : outstanding calls = held.toList := by
  induction h with
  | start => rfl
  | refused request fault before ih => simpa [outstanding_snoc, Call.after] using ih
  | opened request handle before ih => simp [outstanding_snoc, ih, Call.after]
  | written data fault before ih => simpa [outstanding_snoc, Call.after] using ih
  | closed fault before ih => simp [outstanding_snoc, ih, Call.after]

lemma opened_eq (h : Orderly held calls) :
    calls.filterMap Call.opened? = calls.filterMap Call.closed? ++ held.toList := by
  induction h with
  | start => rfl
  | refused request fault before ih => simpa [List.filterMap_cons, Call.opened?, Call.closed?] using ih
  | opened request handle before ih => simpa [List.filterMap_cons, Call.opened?, Call.closed?] using ih
  | written data fault before ih => simpa [List.filterMap_cons, Call.opened?, Call.closed?] using ih
  | closed fault before ih => simpa [List.filterMap_cons, Call.opened?, Call.closed?] using ih

lemma follows {c : Call} (h : Orderly held (calls ++ [c])) : c.Follows calls held := by
  generalize hc : calls ++ [c] = all at h
  cases h with
  | start => simp at hc
  | refused request fault before =>
    obtain ⟨rfl, hlast⟩ := List.append_inj' hc rfl
    cases hlast
    exact ⟨rfl, before⟩
  | opened request handle before =>
    obtain ⟨rfl, hlast⟩ := List.append_inj' hc rfl
    cases hlast
    exact ⟨rfl, before⟩
  | written data fault before =>
    obtain ⟨rfl, hlast⟩ := List.append_inj' hc rfl
    cases hlast
    exact ⟨rfl, before⟩
  | closed fault before =>
    obtain ⟨rfl, hlast⟩ := List.append_inj' hc rfl
    cases hlast
    exact ⟨rfl, before⟩

lemma of_append {later : List Call} (h : Orderly held (calls ++ later)) : ∃ held', Orderly held' calls := by
  induction later generalizing calls with
  | nil => exact ⟨held, by simpa using h⟩
  | cons c later ih =>
    have hnext : ∃ held', Orderly held' (calls ++ [c]) := by
      apply ih
      simpa using h
    obtain ⟨held', hnext⟩ := hnext
    cases c with
    | refused request fault => exact ⟨_, hnext.follows.2⟩
    | opened request handle => exact ⟨_, hnext.follows.2⟩
    | written handle data fault => exact ⟨_, hnext.follows.2⟩
    | closed handle fault => exact ⟨_, hnext.follows.2⟩

lemma disciplined (h : Orderly none calls) : Disciplined calls where
  one_at_most before later hc := by
    obtain ⟨held, hbefore⟩ := of_append (hc ▸ h)
    rw [hbefore.outstanding_eq]
    cases held <;> simp
  written before handle data fault later hc := by
    rw [hc, List.append_cons] at h
    obtain ⟨held, hbefore⟩ := h.of_append
    exact hbefore.follows.2.outstanding_eq
  closed before handle fault later hc := by
    rw [hc, List.append_cons] at h
    obtain ⟨held, hbefore⟩ := h.of_append
    exact hbefore.follows.2.outstanding_eq
  each_once := by simpa using h.opened_eq
  none_left := h.outstanding_eq

end Orderly

end SaveSet
