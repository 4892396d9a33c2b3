import SaveSet.Content.Feed
import SaveSet.Proofs.Content.Records

namespace SaveSet

namespace Content

def absorb (writing : Bool) (c : Content) (payload : Bytes) : Emission Content :=
  if c.settled then .silent c else c.feed writing payload

def absorbAll (writing : Bool) : List Bytes → Content → Emission Content
  | [], c => .silent c
  | p :: ps, c => (c.absorb writing p).andThen (absorbAll writing ps)

def output (c : Content) (payloads : List Bytes) : Bytes :=
  ((absorbAll true payloads c).andThen finish).bytes

def reached (c : Content) (payloads : List Bytes) : Nat := (absorbAll true payloads c).value.position

def moved (c : Content) (n : Nat) : Content := { c with position := c.position + n }

variable {writing : Bool} {c : Content}

lemma kept_feed (h : Decided writing c) (payload : Bytes) :
    (c.feed writing payload).value.reset = c.reset ∧ (c.feed writing payload).value.settled = c.settled := by
  rw [feed]
  split
  · exact ⟨rfl, rfl⟩
  · split
    · have hkeeps := keeps_emit writing c (payload.take c.remaining)
      exact ⟨hkeeps.reset h, hkeeps.settled h⟩
    · split
      · have hkeeps := keeps_takeUp writing c payload
        exact ⟨hkeeps.reset h, hkeeps.settled h⟩
      · exact ⟨rfl, rfl⟩

lemma reset_feed (h : Decided writing c) (payload : Bytes) : (c.feed writing payload).value.reset = c.reset :=
  (kept_feed h payload).1

lemma settled_feed (h : Decided writing c) (payload : Bytes) : (c.feed writing payload).value.settled = c.settled :=
  (kept_feed h payload).2

lemma absorb_unsettled (h : c.settled = false) (writing : Bool) (payload : Bytes) :
    c.absorb writing payload = c.feed writing payload := by
  rw [absorb, h, if_neg Bool.false_ne_true]

lemma absorbAll_cons (h : c.settled = false) (writing : Bool) (p : Bytes) (ps : List Bytes) :
    absorbAll writing (p :: ps) c = (c.feed writing p).andThen (absorbAll writing ps) := by
  rw [absorbAll, absorb_unsettled h]

lemma reset_absorbAll (payloads : List Bytes) (c : Content) :
    (absorbAll true payloads c).value.reset = c.reset := by
  induction payloads generalizing c with
  | nil => rfl
  | cons p ps ih =>
    rw [absorbAll, Emission.value_andThen, ih, absorb]
    split
    · rfl
    · exact reset_feed (Or.inl rfl) p

lemma reset_finish (c : Content) : c.finish.value.reset = c.reset := rfl

end Content

end SaveSet
