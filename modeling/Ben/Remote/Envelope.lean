import Ben.Review.Text

/-!
# Events of a remote run

A backend numbers the events of a run from one.  What a daemon compares when an event is delivered
again is a digest of everything it carries but its number.  The hash comes from a class; the bytes
it is applied to are spelled out, and two different events never spell the same bytes.
-/

namespace Ben.Remote

open Ben.Review (Text)

/-- The hash that digests are made of. -/
class Hashing where
  sum256 : Text → Text

export Hashing (sum256)

/-- The byte stream that an output event belongs to. -/
inductive Stream where
  | control
  | stdout
  | stderr
  deriving DecidableEq

/-- The number a stream is stored and hashed as. -/
def Stream.byte : Stream → UInt8
  | .control => 0
  | .stdout => 1
  | .stderr => 2

/-- One durable backend event.  The payload is an arbitrary chunk of bytes. -/
structure Envelope where
  seq : Int
  stream : Stream
  payload : Text
  truncated : Bool
  deriving DecidableEq

/-- What is hashed of an event. -/
def Envelope.bytes (env : Envelope) : Text :=
  env.stream.byte :: (if env.truncated then 1 else 0) :: env.payload

def envelopeDigest [Hashing] (env : Envelope) : Text := sum256 env.bytes

/-- Two events carry the same, whatever their numbers. -/
def Envelope.SameContent (e1 e2 : Envelope) : Prop :=
  e1.stream = e2.stream ∧ e1.payload = e2.payload ∧ e1.truncated = e2.truncated

/-- Two different texts with one digest. -/
def Collide [Hashing] (a b : Text) : Prop := a ≠ b ∧ sum256 a = sum256 b

lemma Envelope.bytes_eq_iff {e1 e2 : Envelope} : e1.bytes = e2.bytes ↔ e1.SameContent e2 := by
  obtain ⟨n1, s1, p1, t1⟩ := e1
  obtain ⟨n2, s2, p2, t2⟩ := e2
  constructor
  · intro h
    rw [bytes, bytes, List.cons.injEq, List.cons.injEq] at h
    refine ⟨?_, h.2.2, ?_⟩
    · revert h
      cases s1 <;> cases s2 <;> simp [Stream.byte]
    · have hbit := h.2.1
      cases t1 <;> cases t2 <;> simp_all
  · rintro ⟨hs, hp, ht⟩
    simp_all [bytes]

/-- Digests agree on the same content, and on different content only by a collision. -/
lemma sameContent_or_collide [Hashing] {e1 e2 : Envelope}
    (h : envelopeDigest e1 = envelopeDigest e2) :
    e1.SameContent e2 ∨ Collide e1.bytes e2.bytes := by
  by_cases hb : e1.bytes = e2.bytes
  · exact .inl (Envelope.bytes_eq_iff.1 hb)
  · exact .inr ⟨hb, h⟩

lemma Envelope.SameContent.digest_eq [Hashing] {e1 e2 : Envelope} (h : e1.SameContent e2) :
    envelopeDigest e1 = envelopeDigest e2 := by
  rw [envelopeDigest, envelopeDigest, Envelope.bytes_eq_iff.2 h]

/-- A closed range of events that were accepted as lost. -/
structure EventGap where
  fromSeq : Int
  toSeq : Int
  deriving DecidableEq

/-- The range names at least one event that a log can have. -/
def EventGap.valid (g : EventGap) : Bool := g.fromSeq ≥ 1 && g.toSeq ≥ g.fromSeq

def EventGap.contains (g : EventGap) (seq : Int) : Bool := seq ≥ g.fromSeq && seq ≤ g.toSeq

@[simp] lemma EventGap.valid_iff {g : EventGap} :
    g.valid ↔ 1 ≤ g.fromSeq ∧ g.fromSeq ≤ g.toSeq := by
  simp [EventGap.valid]

@[simp] lemma EventGap.contains_iff {g : EventGap} {n : Int} :
    g.contains n ↔ g.fromSeq ≤ n ∧ n ≤ g.toSeq := by
  simp [EventGap.contains]

end Ben.Remote
