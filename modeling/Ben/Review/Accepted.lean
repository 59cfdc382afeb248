import Ben.Review.RoundTrip
import Ben.Review.Milestone

/-!
# What is accepted is well formed

Every marker a parser returns has fields the parser would accept again: ids within their range and
full commits.  With the round trip this makes the markers of the controller's own comments exactly
the ones it wrote, also when they were copied from markers it had read.
-/

namespace Ben.Review

variable [Library] {body : Text}

lemma isId_of_id {f : Fields} {key} {n : Int} (h : f.id key = .ok n) : IsId n := by
  unfold Fields.id at h
  split at h
  · cases h
  split at h
  · rename_i v hread
    split at h
    · cases h
    · rename_i hpos
      cases h
      exact ⟨not_le.1 hpos, Decimal.readInt_lt hread⟩
  · cases h

lemma isFullSHA_of_sha {f : Fields} {key sha} (h : f.sha key = .ok sha) : isFullSHA sha := by
  unfold Fields.sha at h
  dsimp only at h
  split at h
  · rename_i hsha
    cases h
    exact hsha
  · cases h

/-- A review marker that was read is well formed, its approval apart where the field is absent. -/
lemma accepted_of_parseReviewMarker {m : ReviewMarker} (h : parseReviewMarker body = .ok m) :
    IsId m.occurrence ∧ IsId m.claim ∧ (m.approval = 0 ∨ IsId m.approval) ∧
      isFullSHA m.head := by
  unfold parseReviewMarker at h
  obtain ⟨f, -, h⟩ := bind_eq_ok_iff.1 h
  obtain ⟨occurrence, hocc, h⟩ := bind_eq_ok_iff.1 h
  obtain ⟨claim, hclaim, h⟩ := bind_eq_ok_iff.1 h
  dsimp only at h
  split at h
  · obtain ⟨approval, happ, h⟩ := bind_eq_ok_iff.1 h
    obtain ⟨head, hhead, h⟩ := bind_eq_ok_iff.1 h
    obtain ⟨base, -, h⟩ := bind_eq_ok_iff.1 h
    obtain ⟨profile, -, h⟩ := bind_eq_ok_iff.1 h
    split at h
    · cases h
      exact ⟨isId_of_id hocc, isId_of_id hclaim, .inr (isId_of_id happ), isFullSHA_of_sha hhead⟩
    · cases h
  · obtain ⟨approval, happ, h⟩ := bind_eq_ok_iff.1 h
    obtain ⟨head, hhead, h⟩ := bind_eq_ok_iff.1 h
    obtain ⟨base, -, h⟩ := bind_eq_ok_iff.1 h
    obtain ⟨profile, -, h⟩ := bind_eq_ok_iff.1 h
    split at h
    · cases h
      exact ⟨isId_of_id hocc, isId_of_id hclaim, .inl (Except.ok.inj happ).symm,
        isFullSHA_of_sha hhead⟩
    · cases h

/-- A route intent that was read is well formed. -/
lemma wellFormed_of_parseRouteIntentMarker {m : RouteIntentMarker}
    (h : parseRouteIntentMarker body = .ok m) : m.WellFormed := by
  unfold parseRouteIntentMarker at h
  obtain ⟨f, -, h⟩ := bind_eq_ok_iff.1 h
  obtain ⟨occurrence, hocc, h⟩ := bind_eq_ok_iff.1 h
  obtain ⟨claim, hclaim, h⟩ := bind_eq_ok_iff.1 h
  obtain ⟨approval, happ, h⟩ := bind_eq_ok_iff.1 h
  obtain ⟨head, hhead, h⟩ := bind_eq_ok_iff.1 h
  split at h
  · rename_i o ho
    cases h
    refine ⟨isId_of_id hocc, isId_of_id hclaim, isId_of_id happ, isFullSHA_of_sha hhead, ?_⟩
    rintro rfl
    exact absurd (List.mem_of_find?_eq_some ho) (by decide)
  · cases h

/-- An occurrence that was read is an id. -/
lemma isId_of_publishedOccurrence {n : Int} (h : publishedOccurrence body = .ok n) : IsId n := by
  unfold publishedOccurrence at h
  obtain ⟨f, -, h⟩ := bind_eq_ok_iff.1 h
  split at h
  · cases h
  · exact isId_of_id h

end Ben.Review
