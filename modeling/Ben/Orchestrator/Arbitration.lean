import Mathlib.Data.List.Induction
import Ben.Orchestrator.Recover

/-!
# Who recovers a claim, and when

Two daemons that find one issue assigned to both of them read the same log and decide separately.
The log picks one login or none, and what it picks depends on the lowered assignees as a set; a
daemon takes the claim only if its own name is the one picked.  So two daemons can both take it
only if their names are one name in different letter case.

The second half is about the run marker.  Every path to a verdict reads it, and unless it is absent
or its run is confirmed gone, the verdict retains the claim and the workspace.
-/

namespace Ben

open List

section

variable [CaseFold]

/-! ## One name in different letter case -/

/-- Folding, before or after lowering, makes the two texts one. -/
def sameName (p q : String) : Bool :=
  equalFold p q || toLower p == toLower q || equalFold (toLower p) q || equalFold (toLower q) p

section

omit [CaseFold]

lemma lower_of_ascii {c : Char} (hc : c.val < 128) :
    c.toLower.toLower = c.toLower ∧ c.toLower.val < 128 := by
  have hall : ∀ n : Fin 128, (Char.ofNat n).toLower.toLower = (Char.ofNat n).toLower ∧
      (Char.ofNat n).toLower.val < 128 := by decide
  have hn : c.toNat < 128 := UInt32.lt_iff_toNat_lt.1 hc
  simpa using hall ⟨c.toNat, hn⟩

lemma isAscii_asciiLower {s} (hs : IsAscii s) : IsAscii (asciiLower s) := by
  intro c hc
  rw [asciiLower, String.toList_ofList, mem_map] at hc
  obtain ⟨d, hd, rfl⟩ := hc
  exact (lower_of_ascii (hs d hd)).2

lemma asciiLower_asciiLower {s} (hs : IsAscii s) : asciiLower (asciiLower s) = asciiLower s := by
  rw [asciiLower, asciiLower, String.toList_ofList, map_map]
  congr 1
  apply map_congr_left
  intro c hc
  exact (lower_of_ascii (hs c hc)).1

end

/-- For plain names all of it says that the letters are the same. -/
lemma sameName_iff_of_ascii {p q} (hp : IsAscii p) (hq : IsAscii q) :
    sameName p q ↔ asciiLower p = asciiLower q := by
  have hp' := isAscii_asciiLower hp
  have hq' := isAscii_asciiLower hq
  simp only [sameName, CaseFold.toLower_ascii p hp, CaseFold.toLower_ascii q hq,
    CaseFold.equalFold_ascii _ _ hp hq, CaseFold.equalFold_ascii _ _ hp' hq,
    CaseFold.equalFold_ascii _ _ hq' hp, asciiLower_asciiLower hp, asciiLower_asciiLower hq,
    Bool.or_eq_true, beq_iff_eq]
  constructor
  · rintro (((h | h) | h) | h)
    · exact h
    · exact h
    · exact h
    · exact h.symm
  · intro h
    exact .inl (.inl (.inl h))

/-! ## The contenders -/

/-- The lists name the same people, in any order, number and letter case. -/
def SameAssignees (l l' : List String) : Prop :=
  ∀ login, login ∈ l.map toLower ↔ login ∈ l'.map toLower

lemma solePrincipal_iff {assignees : List String} {p} : solePrincipal assignees p ↔
      toLower p ∈ assignees.map toLower ∧ ∀ login ∈ assignees.map toLower, login = toLower p := by
  simp only [solePrincipal, Bool.and_eq_true, beq_iff_eq, contains_iff_mem, mem_dedup]
  rw [and_comm]
  apply and_congr_right
  intro hp
  constructor
  · intro hlen login hlogin
    obtain ⟨x, hx⟩ := length_eq_one_iff.1 hlen
    have hin : ∀ y, y ∈ assignees.map toLower → y = x := by
      intro y hy
      rw [← mem_dedup, hx] at hy
      exact mem_singleton.1 hy
    rw [hin login hlogin, hin _ hp]
  · intro hall
    have hset : (assignees.map toLower).dedup = [toLower p] := by
      apply perm_singleton.1
      rw [perm_ext_iff_of_nodup (nodup_dedup _) (nodup_singleton _)]
      intro login
      rw [mem_dedup, mem_singleton]
      exact ⟨hall login, fun h => h ▸ hp⟩
    rw [hset]
    rfl

/-- The log never mentions the login. -/
def AssignmentReplay.Unknown (replay : AssignmentReplay) (login : String) : Prop :=
  replay.held.lookup login = none ∧ login ∉ replay.seen

/-- What the contenders among some logins are: none at all when the log does not know one of them,
and else those whose assignment stands. -/
def Contend (replay : AssignmentReplay) (logins : List String) :
    Option (List RecoveryContender) → Prop
  | none => ∃ login ∈ logins, replay.Unknown login
  | some cs => (∀ login ∈ logins, ¬ replay.Unknown login) ∧
      ∀ c, c ∈ cs ↔ c.login ∈ logins ∧ replay.held.lookup c.login = some c.assignment

lemma recoveryContenders_contend (replay) (current assignees : List String) :
    Contend replay ((assignees.map toLower).filter (· ∉ current))
      (recoveryContenders replay current assignees) := by
  induction assignees generalizing current with
  | nil => simp [recoveryContenders, Contend]
  | cons assignee rest ih =>
    rw [recoveryContenders, map_cons]
    by_cases hcur : toLower assignee ∈ current
    · rw [if_pos (contains_iff_mem.2 hcur), filter_cons_of_neg (by simpa using hcur)]
      exact ih current
    -- the rest is asked for without this login, which adds nothing to the question
    rw [if_neg (by simpa using hcur), filter_cons_of_pos (by simpa using hcur)]
    have hrest := ih (toLower assignee :: current)
    cases hheld : replay.held.lookup (toLower assignee) with
    | some assigned =>
      cases hcs : recoveryContenders replay (toLower assignee :: current) rest with
      | none =>
        rw [hcs] at hrest
        simp only [Contend, Option.map_none] at hrest ⊢
        grind
      | some cs =>
        rw [hcs] at hrest
        simp only [Contend, Option.map_some, AssignmentReplay.Unknown] at hrest ⊢
        grind [RecoveryContender]
    | none =>
      by_cases hseen : toLower assignee ∈ replay.seen
      · simp only [contains_iff_mem, hseen, if_true]
        cases hcs : recoveryContenders replay (toLower assignee :: current) rest with
        | none =>
          rw [hcs] at hrest
          simp only [Contend] at hrest ⊢
          grind
        | some cs =>
          rw [hcs] at hrest
          simp only [Contend, AssignmentReplay.Unknown] at hrest ⊢
          grind
      · simp only [contains_iff_mem, hseen, if_false]
        exact ⟨_, .head _, hheld, hseen⟩

/-! ## The winner -/

section

omit [CaseFold]

lemma RecoveryAssignment.before_iff {a b : RecoveryAssignment} :
    a.before b ↔ a.at_ < b.at_ ∨ a.at_ = b.at_ ∧ a.id < b.id := by
  unfold before
  split
  · rename_i hne
    simp [hne]
  · rename_i heq
    rw [not_not] at heq
    simp [heq]

/-- Nothing but the instant and the identity tells assignments apart. -/
lemma RecoveryAssignment.eq_of_not_before {a b : RecoveryAssignment} (hab : a.before b = false)
    (hba : b.before a = false) : a = b := by
  rw [← Bool.not_eq_true, before_iff, not_or, not_and] at hab hba
  have hat : a.at_ = b.at_ := le_antisymm (Int.not_lt.1 hba.1) (Int.not_lt.1 hab.1)
  have hid : a.id = b.id := le_antisymm (Int.not_lt.1 (hba.2 hat.symm)) (Int.not_lt.1 (hab.2 hat))
  cases a
  cases b
  simp_all

lemma RecoveryAssignment.before_trans {a b c : RecoveryAssignment} (hab : a.before b)
    (hbc : b.before c) : a.before c := by
  rw [before_iff] at *
  rcases hab with hab | ⟨hab, hid⟩ <;> rcases hbc with hbc | ⟨hbc, hid'⟩
  · exact .inl (lt_trans hab hbc)
  · exact .inl (hbc ▸ hab)
  · exact .inl (hab ▸ hbc)
  · exact .inr ⟨hab.trans hbc, lt_trans hid hid'⟩

lemma RecoveryAssignment.before_irrefl (a : RecoveryAssignment) : a.before a = false := by
  simp [before]

@[simp] lemma RecoveryAssignment.sameOrder_iff {a b : RecoveryAssignment} :
    a.sameOrder b ↔ a = b := by
  obtain ⟨ta, ia⟩ := a
  obtain ⟨tb, ib⟩ := b
  simp [sameOrder]

end

/-- An assignment that some contender stands on and no other one is before. -/
def Earliest (cs : List RecoveryContender) (best : RecoveryAssignment) : Prop :=
  (∃ c ∈ cs, c.assignment = best) ∧ ∀ c ∈ cs, c.assignment.before best = false

section

omit [CaseFold]

lemma earliest_bestAssignment (first rest) :
    Earliest (first :: rest) (bestAssignment first rest) := by
  induction rest using List.reverseRecOn with
  | nil => exact ⟨⟨first, .head _, rfl⟩, by simp [bestAssignment, RecoveryAssignment.before_irrefl]⟩
  | append_singleton rest c ih =>
    obtain ⟨⟨d, hd, hbest⟩, hall⟩ := ih
    have hstep : bestAssignment first (rest ++ [c]) =
        if c.assignment.before (bestAssignment first rest) then c.assignment
        else bestAssignment first rest := by
      rw [bestAssignment, foldl_append]
      rfl
    rw [hstep, ← cons_append]
    split
    · rename_i hlt
      refine ⟨⟨c, by simp, rfl⟩, fun e he => ?_⟩
      obtain he | he := mem_append.1 he
      · by_contra hec
        rw [Bool.not_eq_false] at hec
        exact Bool.noConfusion ((hall e he).symm.trans (RecoveryAssignment.before_trans hec hlt))
      · rw [mem_singleton.1 he]
        exact RecoveryAssignment.before_irrefl _
    · rename_i hnot
      exact ⟨⟨d, mem_append_left _ hd, hbest⟩, forall_mem_append.2
        ⟨hall, forall_mem_singleton.2 (Bool.eq_false_iff.2 hnot)⟩⟩

lemma Earliest.unique {cs cs' b b'} (h : Earliest cs b) (h' : Earliest cs' b')
    (hmem : ∀ c, c ∈ cs ↔ c ∈ cs') : b = b' := by
  obtain ⟨⟨c, hc, rfl⟩, hall⟩ := h
  obtain ⟨⟨c', hc', rfl⟩, hall'⟩ := h'
  exact RecoveryAssignment.eq_of_not_before (hall' c ((hmem c).1 hc)) (hall c' ((hmem c').2 hc'))

/-- The scan for the winner ends with the one login that stands on the best assignment. -/
lemma uniqueWinner_eq_some_iff {best cs} (hne : ∀ c ∈ cs, c.login ≠ "") {w0 w} :
    uniqueWinner best w0 cs = some w ↔
      (∀ c ∈ cs, c.assignment = best → c.login = w) ∧
        (w0 = w ∨ w0 = "" ∧ ∃ c ∈ cs, c.assignment = best) := by
  induction cs generalizing w0 with
  | nil => simp [uniqueWinner]
  | cons c cs ih =>
    have hne' : ∀ d ∈ cs, d.login ≠ "" := fun d hd => hne d (.tail c hd)
    have hc := hne c (.head _)
    have ih1 := @ih hne' w0
    have ih2 := @ih hne' c.login
    rw [uniqueWinner]
    by_cases hsame : c.assignment = best
    · have hso : c.assignment.sameOrder best := RecoveryAssignment.sameOrder_iff.2 hsame
      rw [hso]
      simp only [Bool.not_true, Bool.false_eq_true, if_false]
      by_cases hother : w0 ≠ "" ∧ c.login ≠ w0
      · rw [if_pos hother]
        simp only [reduceCtorEq, false_iff, not_and, not_or]
        intro hall
        have := hall c (.head _) hsame
        grind
      · rw [if_neg hother, ih2]
        grind
    · have hso : c.assignment.sameOrder best = false := by
        rw [← Bool.not_eq_true, RecoveryAssignment.sameOrder_iff]
        exact hsame
      rw [hso]
      simp only [Bool.not_false, if_true]
      rw [ih1]
      grind

end

/-- The login that the log picks among the assignees, if it picks one. -/
def picked (events : List ClaimEvent) (assignees : List String) : Option String :=
  match recoveryContenders (events.foldl AssignmentReplay.step {}) [] assignees with
  | none => none
  | some [] => none
  | some (c :: rest) => uniqueWinner (bestAssignment c rest) "" (c :: rest)

lemma arbitrateRecovery_eq (events assignees p) : arbitrateRecovery events assignees p =
      match picked events assignees with
      | none => .unorderable
      | some winner => if equalFold winner p then .ours else .other := by
  unfold arbitrateRecovery picked
  rcases recoveryContenders (events.foldl AssignmentReplay.step {}) [] assignees with
    _ | _ | ⟨c, rest⟩ <;> rfl

/-- Nobody is assigned under the empty login. -/
lemma lookup_empty (events : List ClaimEvent) :
    (events.foldl AssignmentReplay.step {}).held.lookup "" = none := by
  have hstep (acc : AssignmentReplay) (e : ClaimEvent) (h : acc.held.lookup "" = none) :
      (acc.step e).held.lookup "" = none := by
    simp only [AssignmentReplay.step]
    by_cases hlogin : toLower e.subject = ""
    · rw [if_pos hlogin]
      exact h
    · have hne : ("" : String) ≠ toLower e.subject := fun heq => hlogin heq.symm
      rw [if_neg hlogin]
      cases e.kind with
      | assigned =>
        simp only
        split
        · exact h
        · rw [AList.lookup_insert_ne hne]
          exact h
      | unassigned =>
        rw [AList.lookup_erase_ne hne]
        exact h
      | _ => exact h
  have hrun (events : List ClaimEvent) (acc : AssignmentReplay) (h : acc.held.lookup "" = none) :
      (events.foldl AssignmentReplay.step acc).held.lookup "" = none := by
    induction events generalizing acc with
    | nil => exact h
    | cons e events ih => exact ih _ (hstep acc e h)
  exact hrun events {} rfl

/-- A login is picked because it alone stands on the earliest assignment among the assignees. -/
lemma picked_eq_some_iff {events : List ClaimEvent} {assignees : List String} {w} :
    picked events assignees = some w ↔
      ∃ cs best, Contend (events.foldl AssignmentReplay.step {}) (assignees.map toLower) (some cs) ∧
        Earliest cs best ∧ ∀ c ∈ cs, c.assignment = best → c.login = w := by
  have hcontend := recoveryContenders_contend (events.foldl AssignmentReplay.step {}) [] assignees
  rw [show (assignees.map toLower).filter (· ∉ ([] : List String)) = assignees.map toLower by simp]
    at hcontend
  unfold picked
  cases hcs : recoveryContenders (events.foldl AssignmentReplay.step {}) [] assignees with
  | none =>
    rw [hcs] at hcontend
    simp only [reduceCtorEq, false_iff, not_exists, not_and]
    rintro cs best ⟨hknown, -⟩
    obtain ⟨login, hlogin, hunknown⟩ := hcontend
    exact absurd hunknown (hknown login hlogin)
  | some cs =>
    rw [hcs] at hcontend
    -- two lists of contenders of the same logins have the same members
    have hsame : ∀ cs', Contend (events.foldl AssignmentReplay.step {}) (assignees.map toLower)
        (some cs') → ∀ c, c ∈ cs ↔ c ∈ cs' := fun cs' h c => (hcontend.2 c).trans (h.2 c).symm
    cases cs with
    | nil =>
      simp only [reduceCtorEq, false_iff, not_exists, not_and]
      rintro cs' best hcs' ⟨⟨c, hc, -⟩, -⟩
      have := (hsame cs' hcs' c).2 hc
      cases this
    | cons first rest =>
      have hbest := earliest_bestAssignment first rest
      have hne : ∀ c ∈ first :: rest, c.login ≠ "" := by
        intro c hc heq
        have hlookup := ((hcontend.2 c).1 hc).2
        rw [heq, lookup_empty] at hlookup
        cases hlookup
      simp only
      rw [uniqueWinner_eq_some_iff hne]
      constructor
      · rintro ⟨hall, -⟩
        exact ⟨_, _, hcontend, hbest, hall⟩
      · rintro ⟨cs', best', hcs', hearliest, hall⟩
        obtain rfl := hbest.unique hearliest (hsame cs' hcs')
        exact ⟨fun c hc => hall c ((hsame cs' hcs' c).1 hc), .inr ⟨rfl, hbest.1⟩⟩

omit [CaseFold] in
lemma Contend.congr {replay l l' cs} (h : Contend replay l (some cs)) (hl : ∀ x, x ∈ l ↔ x ∈ l') :
    Contend replay l' (some cs) :=
  ⟨fun x hx => h.1 x ((hl x).2 hx), fun c => by rw [h.2, hl]⟩

/-- What the log picks depends on the assignees only as a set of lowered logins. -/
lemma picked_congr {events l l'} (h : SameAssignees l l') : picked events l = picked events l' := by
  ext w
  rw [picked_eq_some_iff, picked_eq_some_iff]
  constructor
  · rintro ⟨cs, best, hcs, hrest⟩
    exact ⟨cs, best, hcs.congr h, hrest⟩
  · rintro ⟨cs, best, hcs, hrest⟩
    exact ⟨cs, best, hcs.congr fun x => (h x).symm, hrest⟩

/-- The login that is picked is one of the lowered assignees. -/
lemma picked_mem {events} {assignees : List String} {w} (h : picked events assignees = some w) :
    w ∈ assignees.map toLower := by
  obtain ⟨cs, best, hcs, ⟨⟨c, hc, hbest⟩, -⟩, hall⟩ := picked_eq_some_iff.1 h
  rw [← hall c hc hbest]
  exact ((hcs.2 c).1 hc).1

/-! ## Two daemons -/

/-- Recovery goes on with the claim as the principal's own. -/
def ownsRecovered (events : List ClaimEvent) (assignees : List String) (principal : String) :
    Bool :=
  solePrincipal assignees principal || arbitrateRecovery events assignees principal == .ours

lemma arbitrateRecovery_ours {events assignees p}
    (h : arbitrateRecovery events assignees p = .ours) :
    ∃ w, picked events assignees = some w ∧ equalFold w p := by
  rw [arbitrateRecovery_eq] at h
  split at h
  · cases h
  · rename_i w hw
    refine ⟨w, hw, ?_⟩
    by_contra hne
    rw [if_neg hne] at h
    cases h

/-- The sole assignee and the one the log picks have one name. -/
lemma sameName_of_sole {events assignees p q} (hp : solePrincipal assignees p)
    (hq : arbitrateRecovery events assignees q = .ours) :
    equalFold (toLower p) q := by
  obtain ⟨w, hw, hfold⟩ := arbitrateRecovery_ours hq
  rw [← (solePrincipal_iff.1 hp).2 w (picked_mem hw)]
  exact hfold

/-- Two principals that both go on with a claim have one name, whatever the log and the assignees;
and the answer for one principal takes the assignees as a set of names.  For plain names one name
means the same letters. -/
theorem recovery_arbitration (events : List ClaimEvent) (assignees : List String) :
    (∀ p q, sameName p q = false →
      ¬ (ownsRecovered events assignees p = true ∧ ownsRecovered events assignees q = true)) ∧
    (∀ p l, SameAssignees assignees l →
      arbitrateRecovery events assignees p = arbitrateRecovery events l p ∧
      solePrincipal assignees p = solePrincipal l p) ∧
    ∀ p q, IsAscii p → IsAscii q → (sameName p q = true ↔ asciiLower p = asciiLower q) := by
  refine ⟨?_, ?_, fun p q => sameName_iff_of_ascii⟩
  · rintro p q hdiff ⟨hp, hq⟩
    simp only [sameName, Bool.or_eq_false_iff, beq_eq_false_iff_ne] at hdiff
    simp only [ownsRecovered, Bool.or_eq_true, beq_iff_eq] at hp hq
    obtain ⟨⟨⟨hfold, hlower⟩, hleft⟩, hright⟩ := hdiff
    rcases hp with hp | hp <;> rcases hq with hq | hq
    · have hin := (solePrincipal_iff.1 hp).2 _ (solePrincipal_iff.1 hq).1
      exact hlower hin.symm
    · exact Bool.noConfusion (hleft.symm.trans (sameName_of_sole hp hq))
    · exact Bool.noConfusion (hright.symm.trans (sameName_of_sole hq hp))
    · obtain ⟨w, hw, hwp⟩ := arbitrateRecovery_ours hp
      obtain ⟨w', hw', hwq⟩ := arbitrateRecovery_ours hq
      cases hw.symm.trans hw'
      rw [CaseFold.equalFold_comm] at hwp
      exact Bool.noConfusion (hfold.symm.trans (CaseFold.equalFold_trans p w q hwp hwq))
  · intro p l hl
    refine ⟨by rw [arbitrateRecovery_eq, arbitrateRecovery_eq, picked_congr hl], ?_⟩
    rw [Bool.eq_iff_iff, solePrincipal_iff, solePrincipal_iff]
    constructor
    · rintro ⟨h1, h2⟩
      exact ⟨(hl _).1 h1, fun x hx => h2 x ((hl x).2 hx)⟩
    · rintro ⟨h1, h2⟩
      exact ⟨(hl _).2 h1, fun x hx => h2 x ((hl x).1 hx)⟩

end

/-! ## The run marker -/

/-- The claim and the workspace stay as they are: nothing is dispatched, disposed of, held or
released. -/
def RecoveryAction.retains : RecoveryAction → Bool
  | .wait | .blocked | .park => true
  | _ => false

lemma classifyRecovery_retains [CaseFold] (candidate events evidence) {marker} (principal)
    (hmarker : marker ≠ .free) :
    (classifyRecovery candidate events evidence marker principal).action.retains := by
  unfold classifyRecovery
  cases marker with
  | unresolved => rfl
  | free => exact absurd rfl hmarker
  | possiblyLive =>
    dsimp only
    split
    · rename_i hblocked
      rw [hblocked]
      rfl
    · rfl
  | unknownLaunch => rfl

lemma classifyRecoveryClaimBase_retains {anchor : Int} {state readErr markerErr}
    {marker : RunMarker} {running : Bool} {v : RecoveryVerdict}
    (hmarker : markerErr = none → marker.state ≠ .absent)
    (h : classifyRecoveryClaimBase anchor state readErr marker markerErr running = some v) :
    v.action.retains := by
  unfold classifyRecoveryClaimBase at h
  split at h
  · cases h
    rfl
  split at h
  · cases h
  split at h
  · split at h
    · cases h
      rfl
    split at h
    · cases h
      rfl
    · rename_i hread
      rw [Bool.not_eq_true, Option.isSome_eq_false_iff, Option.isNone_iff_eq_none] at hread
      split at h
      · rename_i habsent
        exact absurd habsent (hmarker hread)
      · cases h
        rfl
      · cases h
        rfl
      · cases h
        rfl
  · cases h
    rfl

namespace Orchestrator

variable [Platform]

/-- The marker was read and is absent, or identifies a run that a probe confirmed gone. -/
def RecoveryReads.MarkerClear (reads : RecoveryReads) (cur : Snapshot) : Prop :=
  reads.markerErr = none ∧ (reads.marker.state = .absent ∨
    reads.marker.state = .identified ∧ reads.clearErr = none ∧
      (reads.runGone = some (.ok true) ∨ cur.runtime.resolveRun ∧ reads.resolveRun = .ok true))

omit [Platform] in
/-- A workspace is free only by an absent marker, or by a probe that confirmed the run gone and the
removal of its marker. -/
lemma resolveMarkerValueWith_free {ws} {marker : RunMarker} {probe clearErr}
    (h : resolveMarkerValueWith ws marker probe clearErr = .ok .free) :
    marker.state = .absent ∨
      marker.state = .identified ∧ clearErr = none ∧ probe = some (.ok true) := by
  unfold resolveMarkerValueWith at h
  dsimp only at h
  split at h
  · exact .inl ‹_›
  · cases h
  · rename_i hid
    right
    split at h
    · cases h
    · cases h
    · split at h
      · cases h
      · exact ⟨hid, rfl, rfl⟩
    · cases h
  · cases h

/-- What the facts of a pinned claim take over, and when they find the workspace free. -/
lemma pinnedRecoveryFacts_marker {issue cur} {reads : RecoveryReads} {facts facts' : RecoveryFacts}
    (hread : reads.markerErr = none) (h : pinnedRecoveryFacts issue cur reads facts = .ok facts') :
    facts'.preclassified = facts.preclassified ∧
      (facts'.marker = .free → reads.MarkerClear cur) := by
  have hclear {probe : Option (Except Err Bool)}
      (hmarker : resolveMarkerValueWith facts.workspace reads.marker probe reads.clearErr =
        .ok .free)
      (hprobe : probe = some (.ok true) →
        reads.runGone = some (.ok true) ∨ cur.runtime.resolveRun ∧ reads.resolveRun = .ok true) :
      reads.MarkerClear cur := by
    obtain habsent | ⟨hid, hcleared, hgone⟩ := resolveMarkerValueWith_free hmarker
    · exact ⟨hread, .inl habsent⟩
    · exact ⟨hread, .inr ⟨hid, hcleared, hprobe hgone⟩⟩
  unfold pinnedRecoveryFacts at h
  split at h
  · cases h
  rename_i marker hmarker
  have hfirst : marker = .free → reads.MarkerClear cur := fun hfree => hclear (hfree ▸ hmarker) .inl
  dsimp only at h
  split at h
  · cases h
    exact ⟨rfl, hfirst⟩
  split at h
  · cases h
  split at h
  · cases h
    exact ⟨rfl, hfirst⟩
  split at h
  · rename_i hprobe
    split at h
    · cases h
    · rename_i marker' hmarker'
      cases h
      refine ⟨rfl, fun hfree => ?_⟩
      dsimp only at hfree
      rw [hfree] at hmarker'
      exact hclear hmarker' fun hgone => .inr ⟨hprobe.2, Option.some.inj hgone⟩
  · cases h
    exact ⟨rfl, hfirst⟩

/-- The facts of a candidate whose workspace is not shown to be free. -/
lemma recoveryFacts_marker {issue cur} {reads : RecoveryReads} {facts : RecoveryFacts}
    (hmarker : ¬ reads.MarkerClear cur) (h : recoveryFacts issue cur reads = .ok facts) :
    match facts.preclassified with
    | some v => v.action.retains
    | none => facts.marker ≠ .free := by
  unfold recoveryFacts at h
  split at h
  · cases h
  dsimp only at h
  split at h
  · split at h
    · cases h
    split at h
    · cases h
    rename_i hread
    split at h
    · cases h
    · rename_i marker hresolved
      cases h
      rintro rfl
      refine hmarker ⟨hread, ?_⟩
      obtain habsent | ⟨hid, hcleared, hgone⟩ := resolveMarkerValueWith_free hresolved
      · exact .inl habsent
      · exact .inr ⟨hid, hcleared, .inl hgone⟩
  · split at h
    · rename_i hbase
      cases h
      exact classifyRecoveryClaimBase_retains
        (fun hread habsent => hmarker ⟨hread, .inl habsent⟩) hbase
    · split at h
      · cases h
      · cases h
        rfl
      · cases h
        rfl
      · rename_i hread _
        split at h
        · cases h
          rfl
        · obtain ⟨hpre, hfree⟩ := pinnedRecoveryFacts_marker hread h
          rw [hpre]
          exact fun heq => hmarker (hfree heq)

/-- While the run marker does not show the workspace to be free, every classifier and the verdict
they are put together to retain the claim and the workspace. -/
theorem recovery_retains : (∀ candidate events evidence marker principal, marker ≠ .free →
      (classifyRecovery candidate events evidence marker principal).action.retains = true) ∧
    (∀ anchor state readErr marker markerErr running v,
      (markerErr = none → marker.state ≠ .absent) →
      classifyRecoveryClaimBase anchor state readErr marker markerErr running = some v →
      v.action.retains = true) ∧
    ∀ issue cur reads v facts, ¬ RecoveryReads.MarkerClear reads cur →
      recoveryVerdictOf issue cur reads = .ok (v, facts) → v.action.retains = true := by
  refine ⟨fun candidate events evidence marker principal =>
      classifyRecovery_retains candidate events evidence principal,
    fun _ _ _ _ _ _ _ => classifyRecoveryClaimBase_retains, ?_⟩
  intro issue cur reads v facts' hmarker h
  unfold recoveryVerdictOf at h
  split at h
  · cases h
  rename_i facts hfacts
  have hretains := recoveryFacts_marker hmarker hfacts
  unfold classify at h
  split at h
  · rename_i verdict hpre
    rw [hpre] at hretains
    cases h
    exact hretains
  · rename_i hpre
    rw [hpre] at hretains
    dsimp only at h
    split at h
    · cases h
      exact classifyRecovery_retains _ _ _ _ hretains
    · split at h
      · cases h
      · cases h
        exact classifyRecovery_retains _ _ _ _ hretains

end Orchestrator

end Ben
