import Mathlib.Data.List.TakeWhile
import Ben.Lib.Replay
import Ben.Review.Epoch

/-!
# What a replay of the log establishes

The loops over the change log are read here as statements about the log itself: the anchor that
stood at an occurrence is the one of the log up to it (`approvalEpochAtOccurrence_eq_some_iff`), an
approval that was found neither removed nor replaced still stands at the end of the log
(`stands_of_approvalChangesAfterEpoch`), and a claim that was handed back is not the current one
(`claimEpoch_ne_of_unassignedAfterClaim`).
-/

namespace Ben.Review

open List

variable [Library] {required : List Text} {events : List Event} {principal : Text}
  {occurrence anchor : Int}

/-! ## Anchors -/

/-- The applications standing after a log. -/
def standing (required : List Text) (events : List Event) : List Int :=
  events.foldl (labelStep required) (noLabels required)

lemma standing_append_singleton (events ev) : standing required (events ++ [ev]) =
    labelStep required (standing required events) ev := by
  rw [standing, foldl_append, foldl_cons, foldl_nil, standing]

/-- The anchor of the complete required set standing after a log. -/
def standingAnchor (required : List Text) (events : List Event) : Option Int :=
  completeApprovalEpoch (standing required events)

section

omit [Library]

lemma completeLoop_eq_some {epochs} {least : Int} (h : completeLoop epochs least = some anchor) :
    (∀ e ∈ epochs, 0 < e ∧ e ≤ anchor) ∧ least ≤ anchor ∧ (anchor = least ∨ anchor ∈ epochs) := by
  induction epochs generalizing least with
  | nil =>
    rw [completeLoop, Option.some.injEq] at h
    simp [h]
  | cons e epochs ih =>
    rw [completeLoop] at h
    split at h
    · cases h
    · rename_i hpos
      obtain ⟨hall, hleast, hmem⟩ := ih h
      split at hleast <;> rename_i hgt
      · rw [if_pos hgt] at hmem
        refine ⟨fun x hx => ?_, by omega, ?_⟩
        · obtain rfl | hx := mem_cons.1 hx
          · omega
          · exact hall x hx
        · obtain rfl | hmem := hmem
          · exact .inr (.head _)
          · exact .inr (.tail e hmem)
      · rw [if_neg hgt] at hmem
        refine ⟨fun x hx => ?_, hleast, hmem.imp_right (.tail e)⟩
        obtain rfl | hx := mem_cons.1 hx
        · omega
        · exact hall x hx

/-- An anchor is one of the applications, all of which are positive. -/
lemma completeApprovalEpoch_eq_some {epochs} (h : completeApprovalEpoch epochs = some anchor) :
    0 < anchor ∧ anchor ∈ epochs ∧ ∀ e ∈ epochs, 0 < e ∧ e ≤ anchor := by
  unfold completeApprovalEpoch at h
  split at h
  · cases h
  · rename_i hne
    obtain ⟨hall, -, hmem⟩ := completeLoop_eq_some h
    cases epochs with
    | nil => exact absurd rfl hne
    | cons e epochs =>
      have he := hall e (.head _)
      obtain rfl | hmem := hmem
      · omega
      · exact ⟨by omega, hmem, hall⟩

lemma completeLoop_isSome {epochs} (h : ∀ e ∈ epochs, 0 < e) (least : Int) :
    (completeLoop epochs least).isSome := by
  induction epochs generalizing least with
  | nil => rfl
  | cons e epochs ih =>
    rw [completeLoop, if_neg (by have := h e (.head _); omega)]
    exact ih (fun x hx => h x (.tail e hx)) _

/-- Applications that are all positive have an anchor. -/
lemma completeApprovalEpoch_isSome {epochs} (hne : epochs ≠ []) (h : ∀ e ∈ epochs, 0 < e) :
    (completeApprovalEpoch epochs).isSome := by
  rw [completeApprovalEpoch, if_neg (by simpa using hne)]
  exact completeLoop_isSome h 0

end

/-! ## What stood at an occurrence -/

/-- The entry with an id. -/
def hasId (n : Int) (ev : Event) : Bool := decide (ev.id = n)

omit [Library] in
lemma hasId_eq_true_iff {n : Int} {ev : Event} : hasId n ev ↔ ev.id = n := decide_eq_true_iff

omit [Library] in
lemma hasId_eq_false_iff {n : Int} {ev : Event} : hasId n ev = false ↔ ev.id ≠ n :=
  decide_eq_false_iff_not

lemma approvalLoop_eq (required) (occurrence : Int) (events epochs) (found : Option (List Int)) :
    approvalLoop required occurrence events epochs (found.map completeApprovalEpoch) =
      (Replay.stateAt (hasId occurrence) (labelStep required) events epochs found).bind
        completeApprovalEpoch := by
  induction events generalizing epochs found with
  | nil => cases found <;> rfl
  | cons ev events ih =>
    rw [approvalLoop, Replay.stateAt]
    by_cases hid : ev.id = occurrence
    · rw [if_pos hid, if_pos (hasId_eq_true_iff.2 hid)]
      cases found with
      | none => exact ih _ (some (labelStep required epochs ev))
      | some f => rfl
    · rw [if_neg hid, if_neg (by simpa [hasId] using hid)]
      exact ih _ found

/-- The anchor at an occurrence is the one standing after the log up to it. -/
lemma approvalEpochAtOccurrence_eq_some_iff :
    approvalEpochAtOccurrence events required occurrence = some anchor ↔
      ∃ before ev after, Replay.At (hasId occurrence) events before ev after ∧
        standingAnchor required (before ++ [ev]) = some anchor := by
  have hloop := approvalLoop_eq required occurrence events (noLabels required) none
  rw [Option.map_none] at hloop
  rw [approvalEpochAtOccurrence, hloop, Option.bind_eq_some_iff]
  constructor
  · rintro ⟨epochs, hstate, hcomplete⟩
    obtain ⟨before, ev, after, hat, rfl⟩ := Replay.stateAt_eq_some_iff.1 hstate
    exact ⟨before, ev, after, hat, hcomplete⟩
  · rintro ⟨before, ev, after, hat, hcomplete⟩
    exact ⟨_, Replay.stateAt_eq_some_iff.2 ⟨before, ev, after, hat, rfl⟩, hcomplete⟩

lemma claimLoop_eq (events) (epoch : Int) (found) :
    claimLoop principal occurrence events epoch found =
      ((Replay.stateAt (hasId occurrence) (claimStep principal) events epoch found).getD 0,
        (Replay.stateAt (hasId occurrence) (claimStep principal) events epoch found).any
          fun source => 0 < source) := by
  induction events generalizing epoch found with
  | nil => rfl
  | cons ev events ih =>
    rw [claimLoop, Replay.stateAt]
    by_cases hid : ev.id = occurrence
    · rw [if_pos hid, if_pos (hasId_eq_true_iff.2 hid)]
      cases found with
      | none => exact ih _ _
      | some f => rfl
    · rw [if_neg hid, if_neg (by simpa [hasId] using hid)]
      exact ih _ found

/-- The claim at an occurrence is the one standing after the log up to it. -/
lemma claimEpochAtOccurrence_eq_iff {claim : Int} :
    claimEpochAtOccurrence events principal occurrence = (claim, true) ↔
      0 < claim ∧ ∃ before ev after, Replay.At (hasId occurrence) events before ev after ∧
        claimEpoch (before ++ [ev]) principal = claim := by
  rw [claimEpochAtOccurrence, claimLoop_eq, Prod.mk.injEq]
  constructor
  · rintro ⟨hclaim, hpos⟩
    cases hstate : Replay.stateAt (hasId occurrence) (claimStep principal) events 0 none with
    | none =>
      rw [hstate] at hpos
      cases hpos
    | some source =>
      rw [hstate] at hclaim hpos
      obtain rfl : source = claim := hclaim
      obtain ⟨before, ev, after, hat, hfold⟩ := Replay.stateAt_eq_some_iff.1 hstate
      exact ⟨of_decide_eq_true hpos, before, ev, after, hat, hfold⟩
  · rintro ⟨hpos, before, ev, after, hat, hfold⟩
    have hstate : Replay.stateAt (hasId occurrence) (claimStep principal) events 0 none =
        some claim := Replay.stateAt_eq_some_iff.2 ⟨before, ev, after, hat, hfold⟩
    rw [hstate]
    exact ⟨rfl, decide_eq_true hpos⟩

/-- Entries with other ids do not change what stood at an occurrence. -/
lemma approvalEpochAtOccurrence_append_of_ne {more} (hmore : ∀ e ∈ more, e.id ≠ occurrence) :
    approvalEpochAtOccurrence (events ++ more) required occurrence =
      approvalEpochAtOccurrence events required occurrence := by
  have hloop (log : List Event) := approvalLoop_eq required occurrence log (noLabels required) none
  simp only [Option.map_none] at hloop
  rw [approvalEpochAtOccurrence, approvalEpochAtOccurrence, hloop, hloop,
    Replay.stateAt_append fun e he => hasId_eq_false_iff.2 (hmore e he)]

/-! ## What became of an approval -/

/-- A set that was found removed stays removed. -/
lemma changesLoop_removed (events epochs) (after : Bool) :
    (changesLoop required anchor events epochs after true).1 := by
  induction events generalizing epochs after with
  | nil => rfl
  | cons ev events ih =>
    rw [changesLoop]
    split
    · exact ih _ _
    split
    · exact ih _ _
    dsimp only
    split
    · exact ih _ _
    split
    · rfl
    · exact ih _ _

/-- Up to the anchor nothing is looked at. -/
lemma changesLoop_append {before : List Event} (hbefore : ∀ e ∈ before, e.id ≠ anchor)
    (events epochs) (removed : Bool) :
    changesLoop required anchor (before ++ events) epochs false removed =
      changesLoop required anchor events (before.foldl (labelStep required) epochs) false
        removed := by
  induction before generalizing epochs with
  | nil => rfl
  | cons ev before ih =>
    rw [cons_append, changesLoop, if_neg (hbefore ev (.head _)), if_pos (by simp)]
    exact ih (fun e he => hbefore e (.tail ev he)) _

omit [Library] in
/-- An application of a label keeps a complete set complete. -/
lemma completeApprovalEpoch_set {epochs : List Int} {i : Nat} {n : Int}
    (h : completeApprovalEpoch epochs = some anchor) (hn : 0 < n) :
    ∃ next, completeApprovalEpoch (epochs.set i n) = some next := by
  obtain ⟨-, hmem, hall⟩ := completeApprovalEpoch_eq_some h
  rw [← Option.isSome_iff_exists]
  refine completeApprovalEpoch_isSome ?_ fun e he => ?_
  · rintro hnil
    rw [set_eq_nil_iff] at hnil
    rw [hnil] at hmem
    cases hmem
  · obtain he | rfl := mem_or_eq_of_mem_set he
    · exact (hall e he).1
    · exact hn

/-- Past the anchor: where neither a removal nor another anchor was found, there was no removal,
and the anchor is still the one of the standing set. -/
lemma changesLoop_after {after : List Event} {epochs} (hpos : ∀ e ∈ after, 0 < e.id)
    (hne : ∀ e ∈ after, e.id ≠ anchor) (hstanding : completeApprovalEpoch epochs = some anchor)
    (h : changesLoop required anchor after epochs true false = (false, 0)) :
    (∀ e ∈ after, e.type = .unlabeled → requiredLabel required e.label = none) ∧
      completeApprovalEpoch (after.foldl (labelStep required) epochs) = some anchor := by
  induction after generalizing epochs with
  | nil => exact ⟨by simp, hstanding⟩
  | cons ev after ih =>
    have hpos' : ∀ e ∈ after, 0 < e.id := fun e he => hpos e (.tail ev he)
    have hne' : ∀ e ∈ after, e.id ≠ anchor := fun e he => hne e (.tail ev he)
    rw [changesLoop, if_neg (hne ev (.head _))] at h
    cases hlabel : requiredLabel required ev.label with
    | none =>
      have hsame : labelStep required epochs ev = epochs := by rw [labelStep, hlabel]
      rw [hlabel, if_pos (by simp), hsame] at h
      obtain ⟨hkept, hanchor⟩ := ih hpos' hne' hstanding h
      rw [foldl_cons, hsame]
      refine ⟨fun e he hremoved => ?_, hanchor⟩
      obtain rfl | he := mem_cons.1 he
      · exact hlabel
      · exact hkept e he hremoved
    | some i =>
      rw [hlabel, if_neg (by simp)] at h
      dsimp only at h
      by_cases hremoved : ev.type = .unlabeled
      · -- a removal is never forgotten
        exfalso
        have htrue : (false || ev.type == .unlabeled) := by simp [hremoved]
        rw [htrue] at h
        split at h
        · exact Bool.noConfusion ((changesLoop_removed _ _ _).symm.trans (congrArg Prod.fst h))
        split at h
        · cases h
        · exact Bool.noConfusion ((changesLoop_removed _ _ _).symm.trans (congrArg Prod.fst h))
      · have hfalse : (false || ev.type == .unlabeled) = false := by simpa using hremoved
        rw [hfalse] at h
        -- the set is still complete: the label was applied again, or not touched
        obtain ⟨next, hnext⟩ :
            ∃ next, completeApprovalEpoch (labelStep required epochs ev) = some next := by
          rw [labelStep, hlabel]
          dsimp only
          split
          · exact completeApprovalEpoch_set hstanding (hpos ev (.head _))
          · rename_i hunlabeled
            exact absurd hunlabeled hremoved
          · exact ⟨anchor, hstanding⟩
        rw [hnext] at h
        dsimp only at h
        split at h
        · rw [Prod.mk.injEq] at h
          exact absurd h.2 (completeApprovalEpoch_eq_some hnext).1.ne'
        · rename_i hsame
          rw [not_not] at hsame
          obtain ⟨hkept, hanchor⟩ := ih hpos' hne' (hsame ▸ hnext) h
          refine ⟨fun e he hremoved' => ?_, hanchor⟩
          obtain rfl | he := mem_cons.1 he
          · exact absurd hremoved' hremoved
          · exact hkept e he hremoved'

/-- An approval that still stands: its anchor is the one of the set standing at the end of the log,
and no label of the set was removed after it. -/
structure Stands (required : List Text) (events : List Event) (anchor : Int) : Prop where
  anchored : standingAnchor required events = some anchor
  kept : ∃ before ev after, Replay.At (hasId anchor) events before ev after ∧
    ∀ e ∈ after, e.type = .unlabeled → requiredLabel required e.label = none

/-- An approval that was found neither removed nor replaced still stands. -/
lemma stands_of_approvalChangesAfterEpoch (hpos : ∀ e ∈ events, 0 < e.id)
    (h : approvalChangesAfterEpoch events required anchor = some (false, 0)) :
    Stands required events anchor := by
  unfold approvalChangesAfterEpoch at h
  split at h
  · cases h
  · rename_i hanchor
    rw [not_not, approvalEpochAtOccurrence_eq_some_iff] at hanchor
    obtain ⟨before, ev, after, hat, hstanding⟩ := hanchor
    rw [Option.some.injEq, hat.eq, changesLoop_append (fun e he => hasId_eq_false_iff.1
      (hat.unique e (mem_append_left _ he))), changesLoop,
      if_pos (hasId_eq_true_iff.1 hat.pass)] at h
    rw [standingAnchor, standing, foldl_append, foldl_cons, foldl_nil] at hstanding
    have hafter := changesLoop_after (fun e he => hpos e (hat.eq ▸ by simp [he]))
      (fun e he => hasId_eq_false_iff.1 (hat.unique e (mem_append_right _ he))) hstanding h
    refine ⟨?_, before, ev, after, hat, hafter.1⟩
    rw [standingAnchor, standing, hat.eq, foldl_append, foldl_cons]
    exact hafter.2

/-- The entry applies a required label. -/
def applies (required : List Text) (ev : Event) : Bool :=
  ev.type == .labeled && (requiredLabel required ev.label).isSome

/-- What stands is the application of some entry, or none. -/
lemma eq_zero_or_mem_of_mem_standing {n : Int} (h : n ∈ standing required events) :
    n = 0 ∨ ∃ e ∈ events, e.id = n ∧ applies required e := by
  induction events using List.reverseRecOn with
  | nil => exact .inl (eq_of_mem_replicate h)
  | append_singleton events ev ih =>
    have hold (hmem : n ∈ standing required events) :
        n = 0 ∨ ∃ e ∈ events ++ [ev], e.id = n ∧ applies required e := by
      obtain rfl | ⟨e, he, hid⟩ := ih hmem
      · exact .inl rfl
      · exact .inr ⟨e, mem_append_left _ he, hid⟩
    rw [standing_append_singleton, labelStep] at h
    split at h
    · exact hold h
    rename_i i hlabel
    split at h
    · rename_i htype
      obtain h | rfl := mem_or_eq_of_mem_set h
      · exact hold h
      · exact .inr ⟨ev, by simp, rfl, by simp [applies, htype, hlabel]⟩
    · obtain h | rfl := mem_or_eq_of_mem_set h
      · exact hold h
      · exact .inl rfl
    · exact hold h

/-- The anchor of a log is one of its entries. -/
lemma exists_mem_of_standingAnchor (h : standingAnchor required events = some anchor) :
    ∃ e ∈ events, e.id = anchor ∧ applies required e := by
  obtain ⟨hpos, hmem, -⟩ := completeApprovalEpoch_eq_some h
  exact (eq_zero_or_mem_of_mem_standing hmem).resolve_left hpos.ne'

/-- The approval at an occurrence is an entry of the log. -/
lemma exists_mem_of_approvalEpochAtOccurrence
    (h : approvalEpochAtOccurrence events required occurrence = some anchor) :
    ∃ ev ∈ events, ev.id = anchor ∧ applies required ev := by
  obtain ⟨before, ev, after, hat, hanchor⟩ := approvalEpochAtOccurrence_eq_some_iff.1 h
  obtain ⟨x, hx, hid⟩ := exists_mem_of_standingAnchor hanchor
  refine ⟨x, ?_, hid⟩
  rw [hat.eq, append_cons]
  exact mem_append_left _ hx

/-- The start of an approval cycle does not move. -/
lemma cycleStartAtOccurrence_append_of_ne {cfg : Config} {more}
    (hmore : ∀ e ∈ more, e.id ≠ occurrence)
    (h : approvalEpochAtOccurrence events cfg.requiredLabels occurrence = some anchor) :
    cycleStartAtOccurrence cfg (events ++ more) occurrence =
      cycleStartAtOccurrence cfg events occurrence := by
  obtain ⟨ev, hev, hid, -⟩ := exists_mem_of_approvalEpochAtOccurrence h
  have hsome : (events.find? fun e => e.id == anchor).isSome :=
    find?_isSome.2 ⟨ev, hev, by simpa using hid⟩
  obtain ⟨x, hx⟩ := Option.isSome_iff_exists.1 hsome
  simp only [cycleStartAtOccurrence, approvalEpochAtOccurrence_append_of_ne hmore, h,
    find?_append, hx, Option.some_or]

/-- No label of a standing approval was removed after an occurrence it stood at. -/
lemma Stands.kept_since (h : Stands required events anchor) {before after ev}
    (hat : Replay.At (hasId occurrence) events before ev after)
    (hanchor : standingAnchor required (before ++ [ev]) = some anchor) :
    ∀ e ∈ after, e.type = .unlabeled → requiredLabel required e.label = none := by
  obtain ⟨before', a, after', hat', hkept⟩ := h.kept
  obtain ⟨e, he, hid, -⟩ := exists_mem_of_standingAnchor hanchor
  obtain ⟨b, c, hsplit⟩ := append_of_mem he
  have hlog : events = b ++ e :: (c ++ after) := by
    rw [hat.eq, append_cons, hsplit, append_assoc, cons_append]
  obtain ⟨-, rfl, -⟩ := hat'.eq_of_eq hlog (hasId_eq_true_iff.2 hid)
  exact fun x hx => hkept x (hat'.after_subset hat he hx)

/-! ## Standing claims -/

/-- The entry removes the principal's assignment. -/
def unassigns (principal : Text) (ev : Event) : Bool :=
  ev.type == .unassigned && eqFold ev.assignee principal

/-- The entry assigns the principal. -/
def assigns (principal : Text) (ev : Event) : Bool :=
  ev.type == .assigned && eqFold ev.assignee principal

lemma claimEpoch_append_singleton (events ev) :
    claimEpoch (events ++ [ev]) principal =
      claimStep principal (claimEpoch events principal) ev := by
  rw [claimEpoch, foldl_append, foldl_cons, foldl_nil, claimEpoch]

/-- A standing claim began with an assignment and was not handed back since. -/
lemma claimEpoch_eq_of_ne_zero {claim : Int} (h : claimEpoch events principal = claim)
    (hne : claim ≠ 0) :
    ∃ before ev after, events = before ++ ev :: after ∧ ev.id = claim ∧
      assigns principal ev ∧ ∀ e ∈ after, unassigns principal e = false := by
  induction events using List.reverseRecOn with
  | nil => exact absurd h.symm hne
  | append_singleton events ev ih =>
    rw [claimEpoch_append_singleton] at h
    have hold (hclaim : claimEpoch events principal = claim)
        (hkept : unassigns principal ev = false) : ∃ before x after,
          events ++ [ev] = before ++ x :: after ∧ x.id = claim ∧ assigns principal x ∧
            ∀ e ∈ after, unassigns principal e = false := by
      obtain ⟨before, x, after, rfl, hid, hassigns, hafter⟩ := ih hclaim
      exact ⟨before, x, after ++ [ev], by simp, hid, hassigns,
        forall_mem_append.2 ⟨hafter, forall_mem_singleton.2 hkept⟩⟩
    unfold claimStep at h
    split at h
    · rename_i hother
      rw [Bool.not_eq_true'] at hother
      exact hold h (by rw [unassigns, hother, Bool.and_false])
    · rename_i hprincipal
      rw [Bool.not_eq_true', Bool.not_eq_false] at hprincipal
      split at h
      · rename_i htype
        split at h
        · exact ⟨events, ev, [], rfl, h, by simp [assigns, htype, hprincipal], by simp⟩
        · exact hold h (by simp [unassigns, htype])
      · exact absurd h.symm hne
      · rename_i hnot
        exact hold h (by rw [unassigns, beq_false_of_ne hnot, Bool.false_and])

/-- A claim that was handed back is not the standing one. -/
lemma claimEpoch_ne_of_unassignedAfterClaim {claim : Int} (hnodup : (events.map (·.id)).Nodup)
    (hne : claim ≠ 0) (h : unassignedAfterClaim events principal claim) :
    claimEpoch events principal ≠ claim := by
  intro hclaim
  obtain ⟨before, ev, after, heq, hid, hassigns, hafter⟩ := claimEpoch_eq_of_ne_zero hclaim hne
  have hat := Replay.at_of_nodup hnodup heq hid
  -- the entry the code looks for is that very assignment
  have hskip : ∀ e ∈ before, (!(e.id == claim && e.type == .assigned &&
      eqFold e.assignee principal)) := by
    intro e he
    have hother := of_decide_eq_false (hat.unique e (mem_append_left _ he))
    simp [hother]
  have hfound : (!(ev.id == claim && ev.type == .assigned &&
      eqFold ev.assignee principal)) = false := by
    rw [assigns, Bool.and_eq_true] at hassigns
    simp [hid, hassigns.1, hassigns.2]
  rw [unassignedAfterClaim, heq, dropWhile_append_of_pos hskip,
    dropWhile_cons_of_neg (by rw [hfound]; simp), drop_one, tail_cons,
    any_eq_true] at h
  obtain ⟨e, he, hunassigns⟩ := h
  exact Bool.noConfusion ((hafter e he).symm.trans hunassigns)

end Ben.Review
