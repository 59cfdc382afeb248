import Ben.Review.Replay

/-!
# Approvals that are made again

What `approvalChangesAfterEpoch` reports of an approval, in terms of the log alone.  A label stands
if the last entry that touches it put it on (`application`), and the newest of the applications
anchors the set (`Complete`).  The loop over the log keeps the applications by index and stops at
the first set with another anchor; `changesLoop_reports` says what it has seen by then.
-/

namespace Ben.Review

open List

section

variable [Library] {required : List Text} {log : List Event} {want : Text} {ev : Event}
  {epoch : Int}

/-- The entry puts a label on or takes it off. -/
def touches (want : Text) (ev : Event) : Bool :=
  (ev.type == .labeled || ev.type == .unlabeled) && eqFold want ev.label

/-- The entry takes a label of the set off. -/
def removes (required : List Text) (ev : Event) : Bool :=
  ev.type == .unlabeled && required.any fun want => eqFold want ev.label

/-- The application of a label that stands at the end of a log: the last entry that touches it. -/
def application (log : List Event) (want : Text) : Option Event :=
  (log.reverse.find? (touches want)).filter fun ev => ev.type == .labeled

/-- The whole set stands at the end of a log, and `anchor` is the newest of its applications. -/
def Complete (required : List Text) (log : List Event) (anchor : Int) : Prop :=
  (∀ want ∈ required, ∃ ev, application log want = some ev ∧ ev.id ≤ anchor) ∧
    ∃ want ∈ required, ∃ ev, application log want = some ev ∧ ev.id = anchor

/-- The whole set stands at the end of a log, with an application made after an epoch. -/
def Renewed (required : List Text) (log : List Event) (epoch : Int) : Prop :=
  ∃ anchor, Complete required log anchor ∧ epoch < anchor

/-- What is to be reported of the entries after an epoch: the anchor of the first renewed set, or
zero if there is none, and whether a label of the set was taken off before that. -/
def Reports (required : List Text) (epoch : Int) (start entries : List Event)
    (removed : Bool) (newer : Int) : Prop :=
  (newer = 0 ∧ (∀ upTo, upTo <+: entries → ¬ Renewed required (start ++ upTo) epoch) ∧
    removed = entries.any (removes required)) ∨
  ∃ between ev rest, entries = between ++ ev :: rest ∧
    Complete required (start ++ (between ++ [ev])) newer ∧ epoch < newer ∧
    (∀ upTo, upTo <+: between → ¬ Renewed required (start ++ upTo) epoch) ∧
    removed = between.any (removes required)

/-! ## Standing applications -/

lemma application_append_singleton : application (log ++ [ev]) want =
    if touches want ev then if ev.type = .labeled then some ev else none
    else application log want := by
  cases htouches : touches want ev <;>
    simp [application, htouches, Option.filter_some]

lemma mem_of_application (h : application log want = some ev) : ev ∈ log := by
  rw [application, Option.filter_eq_some_iff] at h
  exact mem_reverse.1 (mem_of_find?_eq_some h.1)

lemma Complete.unique {n m : Int} (h : Complete required log n) (h' : Complete required log m) :
    n = m := by
  have hle {n m : Int} (h : Complete required log n) (h' : Complete required log m) : n ≤ m := by
    obtain ⟨want, hwant, ev, hev, rfl⟩ := h.2
    obtain ⟨x, hx, hle⟩ := h'.1 want hwant
    rwa [Option.some.inj (hev.symm.trans hx)]
  exact le_antisymm (hle h h') (hle h' h)

section

variable (hdistinct : required.Pairwise fun a b => eqFold a b = false)
include hdistinct

/-- In a set without repeats a label has one place. -/
lemma requiredLabel_eq_some_iff (label : Text) {i : Nat} (hi : i < required.length) :
    requiredLabel required label = some i ↔ eqFold required[i] label := by
  rw [requiredLabel, findIdx?_eq_some_iff_getElem]
  refine ⟨fun ⟨_, h, _⟩ => h, fun h => ⟨hi, h, fun j hj hfold => ?_⟩⟩
  have hne := pairwise_iff_getElem.1 hdistinct j i (hj.trans hi) hi hj
  exact Bool.noConfusion (hne.symm.trans (eqFold_trans hfold ((eqFold_comm _ _).trans h)))

/-- The replay keeps the id of the standing application of each label, or zero. -/
lemma standing_eq (log : List Event) :
    standing required log = required.map fun want =>
      ((application log want).map (·.id)).getD 0 := by
  induction log using List.reverseRecOn with
  | nil => exact map_const'.symm
  | append_singleton log ev ih =>
    rw [standing_append_singleton, ih, labelStep]
    cases hlabel : requiredLabel required ev.label with
    | none =>
      refine map_congr_left fun want hwant => ?_
      simp [application_append_singleton, touches, findIdx?_eq_none_iff.1 hlabel want hwant]
    | some j =>
      have hset (f : Text → Int) (n : Int) : (required.map f).set j n =
          required.map fun want => if eqFold want ev.label then n else f want := by
        refine ext_getElem (by simp) fun i _ hi => ?_
        have hplace := requiredLabel_eq_some_iff hdistinct ev.label
          (by simpa using hi : i < required.length)
        rw [hlabel, Option.some.injEq] at hplace
        simp [getElem_set, hplace]
      dsimp only
      split
      · rw [hset]
        refine map_congr_left fun want _ => ?_
        by_cases hfold : eqFold want ev.label = true <;>
          simp [application_append_singleton, touches, *]
      · rw [hset]
        refine map_congr_left fun want _ => ?_
        by_cases hfold : eqFold want ev.label = true <;>
          simp [application_append_singleton, touches, *]
      · rename_i hlabeled hunlabeled
        refine map_congr_left fun want _ => ?_
        rw [application_append_singleton, touches, beq_false_of_ne hlabeled,
          beq_false_of_ne hunlabeled]
        rfl

/-- The anchor the replay computes is the newest of the standing applications. -/
lemma standingAnchor_eq_some_iff (log : List Event) (hpos : ∀ e ∈ log, 0 < e.id) (anchor : Int) :
    standingAnchor required log = some anchor ↔ Complete required log anchor := by
  have hiff : standingAnchor required log = some anchor ↔ anchor ∈ standing required log ∧
      ∀ e ∈ standing required log, 0 < e ∧ e ≤ anchor := by
    refine ⟨fun h => (completeApprovalEpoch_eq_some h).2, fun ⟨hmem, hall⟩ => ?_⟩
    obtain ⟨n, hn⟩ := Option.isSome_iff_exists.1 (completeApprovalEpoch_isSome
      (ne_nil_of_mem hmem) fun e he => (hall e he).1)
    obtain ⟨-, hn', hall'⟩ := completeApprovalEpoch_eq_some hn
    rw [standingAnchor, hn, le_antisymm (hall n hn').2 (hall' anchor hmem).2]
  have hplace (want : Text) (n : Int) :
      (0 < ((application log want).map (·.id)).getD 0 ∧
        ((application log want).map (·.id)).getD 0 ≤ n) ↔
      ∃ ev, application log want = some ev ∧ ev.id ≤ n := by
    cases h : application log want with
    | none => simp
    | some ev => simpa using fun _ => hpos ev (mem_of_application h)
  rw [hiff, standing_eq hdistinct, forall_mem_map, Complete, and_comm]
  simp only [hplace]
  refine and_congr_right fun hall => ?_
  rw [mem_map]
  refine exists_congr fun want => and_congr_right fun hwant => ?_
  obtain ⟨ev, hev, -⟩ := hall want hwant
  simp [hev]

/-! ## The loop past the epoch -/

/-- From the epoch on the loop reports as it should.  The label that was applied with the epoch has
no earlier application any more, so that a complete set has no earlier anchor. -/
lemma changesLoop_reports (hwant : want ∈ required) (start passed after : List Event)
    (hpos : ∀ e ∈ start ++ passed ++ after, 0 < e.id) (hlater : ∀ e ∈ after, epoch < e.id)
    (hsince : ∀ x, application (start ++ passed) want = some x → epoch ≤ x.id)
    (hnot : ∀ upTo, upTo <+: passed → ¬ Renewed required (start ++ upTo) epoch)
    {removed newer} (h : changesLoop required epoch after (standing required (start ++ passed)) true
      (passed.any (removes required)) = (removed, newer)) :
    Reports required epoch start (passed ++ after) removed newer := by
  induction after generalizing passed with
  | nil =>
    cases h
    rw [append_nil]
    exact .inl ⟨rfl, hnot, rfl⟩
  | cons ev after ih =>
    have hlt := hlater ev (.head _)
    rw [append_cons, append_assoc start] at hpos
    have hanchor := standingAnchor_eq_some_iff hdistinct (start ++ (passed ++ [ev]))
      fun e he => hpos e (mem_append_left after he)
    have hsince' : ∀ x, application (start ++ (passed ++ [ev])) want = some x → epoch ≤ x.id := by
      intro x hx
      rw [← append_assoc, application_append_singleton] at hx
      split at hx
      · split at hx
        · exact Option.some.inj hx ▸ hlt.le
        · cases hx
      · exact hsince x hx
    have hany : (requiredLabel required ev.label).isSome =
        required.any fun want => eqFold want ev.label := findIdx?_isSome
    -- the loop goes on past an entry that does not renew the set
    have hpass (hnew : ∀ n, Complete required (start ++ (passed ++ [ev])) n → n ≤ epoch)
        {flag : Bool} (hflag : flag = removes required ev)
        (hrest : changesLoop required epoch after (standing required (start ++ (passed ++ [ev])))
          true (passed.any (removes required) || flag) = (removed, newer)) :
        Reports required epoch start (passed ++ ev :: after) removed newer := by
      rw [append_cons]
      refine ih (passed ++ [ev]) hpos (fun e he => hlater e (.tail ev he)) hsince'
        (fun upTo hupTo => ?_) (by rw [← hrest, hflag, any_append, any_cons]; simp)
      obtain rfl | hupTo := prefix_concat_iff.1 hupTo
      · exact fun ⟨n, hn, hlt⟩ => hlt.not_ge (hnew n hn)
      · exact hnot upTo hupTo
    rw [changesLoop, if_neg hlt.ne', ← standing_append_singleton, append_assoc] at h
    dsimp only at h
    cases hplace : requiredLabel required ev.label with
    | none =>
      rw [hplace, if_pos (by simp), ← Bool.or_false (passed.any _)] at h
      rw [hplace, Option.isSome_none] at hany
      refine hpass (fun n hn => ?_) (by rw [removes, ← hany, Bool.and_false]) h
      rw [← hanchor, standingAnchor, ← append_assoc, standing_append_singleton, labelStep,
        hplace] at hn
      refine not_lt.1 fun hlt => hnot passed prefix_rfl ⟨n, (standingAnchor_eq_some_iff
        hdistinct _ (fun e he => hpos e ?_) n).1 hn, hlt⟩
      rw [← append_assoc]
      exact mem_append_left after (mem_append_left _ he)
    | some i =>
      rw [hplace, if_neg (by simp)] at h
      rw [hplace, Option.isSome_some] at hany
      have hflag : (ev.type == .unlabeled) = removes required ev := by
        rw [removes, ← hany, Bool.and_true]
      split at h
      · rename_i hnone
        exact hpass (fun n hn => by cases hnone.symm.trans ((hanchor n).2 hn)) hflag h
      rename_i n hn
      have hcomplete := (hanchor n).1 hn
      split at h
      · rename_i hne
        -- the set stands again, so the entry put its label on
        obtain ⟨x, hx, hle⟩ := hcomplete.1 want hwant
        cases h
        refine .inr ⟨passed, ev, after, rfl, hcomplete,
          lt_of_le_of_ne ((hsince' x hx).trans hle) (Ne.symm hne), hnot, ?_⟩
        obtain ⟨label, hlabel, hfold⟩ := any_eq_true.1 hany.symm
        obtain ⟨y, hy, -⟩ := hcomplete.1 label hlabel
        rw [← append_assoc, application_append_singleton] at hy
        have htype : ev.type ≠ .unlabeled := fun htype => by simp [touches, htype, hfold] at hy
        simp [htype]
      · rename_i hsame
        exact hpass (fun n' hn' => ((hn'.unique hcomplete).trans (not_not.1 hsame)).le) hflag h

end

/-- On a log whose ids are positive and increase, with a set of labels without repeats, the report
is valid exactly if the whole set stood at the epoch with that entry as its newest application, and
then it is what is to be reported of the entries after it. -/
theorem approvalChangesAfterEpoch_exact (required : List Text)
    (hdistinct : required.Pairwise fun a b => eqFold a b = false) (events : List Event)
    (hpos : ∀ e ∈ events, 0 < e.id) (hids : events.Pairwise fun a b => a.id < b.id) (epoch : Int) :
    ((approvalChangesAfterEpoch events required epoch).isSome = true ↔
      ∃ before ev after, events = before ++ ev :: after ∧ ev.id = epoch ∧
        Complete required (before ++ [ev]) epoch) ∧
    ∀ before ev after removed newer, events = before ++ ev :: after → ev.id = epoch →
      approvalChangesAfterEpoch events required epoch = some (removed, newer) →
      0 < epoch ∧ Reports required epoch (before ++ [ev]) after removed newer := by
  have hnodup : (events.map (·.id)).Nodup :=
    (pairwise_map.2 (hids.imp ne_of_lt) : (events.map (·.id)).Pairwise (· ≠ ·))
  have hvalid : approvalEpochAtOccurrence events required epoch = some epoch ↔
      ∃ before ev after, events = before ++ ev :: after ∧ ev.id = epoch ∧
        Complete required (before ++ [ev]) epoch := by
    rw [approvalEpochAtOccurrence_eq_some_iff]
    refine exists_congr fun before => exists_congr fun ev => exists_congr fun after => ?_
    have hanchor (heq : events = before ++ ev :: after) := standingAnchor_eq_some_iff hdistinct
      (before ++ [ev]) (fun e he =>
        hpos e (heq ▸ append_cons before ev after ▸ mem_append_left after he)) epoch
    exact ⟨fun h => ⟨h.1.eq, hasId_eq_true_iff.1 h.1.pass, (hanchor h.1.eq).1 h.2⟩,
      fun h => ⟨Replay.at_of_nodup hnodup h.1 h.2.1, (hanchor h.1).2 h.2.2⟩⟩
  refine ⟨?_, fun before ev after removed newer heq hid hchanges => ?_⟩
  · rw [← hvalid, approvalChangesAfterEpoch]
    by_cases h : approvalEpochAtOccurrence events required epoch = some epoch <;> simp [h]
  · unfold approvalChangesAfterEpoch at hchanges
    split at hchanges
    · cases hchanges
    rename_i hepoch
    obtain ⟨before', ev', after', heq', hid', hcomplete⟩ := hvalid.1 (not_not.1 hepoch)
    have hat := Replay.at_of_nodup (n := epoch) hnodup heq hid
    obtain ⟨rfl, rfl, rfl⟩ := hat.eq_of_eq heq' (decide_eq_true hid')
    obtain ⟨want, hwant, x, hx, hxid⟩ := hcomplete.2
    rw [Option.some.injEq, heq, changesLoop_append (fun e he => hasId_eq_false_iff.1
      (hat.unique e (mem_append_left _ he))), changesLoop, if_pos hid] at hchanges
    have hsplit := hids
    rw [heq, pairwise_append, pairwise_cons] at hsplit
    refine ⟨hid ▸ hpos ev' (by rw [heq]; simp), changesLoop_reports hdistinct hwant
      (before' ++ [ev']) [] after' ?_ (fun e he => hid ▸ hsplit.2.1.1 e he) (fun y hy => ?_)
      (fun upTo hupTo => ?_) ?_⟩
    · rw [append_nil, ← append_cons, ← heq]
      exact hpos
    · rw [append_nil, hx] at hy
      exact (hxid.symm.trans (congrArg Event.id (Option.some.inj hy))).le
    · rw [prefix_nil.1 hupTo, append_nil]
      rintro ⟨n, hn, hlt⟩
      exact hlt.ne (hcomplete.unique hn)
    · rw [append_nil, standing_append_singleton]
      exact hchanges

end

namespace Sample

def change (id : Int) (type : EventType) (label : String) : Event :=
  { id, type, label := txt label, createdAt := id }

/-- Both labels are put on, and the first of them is taken off and put on again. -/
def reapproved : List Event :=
  [change 1 .labeled "queue", change 2 .labeled "agreed", change 3 .unlabeled "Queue",
    change 4 .labeled "queue"]

end Sample

theorem approvalChangesAfterEpoch_exact_reapproved : let _ : Library := plainLibrary
    approvalChangesAfterEpoch Sample.reapproved [txt "queue", txt "agreed"] 2 = some (true, 4) ∧
      Reports [txt "queue", txt "agreed"] 2 (Sample.reapproved.take 2) (Sample.reapproved.drop 2)
        true 4 := by
  intro _
  have h : approvalChangesAfterEpoch Sample.reapproved [txt "queue", txt "agreed"] 2 =
      some (true, 4) := by decide
  exact ⟨h, ((approvalChangesAfterEpoch_exact _ (by decide) _ (by decide)
    (by decide) 2).2 [_] _ _ true 4 rfl rfl h).2⟩

end Ben.Review
