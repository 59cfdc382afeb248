import Mathlib.Data.List.Dedup
import Ben.Review.Acting

/-!
# How many commits are reviewed under one approval

The controller counts the commits it has reviewed under an approval on every pass, from the markers
of the reviews it observes.  Those are the reviews of one pull request: as long as the reviews under
an approval are all on the pull request the newest delivery links, no run of the system gets past
the cap (`heads_within_cap`), and a second pull request under the same approval starts a second
count (`heads_beyond_cap`).
-/

namespace Ben.Review

open List

section

variable [Library] {cfg : Config} {f f' : Forge} {w w' : World} {approval : Int}

/-- The commits the controller has reviewed under an approval, on any pull request. -/
def Forge.reviewedHeads (cfg : Config) (f : Forge) (approval : Int) : List Text :=
  f.reviews.filterMap fun p =>
    if !eqFold p.2.author cfg.controller then none
    else match parseReviewMarker p.2.body with
      | .error _ => none
      | .ok m => if m.approval = approval then some m.head else none

/-- The controller's reviews under the approval of the newest delivery are all on the pull request
it links. -/
def Forge.onePull (cfg : Config) (f : Forge) : Bool :=
  match latestPublished cfg f.comments with
  | none => true
  | some t =>
    match parsePRURL t.prURL with
    | .error _ => true
    | .ok (_, _, number) => f.reviews.all fun p =>
        p.1 == number || !eqFold p.2.author cfg.controller ||
          match parseReviewMarker p.2.body with
          | .error _ => true
          | .ok m => approvalEpochAtOccurrence (sortEvents f.events) cfg.requiredLabels
              t.occurrence != some m.approval

/-- The controller acts only while its reviews are on one pull request. -/
def OnePull (cfg : Config) (w : World) (input : Input) : Prop :=
  input.acts = true → w.forge.onePull cfg = true

instance (cfg : Config) (w : World) (input : Input) : Decidable (OnePull cfg w input) :=
  inferInstanceAs (Decidable (input.acts = true → w.forge.onePull cfg = true))

/-- The controller has not acted on the forge yet. -/
structure Forge.Fresh (cfg : Config) (f : Forge) : Prop where
  ordered : f.Ordered
  reviews : ∀ p ∈ f.reviews, eqFold p.2.author cfg.controller = false
  comments : ∀ c ∈ f.comments, NoIntent cfg c

lemma Forge.mem_reviewedHeads_iff {head} : head ∈ f.reviewedHeads cfg approval ↔ ∃ p ∈ f.reviews,
      eqFold p.2.author cfg.controller ∧
        ∃ m, parseReviewMarker p.2.body = .ok m ∧ m.approval = approval ∧ m.head = head := by
  rw [reviewedHeads, mem_filterMap]
  refine exists_congr fun p => and_congr_right fun _ => ?_
  cases hauthor : eqFold p.2.author cfg.controller with
  | false => simp
  | true =>
    cases hparse : parseReviewMarker p.2.body with
    | error e => simp
    | ok m =>
      simp only [Bool.not_true, Bool.false_eq_true, if_false, true_and, Except.ok.injEq,
        exists_eq_left']
      by_cases hm : m.approval = approval
      · simp [hm]
      · simp [hm]

/-- Within the cap, as soon as there is a review. -/
def Forge.WithinCap (cfg : Config) (f : Forge) : Prop :=
  ∀ approval, f.reviewedHeads cfg approval ≠ [] →
    ((f.reviewedHeads cfg approval).dedup.length : Int) ≤ cfg.roundCap

/-- Without a review by the controller nothing is counted anew. -/
lemma Forge.WithinCap.of_subset (h : f.WithinCap cfg)
    (hsub : ∀ approval, f'.reviewedHeads cfg approval ⊆ f.reviewedHeads cfg approval) :
    f'.WithinCap cfg := by
  intro approval hne
  have hlength : (f'.reviewedHeads cfg approval).dedup.length ≤
      (f.reviewedHeads cfg approval).dedup.length :=
    (subperm_of_subset (nodup_dedup _) fun head hhead =>
      mem_dedup.2 (hsub approval (mem_dedup.1 hhead))).length_le
  have hne' : f.reviewedHeads cfg approval ≠ [] := by
    intro hnil
    obtain ⟨head, hhead⟩ := exists_mem_of_ne_nil _ hne
    have hmem := hsub approval hhead
    rw [hnil] at hmem
    cases hmem
  have hcap := h approval hne'
  omega

lemma Forge.Extends.reviewedHeads_subset {events comments} {reviews : List (Int × Review)}
    (hext : f.Extends f' events comments reviews)
    (hreviews : ∀ p ∈ reviews, eqFold p.2.author cfg.controller = false) (approval : Int) :
    f'.reviewedHeads cfg approval ⊆ f.reviewedHeads cfg approval := by
  intro head hhead
  obtain ⟨p, hp, hauthor, hm⟩ := Forge.mem_reviewedHeads_iff.1 hhead
  rw [hext.reviews] at hp
  obtain hp | hp := mem_append.1 hp
  · exact Forge.mem_reviewedHeads_iff.2 ⟨p, hp, hauthor, hm⟩
  · rw [hreviews p hp] at hauthor
    cases hauthor

/-- The controller's reviews under the approval of the delivery are counted, if they are on its pull
request. -/
lemma mem_distinctHeads_of_reviewedHeads (hord : f.Ordered) (hown : f.Own cfg) {t : Trigger}
    {claim number : Int} (hd : Decides cfg (f.observe cfg) t claim approval)
    (hlinks : t.Links number) (hone : f.onePull cfg) {head}
    (h : head ∈ f.reviewedHeads cfg approval) :
    head ∈ distinctHeads (cycleReviews cfg f.events (f.verdicts cfg number) t.occurrence
      approval) := by
  have hlatest := hd.latest
  have happroved := hd.approved
  rw [Forge.observe_comments] at hlatest
  rw [hord.log_eq] at happroved
  obtain ⟨⟨n, r⟩, hp, hauthor, m, hparse, rfl, rfl⟩ := Forge.mem_reviewedHeads_iff.1 h
  obtain ⟨m', hposted⟩ := hown _ hp hauthor
  cases hparse.symm.trans hposted.parse
  -- the review is on the pull request of the delivery
  obtain rfl : n = number := by
    obtain ⟨owner, repo, hlink⟩ := hlinks
    rw [Forge.onePull, hlatest] at hone
    dsimp only at hone
    rw [hlink] at hone
    have hpull := all_eq_true.1 hone _ hp
    dsimp only at hpull hparse
    rw [hord.sortEvents_eq, happroved, hparse] at hpull
    dsimp only at hauthor
    simpa [hauthor] using hpull
  obtain ⟨ev, hev, hid, htime⟩ := hposted.anchored
  have hfind : f.events.find? (fun e => e.id == m.approval) = some ev := by
    obtain ⟨before, after, heq⟩ := append_of_mem hev
    have hat := Replay.at_of_nodup hord.nodup heq hid
    refine find?_eq_some_iff_append.2 ⟨by simpa using hid, before, after, heq, fun e he => ?_⟩
    simpa using hat.unique e (mem_append_left _ he)
  have hmem : (⟨r, m, false⟩ : Published) ∈ f.verdicts cfg n :=
    hown.mem_verdicts_iff.2 ⟨r, m, hp, hauthor, hposted, rfl⟩
  refine mem_distinctHeads_iff.2 ⟨⟨r, m, false⟩, mem_filter.2
    ⟨mem_filter.2 ⟨hmem, ?_⟩, by simp⟩, rfl⟩
  simp only [cycleStartAtOccurrence, happroved, hfind]
  simpa using htime

/-- A review the controller posts keeps the count within the cap. -/
lemma Posts.withinCap (hord : f.Ordered) (hown : f.Own cfg) (h : f.WithinCap cfg)
    (hone : f.onePull cfg) {t} {claim number : Int} {r m}
    (hposts : Posts cfg f t claim approval number r m) (hext : f.Extends f' [] [] [(number, r)]) :
    f'.WithinCap cfg := by
  have hnew {a : Int} {head : Text} (hhead : head ∈ f'.reviewedHeads cfg a) :
      head ∈ f.reviewedHeads cfg a ∨ a = approval ∧ head = m.head := by
    obtain ⟨p, hp, hauthor, m', hparse, rfl, rfl⟩ := Forge.mem_reviewedHeads_iff.1 hhead
    rw [hext.reviews] at hp
    obtain hp | hp := mem_append.1 hp
    · exact .inl (Forge.mem_reviewedHeads_iff.2 ⟨p, hp, hauthor, m', hparse, rfl, rfl⟩)
    · rw [mem_singleton.1 hp] at hparse
      cases hposts.parse.symm.trans hparse
      exact .inr ⟨hposts.approval, rfl⟩
  intro a hne
  by_cases hold : f'.reviewedHeads cfg a ⊆ f.reviewedHeads cfg a
  · -- no commit is new
    have hlength : (f'.reviewedHeads cfg a).dedup.length ≤ (f.reviewedHeads cfg a).dedup.length :=
      (subperm_of_subset (nodup_dedup _) fun head hhead =>
        mem_dedup.2 (hold (mem_dedup.1 hhead))).length_le
    have hne' : f.reviewedHeads cfg a ≠ [] := fun hnil => hne (subset_nil.1 (hnil ▸ hold))
    have hcap := h a hne'
    omega
  · -- the commit of this review is new, so it was not among those counted
    obtain ⟨head, hhead, hfresh⟩ := Set.not_subset.1 hold
    obtain hmem | ⟨rfl, rfl⟩ := hnew hhead
    · exact absurd hmem hfresh
    · obtain hprior | ⟨-, hcap⟩ := hposts.round
      · -- a review of the head would be one of those before
        obtain ⟨prior, hprior⟩ := Option.isSome_iff_exists.1 hprior
        have hfound := find?_some hprior
        simp only [Bool.and_eq_true, beq_iff_eq] at hfound
        obtain ⟨r', m', hmem, hauthor, hposted, rfl⟩ :=
          hown.mem_verdicts_iff.1 (mem_of_find?_eq_some hprior)
        exact absurd (Forge.mem_reviewedHeads_iff.2 ⟨_, hmem, hauthor, m', hposted.parse,
          hfound.1.2, hfound.2⟩) hfresh
      · have hlength := (subperm_of_subset (nodup_dedup (f'.reviewedHeads cfg a))
          fun x hx => (mem_cons.2 <| (hnew (mem_dedup.1 hx)).symm.imp (·.2)
            (mem_distinctHeads_of_reviewedHeads hord hown hposts.decides hposts.links hone) :
            x ∈ m.head :: distinctHeads (cycleReviews cfg f.events (f.verdicts cfg number)
              t.occurrence a))).length_le
        rw [length_cons] at hlength
        omega

/-- Every step taken on one pull request keeps every count within the cap. -/
lemma World.withinCap (hord : w.forge.Ordered) (hown : w.forge.Own cfg) (h : w.forge.WithinCap cfg)
    {input} (hone : OnePull cfg w input) (hstep : w.step cfg input = some w') :
    w'.forge.WithinCap cfg := by
  cases World.moves hord hstep with
  | quiet hext _ _ hreviews => exact h.of_subset (hext.reviewedHeads_subset hreviews)
  | intent _ _ _ hext => exact h.of_subset (hext.reviewedHeads_subset (by simp))
  | handoff _ _ _ _ _ hext => exact h.of_subset (hext.reviewedHeads_subset (by simp))
  | revocation _ _ _ _ _ _ _ hext => exact h.of_subset (hext.reviewedHeads_subset (by simp))
  | verdict hacting hposts hext => exact hposts.withinCap hord hown h (hone hacting) hext

/-- In every run in which the controller acts only while its reviews under an approval are on one
pull request, the number of commits it reviews under any one approval stays within the cap. -/
theorem heads_within_cap (cfg : Config) (f : Forge) (hfresh : f.Fresh cfg) (inputs : List Input)
    (w : World) (hrun : Runs.run (World.step cfg) { forge := f } inputs = some w)
    (hone : Runs.Along (World.step cfg) (OnePull cfg) { forge := f } inputs) (approval : Int)
    (hne : w.forge.reviewedHeads cfg approval ≠ []) :
    ((w.forge.reviewedHeads cfg approval).dedup.length : Int) ≤ cfg.roundCap := by
  have hinv : w.forge.Ordered ∧ w.forge.Own cfg ∧ w.forge.WithinCap cfg := by
    refine Runs.invariant (P := fun w : World => w.forge.Ordered ∧ w.forge.Own cfg ∧
      w.forge.WithinCap cfg) ?_ ⟨hfresh.ordered, ?_, ?_⟩ hone hrun
    · rintro w input w' ⟨hord, hown, hcap⟩ hcond hstep
      have hord' := World.ordered hord hstep
      exact ⟨hord', (World.moves hord hstep).own hord hord' hown,
        World.withinCap hord hown hcap hcond hstep⟩
    · intro p hp hauthor
      rw [hfresh.reviews p hp] at hauthor
      cases hauthor
    · intro a ha
      obtain ⟨head, hhead⟩ := exists_mem_of_ne_nil _ ha
      obtain ⟨p, hp, hauthor, -⟩ := Forge.mem_reviewedHeads_iff.1 hhead
      rw [hfresh.reviews p hp] at hauthor
      cases hauthor
  exact hinv.2.2 approval hne

end

namespace Sample

/-- A forge nobody has written to. -/
def start : Forge := { nextID := 899, now := 10 }

lemma start_fresh (cfg) : start.Fresh cfg :=
  ⟨⟨.nil, .nil, by simp [start], by simp [start], by simp [start], by decide, by decide⟩,
    by simp [start], by simp [start]⟩

/-- A milestone body that delivers an occurrence on a pull request. -/
def announcement (occurrence : Int) (number : Text) : Text :=
  txt "**BEN published a pull request.**\n\n- pull request: https://github.com/acme/ben/pull/" ++
  number ++ txt "\n" ++
  renderMarker markerMilestone
    [(txt "kind", txt "published"), (txt "occurrence", itoa occurrence)] ++ txt "\n"

/-- The approval and the claim. -/
def queued : List Input :=
  [.label (txt "a-human") (txt "ben-queue"),
   .assign (txt "ben-tracker-bot") (txt "ben-claim-bot"), .wait 1]

/-- BEN delivers the first pull request, and the controller reviews it. -/
def firstReview : List Input :=
  [.pull 42 (some (pullRequest (commit 97))), .unlabel (txt "ben-tracker-bot") (txt "ben:claimed"),
   .comment (txt "ben-tracker-bot") (announcement 902 (txt "42")), .wait 1,
   .control (.report .changesRequested (txt "findings")) false]

/-- The first pull request is closed and BEN delivers a second one for the same issue. -/
def secondReview : List Input :=
  [.pull 42 (some { pullRequest (commit 97) with closed := true }),
   .pull 43 (some { pullRequest (commit 98) with
     number := 43, url := txt "https://github.com/acme/ben/pull/43" }),
   .unlabel (txt "ben-tracker-bot") (txt "ben:claimed"),
   .comment (txt "ben-tracker-bot") (announcement 905 (txt "43")), .wait 1,
   .control (.report .changesRequested (txt "findings")) false]

/-- A controller with one round. -/
def oneRound : Config := { config with roundCap := 1 }

end Sample

open Review.Sample

/-- One review is within the one round there is. -/
theorem heads_within_cap_firstReview : ∃ w, Runs.run (World.step oneRound) { forge := start }
      (queued ++ firstReview) = some w ∧
    w.forge.reviewedHeads oneRound 900 = [commit 97] ∧
    ((w.forge.reviewedHeads oneRound 900).dedup.length : Int) ≤
      oneRound.roundCap := by
  have hheads : ((Runs.run (World.step oneRound) { forge := start }
      (queued ++ firstReview)).map fun w =>
        w.forge.reviewedHeads oneRound 900) = some [commit 97] := by
    decide +kernel
  have hone : Runs.Along (World.step oneRound) (OnePull oneRound)
      { forge := start } (queued ++ firstReview) :=
    Runs.along_of_check (by decide +kernel)
  obtain ⟨w, hrun, hw⟩ := Option.map_eq_some_iff.1 hheads
  exact ⟨w, hrun, hw, heads_within_cap oneRound start
    (start_fresh oneRound) _ w hrun hone 900 (by rw [hw]; simp)⟩

/-- A second pull request under the same approval is reviewed beyond the cap. -/
theorem heads_beyond_cap : start.Fresh oneRound ∧ ∃ w,
    Runs.run (World.step oneRound) { forge := start }
      (queued ++ firstReview ++ secondReview) = some w ∧
    oneRound.roundCap < (w.forge.reviewedHeads oneRound 900).dedup.length := by
  have hheads : ((Runs.run (World.step oneRound) { forge := start }
      (queued ++ firstReview ++ secondReview)).map fun w => w.forge.reviewedHeads oneRound 900) =
      some [commit 97, commit 98] := by
    decide +kernel
  obtain ⟨w, hrun, hw⟩ := Option.map_eq_some_iff.1 hheads
  refine ⟨start_fresh _, w, hrun, ?_⟩
  rw [hw]
  decide

end Ben.Review
