import Ben.Review.Milestone

/-!
# The deliveries of a comment list

The milestones a comment list holds, one per occurrence: the first comment that names it
(`mem_readMilestones_iff`).  What is appended later adds occurrences and changes none
(`mem_publishedMilestones_append`), and the newest delivery is the one of the greatest occurrence
(`latestPublished_eq_some_iff`).
-/

namespace Ben.Review

open List

variable [Library] {cfg : Config} {comments : List Comment} {t : Trigger}

/-- The delivery a comment announces. -/
def milestoneOf (cfg : Config) (c : Comment) : Option Trigger :=
  if !eqFold c.author cfg.trackerAuthor then none
  else match publishedOccurrence c.body with
    | .error _ => none
    | .ok occ => (publishedPRLink c.body).map fun url =>
        { occurrence := occ, prURL := url, at_ := c.createdAt, commentID := c.id }

lemma readMilestones_cons_none {seen c} (h : milestoneOf cfg c = none) :
    readMilestones cfg seen (c :: comments) = readMilestones cfg seen comments := by
  unfold milestoneOf at h
  rw [readMilestones]
  split at h
  · rename_i hauthor
    rw [if_pos hauthor]
  · rename_i hauthor
    rw [if_neg hauthor]
    cases hocc : publishedOccurrence c.body with
    | error e => rfl
    | ok occ =>
      rw [hocc] at h
      dsimp only at h ⊢
      rw [Option.map_eq_none_iff.1 h]

lemma readMilestones_cons_some {seen c} (h : milestoneOf cfg c = some t) :
    readMilestones cfg seen (c :: comments) =
      if t.occurrence ∈ seen then readMilestones cfg seen comments
      else t :: readMilestones cfg (t.occurrence :: seen) comments := by
  unfold milestoneOf at h
  rw [readMilestones]
  split at h
  · cases h
  · rename_i hauthor
    rw [if_neg hauthor]
    cases hocc : publishedOccurrence c.body with
    | error e =>
      rw [hocc] at h
      cases h
    | ok occ =>
      rw [hocc] at h
      obtain ⟨url, hurl, rfl⟩ := Option.map_eq_some_iff.1 h
      dsimp only
      rw [hurl]
      simp only [contains_eq_mem, decide_eq_true_eq]

/-- A delivery is the first milestone of its occurrence. -/
lemma mem_readMilestones_iff {seen} : t ∈ readMilestones cfg seen comments ↔ t.occurrence ∉ seen ∧
      ∃ before c after, comments = before ++ c :: after ∧ milestoneOf cfg c = some t ∧
        ∀ b ∈ before, ∀ u, milestoneOf cfg b = some u → u.occurrence ≠ t.occurrence := by
  induction comments generalizing seen with
  | nil => simp [readMilestones]
  | cons c comments ih =>
    cases hc : milestoneOf cfg c with
    | none =>
      rw [readMilestones_cons_none hc, ih]
      refine and_congr_right fun _ => ⟨?_, ?_⟩
      · rintro ⟨before, d, after, rfl, hd, hbefore⟩
        refine ⟨c :: before, d, after, rfl, hd, fun b hb u hu => ?_⟩
        obtain rfl | hb := mem_cons.1 hb
        · rw [hc] at hu
          cases hu
        · exact hbefore b hb u hu
      · rintro ⟨before, d, after, heq, hd, hbefore⟩
        cases before with
        | nil =>
          rw [nil_append, List.cons.injEq] at heq
          rw [heq.1, hd] at hc
          cases hc
        | cons b before =>
          rw [cons_append, List.cons.injEq] at heq
          exact ⟨before, d, after, heq.2, hd, fun x hx => hbefore x (.tail b hx)⟩
    | some u =>
      rw [readMilestones_cons_some hc]
      -- the head decides for its own occurrence and is skipped over for every other
      have hother (hne : u.occurrence ≠ t.occurrence) :
          (∃ before d after, comments = before ++ d :: after ∧ milestoneOf cfg d = some t ∧
            ∀ b ∈ before, ∀ v, milestoneOf cfg b = some v → v.occurrence ≠ t.occurrence) ↔
          ∃ before d after, c :: comments = before ++ d :: after ∧ milestoneOf cfg d = some t ∧
            ∀ b ∈ before, ∀ v, milestoneOf cfg b = some v → v.occurrence ≠ t.occurrence := by
        constructor
        · rintro ⟨before, d, after, rfl, hd, hbefore⟩
          refine ⟨c :: before, d, after, rfl, hd, fun b hb v hv => ?_⟩
          obtain rfl | hb := mem_cons.1 hb
          · rw [hc, Option.some.injEq] at hv
            exact hv ▸ hne
          · exact hbefore b hb v hv
        · rintro ⟨before, d, after, heq, hd, hbefore⟩
          cases before with
          | nil =>
            rw [nil_append, List.cons.injEq] at heq
            rw [heq.1, hd, Option.some.injEq] at hc
            exact absurd (congrArg Trigger.occurrence hc).symm hne
          | cons b before =>
            rw [cons_append, List.cons.injEq] at heq
            exact ⟨before, d, after, heq.2, hd, fun x hx => hbefore x (.tail b hx)⟩
      by_cases hsame : u.occurrence = t.occurrence
      · have hfirst : (∃ before d after, c :: comments = before ++ d :: after ∧
            milestoneOf cfg d = some t ∧ ∀ b ∈ before, ∀ v, milestoneOf cfg b = some v →
              v.occurrence ≠ t.occurrence) ↔ u = t := by
          constructor
          · rintro ⟨before, d, after, heq, hd, hbefore⟩
            cases before with
            | nil =>
              rw [nil_append, List.cons.injEq] at heq
              rw [heq.1, hd, Option.some.injEq] at hc
              exact hc.symm
            | cons b before =>
              rw [cons_append, List.cons.injEq] at heq
              exact absurd hsame (hbefore b (.head _) u (heq.1 ▸ hc))
          · rintro rfl
            exact ⟨[], c, comments, rfl, hc, by simp⟩
        rw [hfirst]
        split
        · rename_i hseen
          rw [ih, ← hsame]
          simp [hseen]
        · rename_i hseen
          rw [mem_cons, ih, ← hsame]
          simp [hseen, eq_comm]
      · rw [← hother hsame]
        split
        · exact ih
        · rw [mem_cons, ih, mem_cons, not_or]
          constructor
          · rintro (rfl | ⟨⟨-, hnew⟩, hrest⟩)
            · exact absurd rfl hsame
            · exact ⟨hnew, hrest⟩
          · rintro ⟨hnew, hrest⟩
            exact .inr ⟨⟨fun h => hsame h.symm, hnew⟩, hrest⟩

lemma mem_publishedMilestones_iff : t ∈ publishedMilestones cfg comments ↔
      ∃ before c after, comments = before ++ c :: after ∧ milestoneOf cfg c = some t ∧
        ∀ b ∈ before, ∀ u, milestoneOf cfg b = some u → u.occurrence ≠ t.occurrence := by
  rw [publishedMilestones, mem_insertionSort, mem_readMilestones_iff]
  simp

/-- What was delivered stays delivered. -/
lemma mem_publishedMilestones_append (h : t ∈ publishedMilestones cfg comments) (more) :
    t ∈ publishedMilestones cfg (comments ++ more) := by
  obtain ⟨before, c, after, rfl, hc, hbefore⟩ := mem_publishedMilestones_iff.1 h
  exact mem_publishedMilestones_iff.2 ⟨before, c, after ++ more, by simp, hc, hbefore⟩

/-- The first milestone of an occurrence that some comment names. -/
lemma exists_mem_publishedMilestones {c} (hc : c ∈ comments) (ht : milestoneOf cfg c = some t) :
    ∃ u ∈ publishedMilestones cfg comments, u.occurrence = t.occurrence := by
  let names (d : Comment) : Bool := (milestoneOf cfg d).any fun u => u.occurrence == t.occurrence
  have hnames : names c := by simp [names, ht]
  cases hfind : comments.find? names with
  | none => exact absurd hnames (by simpa using find?_eq_none.1 hfind c hc)
  | some d =>
    obtain ⟨hd, before, after, heq, hbefore⟩ := find?_eq_some_iff_append.1 hfind
    obtain ⟨u, hu, hocc⟩ : ∃ u, milestoneOf cfg d = some u ∧ u.occurrence = t.occurrence := by
      cases hu : milestoneOf cfg d with
      | none => simp [names, hu] at hd
      | some u => exact ⟨u, rfl, by simpa [names, hu] using hd⟩
    refine ⟨u, mem_publishedMilestones_iff.2 ⟨before, d, after, heq, hu, fun b hb v hv => ?_⟩, hocc⟩
    have hother := hbefore b hb
    simp only [names, hv, Option.any_some, Bool.not_eq_true', beq_eq_false_iff_ne] at hother
    exact hocc ▸ hother

/-- There is one delivery per occurrence. -/
lemma eq_of_mem_publishedMilestones {u : Trigger} (ht : t ∈ publishedMilestones cfg comments)
    (hu : u ∈ publishedMilestones cfg comments) (h : t.occurrence = u.occurrence) : t = u := by
  obtain ⟨before, c, after, heq, hc, hbefore⟩ := mem_publishedMilestones_iff.1 ht
  obtain ⟨before', d, after', heq', hd, hbefore'⟩ := mem_publishedMilestones_iff.1 hu
  let names (b : Comment) : Bool := (milestoneOf cfg b).any fun v => v.occurrence == t.occurrence
  have hfirst : comments.find? names = some c := by
    refine find?_eq_some_iff_append.2 ⟨by simp [names, hc], before, after, heq, fun b hb => ?_⟩
    cases hv : milestoneOf cfg b with
    | none => simp [names, hv]
    | some v => simpa [names, hv] using hbefore b hb v hv
  have hfirst' : comments.find? names = some d := by
    refine find?_eq_some_iff_append.2
      ⟨by simp [names, hd, h], before', after', heq', fun b hb => ?_⟩
    cases hv : milestoneOf cfg b with
    | none => simp [names, hv]
    | some v => simpa [names, hv, h] using hbefore' b hb v hv
  cases hfirst.symm.trans hfirst'
  exact Option.some.inj (hc.symm.trans hd)

/-- The newest delivery is the one of the greatest occurrence. -/
lemma latestPublished_eq_some_iff :
    latestPublished cfg comments = some t ↔ t ∈ publishedMilestones cfg comments ∧
      ∀ u ∈ publishedMilestones cfg comments, u.occurrence ≤ t.occurrence := by
  have hsorted : (publishedMilestones cfg comments).Pairwise
      fun a b => a.occurrence ≤ b.occurrence :=
    pairwise_insertionSort (fun a b : Trigger => a.occurrence ≤ b.occurrence) _
  have hlast {u : Trigger} (hu : latestPublished cfg comments = some u) :
      u ∈ publishedMilestones cfg comments ∧
        ∀ v ∈ publishedMilestones cfg comments, v.occurrence ≤ u.occurrence := by
    obtain ⟨front, heq⟩ := getLast?_eq_some_iff.1 hu
    rw [heq] at hsorted ⊢
    refine ⟨by simp, fun v hv => ?_⟩
    obtain hv | hv := mem_append.1 hv
    · exact (pairwise_append.1 hsorted).2.2 v hv u (by simp)
    · rw [mem_singleton.1 hv]
  refine ⟨hlast, fun h => ?_⟩
  obtain ⟨hmem, hgreatest⟩ := h
  cases hu : latestPublished cfg comments with
  | none =>
    rw [latestPublished, getLast?_eq_none_iff] at hu
    rw [hu] at hmem
    cases hmem
  | some u =>
    obtain ⟨humem, hugreatest⟩ := hlast hu
    rw [eq_of_mem_publishedMilestones hmem humem
      (le_antisymm (hugreatest t hmem) (hgreatest u humem))]

end Ben.Review
