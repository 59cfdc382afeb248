import Ben.Review.Blind
import Ben.Tracker.Anchors

/-!
# Milestone comments

The adapter announces a milestone by a comment: a fixed headline, a bounded list of lines and a
marker that names the kind and the occurrence.  The review controller reads published milestones
back out of these comments, and the two share only the text.  What the adapter interpolates is not
sanitised, so the marker is found again only where no other marker of the kind opens in the detail,
the daemon's name or the link; where one does, the reader refuses the body, and so it never takes
the comment for a milestone it is not.
-/

namespace Ben.Tracker

open List
open Ben.Review

/-! ## Rendering -/

def field (name value : Text) : Text := txt "- " ++ name ++ txt ": " ++ value

/-- The lines after those of the kind: the detail, if there is one, and the daemon. -/
def commonLines (c : MilestoneComment) (daemon : String) : List Text :=
  (if c.detail ≠ "" then [field (txt "detail") (txt c.detail)] else []) ++
    [field (txt "daemon") (txt "`" ++ txt daemon ++ txt "`")]

def renderMilestone (c : MilestoneComment) (daemon principal : String) : Except Text Text :=
  let render (headline : Text) (lines : List Text) : Except Text Text :=
    .ok (headline ++ txt "\n\n" ++ join (txt "\n") (lines ++ commonLines c daemon) ++ txt "\n")
  match c.milestone with
  | .claimed =>
    render (txt "**BEN claimed this issue.**")
      [field (txt "claim principal") (txt "@" ++ txt principal)]
  | .published =>
    -- a published comment with no link would assert evidence it does not carry
    if c.prURL = "" then .error (txt "milestone \"published\" requires a pull request URL")
    else render (txt "**BEN published a pull request.**") [field (txt "pull request") (txt c.prURL)]
  | .failed =>
    if (c.reason == .none) == !c.reasonUnavailable then
      .error
        (txt ("milestone \"failed\" needs either a §7.3 failure reason or ReasonUnavailable, " ++
        "not both and not neither"))
    else render (txt "**BEN failed on this issue and released its claim.**")
      [field (txt "reason")
        (if c.reasonUnavailable then
          txt "not recorded — the run record did not survive a restart"
        else txt "`" ++ txt c.reason.name ++ txt "`")]
  | .needsReview => render (txt "**BEN parked this issue for human review.**") []
  | .none => .error (txt "not a SPEC §8.4 milestone: \"\"")

/-- The machine-readable identity of one occurrence of one milestone. -/
def milestoneMarker (m : Milestone) (occurrence : Int) : Text :=
  txt "<!-- ben:milestone kind=" ++ txt m.name ++ txt " occurrence=" ++ itoa occurrence ++
    txt " -->"

/-- What is posted for a rendered milestone. -/
def commentBody (rendered : Text) (m : Milestone) (occurrence : Int) : Text :=
  rendered ++ txt "\n" ++ milestoneMarker m occurrence ++ txt "\n"

/-! ## Markers in the text -/

/-- The opening of a milestone marker. -/
def opening : Text := txt "<!-- " ++ markerMilestone ++ txt " "

/-- No milestone marker opens in the text. -/
def Unopened (s : Text) : Prop := ¬ opening <:+: s

instance (s : Text) : Decidable (Unopened s) :=
  decidable_of_iff (contains s opening = false) contains_eq_false

/-- A byte that the opening has not separates the openings of a text. -/
lemma Unopened.append_cons {a b x} (hx : x ∉ opening) (ha : Unopened a) (hb : Unopened b) :
    Unopened (a ++ x :: b) := by
  intro hin
  obtain hin | hin := Scan.infix_or_of_infix_append_cons hx hin
  · exact ha hin
  · exact hb hin

/-- Before the text anything may stand that has no angle bracket. -/
lemma Unopened.append_left {a b} (ha : (60 : UInt8) ∉ a) (hb : Unopened b) : Unopened (a ++ b) := by
  intro hin
  exact hb (Scan.infix_of_infix_append ha hin)

lemma join_lines (l k lines) :
    join (txt "\n") (l :: k :: lines) = l ++ 10 :: join (txt "\n") (k :: lines) := by
  rw [show join (txt "\n") (l :: k :: lines) = l ++ [10] ++ join (txt "\n") (k :: lines) from rfl,
    append_assoc, singleton_append]

lemma unopened_join {lines} (h : ∀ l ∈ lines, Unopened l) : Unopened (join (txt "\n") lines) := by
  induction lines with
  | nil => decide
  | cons l lines ih =>
    have hl : Unopened l := h l (by simp)
    have hlines := ih fun l hl => h l (.tail _ hl)
    cases lines with
    | nil => exact hl
    | cons k lines =>
      rw [join_lines]
      exact Unopened.append_cons (by decide) hl hlines

/-- The marker is a marker of the review controller's, with two fields. -/
lemma milestoneMarker_eq (m : Milestone) (occurrence : Int) :
    milestoneMarker m occurrence = renderMarker markerMilestone
      [(txt "kind", txt m.name), (txt "occurrence", itoa occurrence)] := by
  rw [milestoneMarker, renderMarker, markerMilestone, show txt "<!-- ben:milestone kind=" =
      txt "<!-- " ++ txt "ben:milestone" ++ txt " " ++ (txt "kind" ++ txt "=") by decide,
    show txt " occurrence=" = txt " " ++ (txt "occurrence" ++ txt "=") by decide]
  simp [join, renderField]

lemma renderable_milestone (m : Milestone) {occurrence : Int} (hocc : IsId occurrence) :
    Renderable [(txt "kind", txt m.name), (txt "occurrence", itoa occurrence)] := by
  refine renderable_of_keys [txt "kind", txt "occurrence"] rfl (by decide +kernel) (by decide) ?_
  intro v hv
  simp only [map_cons, map_nil, mem_cons, not_mem_nil, or_false] at hv
  obtain rfl | rfl := hv
  · cases m <;> decide +kernel
  · exact plain_itoa hocc

section

variable [Review.Library] {rendered : Text} {m : Milestone} {occurrence : Int}

/-- The reader finds the occurrence of a published milestone if no other marker opens. -/
lemma publishedOccurrence_of_unopened (h : Unopened rendered) (hocc : IsId occurrence) :
    publishedOccurrence (commentBody rendered .published occurrence) = .ok occurrence := by
  have hpre : Unopened (rendered ++ txt "\n") :=
    Unopened.append_cons (x := 10) (by decide) h (by decide : Unopened [])
  have hparse := parseMarker_of_unopened hpre (by decide +kernel)
    (renderable_milestone .published hocc)
  rw [commentBody, milestoneMarker_eq, publishedOccurrence, hparse]
  simp only [bind, Except.bind]
  rw [if_neg (by simp [Milestone.name])]
  exact Fields.id_itoa _ _ rfl hocc

/-- The reader finds no published milestone in the comment of another kind. -/
lemma publishedOccurrence_of_ne (hm : m ≠ .published) (hocc : IsId occurrence) (occ : Int) :
    publishedOccurrence (commentBody rendered m occurrence) ≠ .ok occ := by
  rw [commentBody, milestoneMarker_eq, publishedOccurrence]
  by_cases h : opening <:+: rendered ++ txt "\n"
  · rw [parseMarker_of_opened h]
    simp [bind, Except.bind]
  · rw [parseMarker_of_unopened h (by decide +kernel) (renderable_milestone m hocc)]
    have hkind : txt m.name ≠ txt "published" := by
      cases m with
      | published => exact absurd rfl hm
      | _ => decide
    simp only [bind, Except.bind]
    rw [if_pos]
    · simp
    · simpa [lookup_cons] using hkind

end

/-! ## The link -/

/-- What ends in no white space still does so after more text in front, if the last byte of that
text is part of no longer white space character. -/
lemma spaceWidthBack_append {u r} (hu : u ≠ []) (h : spaceWidthBack u = 0) :
    spaceWidthBack (u ++ 32 :: r) = 0 := by
  have hnone : ∀ s ∈ spaces, ¬ s.reverse <+: u := by
    intro s hs hpre
    rw [spaceWidthBack] at h
    cases hfind : spaces.find? fun s => s.reverse.isPrefixOf u with
    | none => exact find?_eq_none.1 hfind s hs <| isPrefixOf_iff_prefix.2 hpre
    | some t =>
      rw [hfind] at h
      have hpos : ∀ t ∈ spaces, t.length ≠ 0 := by decide
      exact hpos t (mem_of_find?_eq_some hfind) h
  rw [spaceWidthBack, find?_eq_none.2]
  · rfl
  intro s hs hpre
  have hpre := isPrefixOf_iff_prefix.1 hpre
  obtain hpre | ⟨t, ht⟩ := prefix_or_prefix_of_prefix hpre (prefix_append u (32 :: r))
  · exact hnone s hs hpre
  · -- the white space would reach over the blank
    cases t with
    | nil => exact hnone s hs (by rw [← ht, append_nil])
    | cons b t =>
      have hb : b = 32 := by
        rw [← ht, prefix_append_right_inj, cons_prefix_cons] at hpre
        exact hpre.1
      have hblank : ∀ s ∈ spaces, (32 : UInt8) ∈ s.reverse → s.reverse.length = 1 := by decide
      have hlen := hblank s hs (by rw [← ht, hb]; simp)
      rw [← ht, length_append, length_cons] at hlen
      exact hu (length_eq_zero_iff.1 (by omega))

/-- A text without white space around it ends in none. -/
lemma spaceWidthBack_of_trimSpace {s : Text} (hne : s ≠ []) (htrim : trimSpace s = s) :
    spaceWidthBack s.reverse = 0 := by
  have hsuf := Scan.trimLeft_isSuffix spaceWidth s
  have hpre : trimSpace s <+: Scan.trimLeft spaceWidth s := Scan.trimRight_isPrefix _
  have hleft : Scan.trimLeft spaceWidth s = s := by
    refine hsuf.eq_of_length (le_antisymm hsuf.length_le ?_)
    conv_lhs => rw [← htrim]
    exact hpre.length_le
  rw [trimSpace, hleft, Scan.trimRight, Scan.trimLeft] at htrim
  obtain hnil | hwidth := Scan.width_trimLeftFrom spaceWidthBack 0 s.reverse
  · rw [hnil] at htrim
    exact absurd htrim.symm hne
  · rwa [← reverse_eq_iff.1 htrim]

/-- The line of a link has no white space around it if the link has none. -/
lemma trimSpace_link {url} (hne : url ≠ []) (htrim : trimSpace url = url) :
    trimSpace (prLinkField ++ url) = prLinkField ++ url := by
  have hleft : Scan.trimLeft spaceWidth (prLinkField ++ url) = prLinkField ++ url :=
    Scan.trimLeft_of_width (PlainByte.spaceWidth_eq (by decide) _)
  rw [trimSpace, hleft, Scan.trimRight, Scan.trimLeft_of_width, reverse_reverse]
  rw [reverse_append]
  exact spaceWidthBack_append (by simpa using hne) (spaceWidthBack_of_trimSpace hne htrim)

lemma splitOn_line {a} (ha : (10 : UInt8) ∉ a) (b : Text) :
    (a ++ 10 :: b).splitOn 10 = a :: b.splitOn 10 := by
  refine splitOnP_append_cons_of_forall_mem ?_ _ (by simp) b
  intro x hx
  rw [beq_eq_false_iff_ne]
  rintro rfl
  exact ha hx

/-- The first line after the headline is the one the link is read from. -/
lemma publishedPRLink_of_line {url headline} (hne : url ≠ []) (htrim : trimSpace url = url)
    (hurl : (10 : UInt8) ∉ url) (hhead : (10 : UInt8) ∉ headline)
    (hplain : cutPrefix (trimSpace headline) prLinkField = none) (rest) :
    publishedPRLink (headline ++ 10 :: 10 :: (prLinkField ++ url ++ 10 :: rest)) = some url := by
  have hline : (10 : UInt8) ∉ prLinkField ++ url := by
    rw [mem_append, not_or]
    exact ⟨by decide, hurl⟩
  have hcut : cutPrefix (prLinkField ++ url) prLinkField = some url := by
    have hpre : prLinkField.isPrefixOf (prLinkField ++ url) :=
      isPrefixOf_iff_prefix.2 (prefix_append _ _)
    rw [cutPrefix, if_pos hpre, drop_left]
  have hblank : cutPrefix (trimSpace []) prLinkField = none := by decide
  rw [publishedPRLink, splitOn_line hhead, ← nil_append (10 :: (prLinkField ++ _ ++ _)),
    splitOn_line (by simp), splitOn_line hline]
  simp only [findSome?_cons, hplain, hblank, trimSpace_link hne htrim, hcut, htrim,
    Option.bind_none, Option.bind_some, if_neg hne]

/-! ## Reading back -/

/-- What is written beside the marker of a published milestone opens no marker of the kind, and the
link has no white space around it. -/
structure Quotable (c : MilestoneComment) (daemon : String) : Prop where
  detail : Unopened (txt c.detail)
  daemon : Unopened (txt daemon)
  prURL : Unopened (txt c.prURL)
  trimmed : Trimmed c.prURL

lemma unopened_commonLines {c : MilestoneComment} {daemon} (hdetail : Unopened (txt c.detail))
    (hdaemon : Unopened (txt daemon)) :
    ∀ l ∈ commonLines c daemon, Unopened l := by
  intro l hl
  rw [commonLines, mem_append, mem_singleton] at hl
  obtain hl | rfl := hl
  · split at hl
    · rw [mem_singleton.1 hl]
      exact Unopened.append_left (by decide) hdetail
    · exact absurd hl not_mem_nil
  · rw [field, ← append_assoc, ← append_assoc, append_assoc _ (txt daemon)]
    refine Unopened.append_left (by decide) ?_
    exact Unopened.append_cons (x := 96) (by decide) hdaemon
      (by decide : Unopened [])

/-- A rendered milestone opens a marker only where one of its lines does. -/
lemma unopened_render {c : MilestoneComment} {daemon headline lines} (hhead : Unopened headline)
    (hlines : ∀ l ∈ lines, Unopened l) (hdetail : Unopened (txt c.detail))
    (hdaemon : Unopened (txt daemon)) :
    Unopened (headline ++ txt "\n\n" ++ join (txt "\n") (lines ++ commonLines c daemon) ++
      txt "\n") := by
  have hten : (10 : UInt8) ∉ opening := by decide
  have hnil : Unopened [] := by decide
  rw [show txt "\n\n" = [10, 10] by decide, append_assoc, append_assoc]
  refine Unopened.append_cons hten hhead (Unopened.append_cons (a := []) hten hnil ?_)
  refine Unopened.append_cons hten (unopened_join fun l hl => ?_) hnil
  obtain hl | hl := mem_append.1 hl
  · exact hlines l hl
  · exact unopened_commonLines hdetail hdaemon l hl

/-- The headline of a published milestone. -/
def publishedHeadline : Text := txt "**BEN published a pull request.**"

/-- A published milestone has its link on the first line after the headline, and opens a marker
only where what it quotes does. -/
lemma renderMilestone_published {c : MilestoneComment} {daemon principal rendered}
    (hkind : c.milestone = .published) (h : renderMilestone c daemon principal = .ok rendered) :
    c.prURL ≠ "" ∧ (∃ rest, rendered =
      publishedHeadline ++ 10 :: 10 :: (prLinkField ++ txt c.prURL ++ 10 :: rest)) ∧
      (Unopened (txt c.detail) → Unopened (txt daemon) → Unopened (txt c.prURL) →
        Unopened rendered) := by
  unfold renderMilestone at h
  rw [hkind] at h
  dsimp only at h
  split at h
  · exact absurd h (by simp)
  next hurl =>
  obtain ⟨k, lines, hlines⟩ : ∃ k lines, commonLines c daemon = k :: lines := by
    rw [commonLines]
    split
    · exact ⟨_, _, rfl⟩
    · exact ⟨_, _, rfl⟩
  have hlink : field (txt "pull request") (txt c.prURL) = prLinkField ++ txt c.prURL := by
    rw [field, show txt "- " ++ txt "pull request" ++ txt ": " = prLinkField by decide]
  refine ⟨hurl, ⟨join (txt "\n") (commonLines c daemon) ++ [10], ?_⟩,
    fun hdetail hdaemon hquoted => ?_⟩
  · rw [← Except.ok.inj h, singleton_append, hlines, join_lines, hlink, publishedHeadline,
      show txt "\n\n" = [10, 10] by decide, show txt "\n" = [10] by decide]
    simp
  · rw [← Except.ok.inj h]
    refine unopened_render (by decide) (fun l hl => ?_) hdetail hdaemon
    rw [mem_singleton.1 hl]
    exact Unopened.append_left (by decide) hquoted

lemma txt_ne_nil {s} (hs : s ≠ "") : txt s ≠ [] := by
  intro h
  refine hs (String.toList_eq_nil_iff.1 ?_)
  cases hl : s.toList with
  | nil => rfl
  | cons c l =>
    rw [txt, hl, flatMap_cons, append_eq_nil_iff] at h
    have hpos := c.utf8Size_pos
    rw [← String.length_utf8EncodeChar, h.1] at hpos
    exact absurd hpos (by simp)

/-- The comment of a milestone, read by the review controller: a published milestone is the
occurrence with its link, and any other one is no published milestone. -/
theorem milestone_read_back [Review.Library] (c : MilestoneComment) (daemon principal : String)
    (occurrence : Int) (hocc : IsId occurrence) (hline : (10 : UInt8) ∉ txt c.prURL)
    (hquotable : c.milestone = .published → Quotable c daemon) (rendered : Text)
    (hrendered : renderMilestone c daemon principal = .ok rendered) (cfg : Review.Config)
    (comment : Review.Comment) (hauthor : eqFold comment.author cfg.trackerAuthor = true)
    (hbody : comment.body = commentBody rendered c.milestone occurrence) :
    publishedMilestones cfg [comment] =
      if c.milestone = .published then
        [{ occurrence := occurrence, prURL := txt c.prURL, at_ := comment.createdAt
           commentID := comment.id }]
      else [] := by
  by_cases hkind : c.milestone = .published
  · obtain ⟨hurl, ⟨rest, hrest⟩, hunopened⟩ := renderMilestone_published hkind hrendered
    obtain ⟨hdetail, hdaemon, hquoted, htrimmed⟩ := hquotable hkind
    have hocc' := publishedOccurrence_of_unopened (hunopened hdetail hdaemon hquoted) hocc
    have hlink : publishedPRLink (commentBody rendered .published occurrence) =
        some (txt c.prURL) := by
      have := publishedPRLink_of_line (txt_ne_nil hurl) htrimmed hline
        (by decide : (10 : UInt8) ∉ publishedHeadline) (by decide)
        (rest ++ txt "\n" ++ milestoneMarker .published occurrence ++ txt "\n")
      rw [commentBody, hrest]
      simpa using this
    rw [hkind] at hbody
    rw [if_pos hkind, publishedMilestones, readMilestones, hauthor, hbody, hocc', hlink]
    rfl
  · rw [if_neg hkind, publishedMilestones, readMilestones, hauthor, hbody]
    cases h : publishedOccurrence (commentBody rendered c.milestone occurrence) with
    | error e => rfl
    | ok occ => exact absurd h (publishedOccurrence_of_ne hkind hocc occ)

namespace Sample

/-- A delivery with a plain link. -/
def delivery : MilestoneComment :=
  { milestone := .published, prURL := "https://github.com/acme/ben/pull/7" }

/-- The comment the tracker posts for a rendered milestone. -/
def posted (rendered : Text) : Review.Comment :=
  { id := 1, author := Review.Sample.config.trackerAuthor, createdAt := 40
    body := commentBody rendered .published 1001 }

end Sample

/-- A plain delivery is read back. -/
theorem milestone_read_back_delivery : let _ : Review.Library := plainLibrary
    ∃ rendered, renderMilestone Sample.delivery "ben@host" "ben-claim-bot" = .ok rendered ∧
      (publishedMilestones Review.Sample.config [Sample.posted rendered]).map (·.prURL) =
        [txt Sample.delivery.prURL] := by
  intro _
  refine ⟨_, rfl, ?_⟩
  rw [milestone_read_back Sample.delivery "ben@host" "ben-claim-bot" 1001 (by decide)
    (by decide) (fun _ => ⟨by decide, by decide, by decide,
      by decide⟩) _ rfl Review.Sample.config (Sample.posted _) (eqFold_self _) rfl]
  rfl

/-- A detail, a daemon or a link that quotes the opening of a marker hides the delivery, and the
blank before a link is lost. -/
theorem delivery_lost : let _ : Review.Library := plainLibrary
    let readBack (c : MilestoneComment) (daemon : String) :=
      (renderMilestone c daemon "ben-claim-bot").toOption.map fun rendered =>
        (publishedMilestones Review.Sample.config [Sample.posted rendered]).map (·.prURL)
    readBack { Sample.delivery with detail := "see <!-- ben:milestone kind" } "ben@host" =
        some [] ∧
      readBack Sample.delivery "<!-- ben:milestone kind" = some [] ∧
      readBack { Sample.delivery with prURL := "see <!-- ben:milestone kind" } "ben@host" =
        some [] ∧
      readBack { Sample.delivery with prURL := " https://github.com/acme/ben/pull/7" } "ben@host" =
        some [txt "https://github.com/acme/ben/pull/7"] := by
  decide +kernel

end Ben.Tracker
