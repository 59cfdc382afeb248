import Ben.Orchestrator.Steps

/-!
# Safety of every run

What the invariant of the tenures says about the history of a run: agents are started on pinned
content, an attempt's workspace is relied on only when nothing of the attempt is left, no more
agents run than there are slots, and work counts as published only on the verifier's word.  Where
the loop itself does not see to the first and the third, the runs that show it follow.
-/

namespace Ben

open List

/-! ## A configuration to evaluate runs in -/

namespace Sample

scoped instance platform : Platform := plainPlatform

/-- One required label and a number of slots. -/
def definition (cap : Int) : Definition :=
  { prompt := "work", requiredLabels := ["go"], limits := { maxConcurrentAgents := cap } }

/-- The configuration of a daemon whose principal is `ben`. -/
def snapshot (cap : Int) : Snapshot :=
  { definition := definition cap
    runtime := { definition := definition cap, claimPrincipal := "ben" } }

/-- An open issue, labelled and assigned to the daemon. -/
def issue (id : String) : Issue :=
  { identifier := id, title := "title", body := "body", labels := ["go"], state := "open"
    assignees := ["ben"] }

/-- The change log of such an issue: the label, then the assignment. -/
def history : List ClaimEvent :=
  [{ kind := .labeled, subject := "go", at_ := 5000000000, id := 1 },
    { kind := .assigned, subject := "ben", at_ := 7000000000, id := 2 }]

/-- The claim base an interrupted claim leaves behind. -/
def pending : ClaimBase := { state := .pending, epoch := 2 }

/-- The claim base a claim runs under. -/
def pinned : ClaimBase :=
  { state := .pinned, epoch := 2, baseSHA := "base", targetBranch := "main" }

/-- A workspace made under that claim base. -/
def workspace : Workspace :=
  { path := "/work", claimEpoch := 2, baseSHA := "base", targetBranch := "main" }

/-- A startup that finds claims whose base was begun and never pinned. -/
def startup (ids : List String) : Orchestrator.StartupReads :=
  { candidates := .ok (ids.map issue)
    facts := fun _ =>
      { history := .ok history, claimBase := pending, marker := { state := .absent } } }

/-- The daemon after such a startup. -/
def booted (cap : Int) (ids : List String) : Orchestrator :=
  Orchestrator.boot (snapshot cap) "daemon" 9000000000 (startup ids)

/-- The content was read and never edited. -/
def approved : Orchestrator.Answer :=
  .approval (.ok history) (.ok { content := { title := "title", body := "body" }, edit := .never })

/-- The claim base was pinned. -/
def based : Orchestrator.Answer := .claimBase none [] none pinned none

/-- The workspace was made. -/
def prepared : Orchestrator.Answer := .prepare workspace {} none pinned none

/-- A claim found at startup is approved, based, prepared and started; its run succeeds, is found
quiet, and its work is verified to be published. -/
def publishedRun : List Orchestrator.Input :=
  [.answer 0 approved {}, .answer 1 based {}, .runEffect none, .answer 2 .ack {},
    .answer 3 prepared {},
    .answer 4 (.start true none) {},
    .answer 5 (.event { type := .succeeded }) {},
    .answer 5 .closed {},
    .answer 6 (.termination .confirmed) {},
    .answer 8 (.summary {} none) {},
    .answer 9
      (.verify (.ok history) pinned none (.ok { verdict := .published, prURL := "url" })) {}]

end Sample

namespace Orchestrator

section

variable [Platform]

/-- The candidates of a startup have names. -/
def StartupReads.Named (reads : StartupReads) : Prop :=
  ∀ candidates, reads.candidates = .ok candidates → ∀ issue ∈ candidates, issue.identifier ≠ ""

variable {cur : Snapshot} {daemonInstance : String} {now : Time} {reads : StartupReads}
  {inputs : List Input} {o' : Orchestrator}

/-! ## Content -/

/-- In every run in which waiting records are driven only when all of them are pinned, every agent
is started on content that was pinned, by a check that passed, earlier in the same tenure. -/
theorem startedPinned_of_run (hnamed : reads.Named)
    (halong : Runs.Along step (Meets fun o w a => Honest w a ∧ o.PinsFirst w a)
      (boot cur daemonInstance now reads) inputs)
    (hrun : Runs.run step (boot cur daemonInstance now reads) inputs = some o') (t : Token) :
    StartedPinned t o'.trace := by
  let m : Mode := { pinned := True, rations := False.elim, price := False.elim }
  have hgood := good_of_run (m := m) (fun hq => hq)
    ⟨hnamed, False.elim, False.elim, fun hl => hl.elim False.elim False.elim⟩
    (halong.mono fun o i h => ⟨h.mono fun o w a h =>
      ⟨h.1, False.elim, False.elim, fun _ => h.2, False.elim, False.elim⟩,
      fun hl => hl.elim False.elim False.elim⟩) hrun
  exact (hgood.1.sound t).startedPinned trivial

end

section

open Sample

lemma named_startup (ids) (hids : "" ∉ ids) : (startup ids).Named := by
  rintro candidates heq issue hissue
  cases heq
  obtain ⟨id, hid, rfl⟩ := mem_map.1 hissue
  exact fun hempty => hids (hempty ▸ hid)

/-- The agent of the sample run is started on pinned content. -/
theorem startedPinned_publishedRun : ∃ o', Runs.run step (booted 1 ["7"]) publishedRun = some o' ∧
      (o'.trace.any fun a => (a.startVars 1).isSome) = true ∧ StartedPinned 1 o'.trace := by
  have hany : ((Runs.run step (booted 1 ["7"]) publishedRun).any fun o =>
      o.trace.any fun a => (a.startVars 1).isSome) = true := by decide
  obtain ⟨o', hrun, hstart⟩ := (Option.any_eq_true _ _).1 hany
  refine ⟨o', hrun, hstart, startedPinned_of_run (named_startup ["7"] (by decide)) ?_ hrun 1⟩
  exact Runs.along_of_check (by decide)

/-- A start before anything was pinned was not started on pinned content. -/
lemma not_startedPinned [Platform] {t} {trace : List Act}
    (hstart : (trace.any fun a => (a.startVars t).isSome)) (hpin : lastPinned t trace = none) :
    ¬ StartedPinned t trace := by
  induction trace with
  | nil => cases hstart
  | cons a rest ih =>
    simp only [lastPinned, findSome?_cons] at hpin
    have hrest : lastPinned t rest = none := by
      cases hp : a.pin t with
      | none =>
        rw [hp] at hpin
        exact hpin
      | some p =>
        rw [hp] at hpin
        cases hpin
    rintro ⟨hthis, hbefore⟩
    rw [any_cons, Bool.or_eq_true] at hstart
    rcases hstart with hstart | hstart
    · obtain ⟨vars, hvars⟩ := Option.isSome_iff_exists.1 hstart
      obtain ⟨pin, approval, hsome, -⟩ := hthis vars hvars
      simp [hrest] at hsome
    · exact ih hstart hrest hbefore

/-- A claim found at startup waits for its approval, which cannot be read; the next reconciliation
drives it on to its claim base, and it is launched. -/
def unapprovedRun : List Input :=
  [.answer 0 (.approval (.error { text := "unavailable" }) (.ok {})) {}, .tick {},
    .answer 1 (.reconcile (fun id => { issue := some (issue id) }) {}) {},
    .answer 2 based {},
    .runEffect none,
    .answer 4 .ack {},
    .answer 5 prepared {}]

/-- An agent is started on content that no check has passed. -/
theorem unapproved_start : (startup ["7"]).Named ∧
    Runs.Along step (Meets fun _ => Honest) (booted 1 ["7"]) unapprovedRun ∧
    ∃ o', Runs.run step (booted 1 ["7"]) unapprovedRun = some o' ∧
      ¬ StartedPinned 1 o'.trace := by
  refine ⟨named_startup ["7"] (by decide), Runs.along_of_check (by decide), ?_⟩
  · have hany : ((Runs.run step (booted 1 ["7"]) unapprovedRun).any fun o =>
        (o.trace.any fun a => (a.startVars 1).isSome) && (lastPinned 1 o.trace).isNone) = true := by
      decide
    obtain ⟨o', hrun, hstart⟩ := (Option.any_eq_true _ _).1 hany
    rw [Bool.and_eq_true, Option.isNone_iff_eq_none] at hstart
    exact ⟨o', hrun, not_startedPinned hstart.1 hstart.2⟩

end

section

variable [Platform] {cur : Snapshot} {daemonInstance : String} {now : Time}
  {reads : StartupReads} {inputs : List Input} {o' : Orchestrator}

/-! ## Workspaces -/

/-- The invariant of every run, without limits or further promises. -/
lemma good_of_honest (hnamed : reads.Named)
    (halong : Runs.Along step (Meets fun _ => Honest) (boot cur daemonInstance now reads) inputs)
    (hrun : Runs.run step (boot cur daemonInstance now reads) inputs = some o') :
    Good { rations := False.elim, price := False.elim } o'.view := by
  refine (good_of_run (fun hq => hq)
    ⟨hnamed, False.elim, False.elim, fun hl => hl.elim False.elim False.elim⟩
    (halong.mono fun o i h => ⟨h.mono fun o w a h => ?_, fun hl => ?_⟩) hrun).1
  · exact ⟨h, False.elim, False.elim, False.elim, False.elim, False.elim⟩
  · exact hl.elim False.elim False.elim

/-- In every run, whatever relies on nothing of a tenure's last attempt being left happens when
nothing is: the attempt's start came back without a handle, or its handle was confirmed quiet.
A tenure of which something may still be running is the one the table has for its issue. -/
theorem relied_when_free (hnamed : reads.Named)
    (halong : Runs.Along step (Meets fun _ => Honest) (boot cur daemonInstance now reads) inputs)
    (hrun : Runs.run step (boot cur daemonInstance now reads) inputs = some o') (t : Token) :
    ReliedWhenFree t o'.trace ∧
      (live t o'.trace ≠ [] → o'.Has (o'.heap t).issue.identifier t) := by
  have hs := (good_of_honest hnamed halong hrun).sound t
  exact ⟨hs.reliedWhenFree, fun hlive => (hs.live hlive).2⟩

end

section

open Sample

/-- The sample run relies on its attempt being gone, after it was found quiet. -/
theorem relied_when_free_publishedRun :
    ∃ o', Runs.run step (booted 1 ["7"]) publishedRun = some o' ∧
      (o'.trace.any fun a => a.relies 1) = true ∧ ReliedWhenFree 1 o'.trace ∧
      (live 1 o'.trace ≠ [] → o'.Has (o'.heap 1).issue.identifier 1) := by
  have hany : ((Runs.run step (booted 1 ["7"]) publishedRun).any fun o =>
      o.trace.any fun a => a.relies 1) = true := by decide
  obtain ⟨o', hrun, hrelies⟩ := (Option.any_eq_true _ _).1 hany
  exact ⟨o', hrun, hrelies, relied_when_free (named_startup ["7"] (by decide))
    (Runs.along_of_check (by decide)) hrun 1⟩

end

section

variable [Platform] {cur : Snapshot} {daemonInstance : String} {now : Time}
  {reads : StartupReads} {inputs : List Input} {o' : Orchestrator}

/-! ## Slots -/

/-- An agent of the issue was started and is not known to be gone. -/
def Running (o : Orchestrator) (id : String) : Prop :=
  ∃ t, (o.heap t).issue.identifier = id ∧ live t o.trace ≠ []

/-- A tenure of which something may be running takes a slot. -/
lemma bound_of_live {m} {v : Tenure} (h : Sound m v) (hlive : v.past.live ≠ []) :
    v.phase.bound := by
  have hquiet : v.phase.domainQuiet = false :=
    Bool.eq_false_of_not_eq_true fun hq => hlive (h.quiet hq)
  rcases (h.live hlive).1 with hstart | hhandle
  · exact Phase.bound_of_state (.inr (.inl (h.launching (by omega)).state))
  · rcases (h.handle _ hhandle).2.1 with hs | hs | hs <;> simp [Phase.bound, hs, hquiet]

/-- As many issues as there are slots taken can have something running. -/
lemma running_le_slots {m} {o : Orchestrator} (h : Good m o.view) {ids : List String}
    (hnodup : ids.Nodup) (hrunning : ∀ id ∈ ids, o.Running id) : ids.length ≤ o.view.slots := by
  have hsub : ids ⊆ (o.records.entries.filter fun e => (o.tenure e.2).phase.bound).map (·.1) := by
    intro id hid
    obtain ⟨t, rfl, hlive⟩ := hrunning id hid
    have hs := h.sound t
    refine mem_map.2 ⟨⟨_, t⟩, mem_filter.2 ⟨mem_entries_of_has (hs.live hlive).2, ?_⟩, rfl⟩
    exact bound_of_live hs hlive
  calc ids.length
      ≤ ((o.records.entries.filter fun e => (o.tenure e.2).phase.bound).map (·.1)).length :=
        (subperm_of_subset hnodup hsub).length_le
    _ = o.view.slots := by
        rw [length_map, ← countP_eq_length_filter]
        rfl

/-- In every run under a fixed cap in which a slot is free whenever a record goes ahead without
one being looked for, no more issues than the cap have an agent that was started and is not known
to be gone. -/
theorem running_le_cap {cap : Int} (hnamed : reads.Named)
    (hcap : cur.definition.limits.maxConcurrentAgents = cap)
    (hboot : ∀ candidates, reads.candidates = .ok candidates →
      BootSlotted cur reads ((initial cur daemonInstance now).readEndedCycles reads) candidates)
    (halong : Runs.Along step (Meets fun o w a => Honest w a ∧ o.Slotted w a ∧
      o.definition.limits.maxConcurrentAgents = cap) (boot cur daemonInstance now reads) inputs)
    (hrun : Runs.run step (boot cur daemonInstance now reads) inputs = some o')
    {ids : List String} (hnodup : ids.Nodup) (hrunning : ∀ id ∈ ids, o'.Running id) :
    (ids.length : Int) ≤ max 0 cap := by
  let m : Mode := { capped := True, cap, rations := False.elim, price := False.elim }
  have hgood := good_of_run (m := m) (fun hq => hq)
    ⟨hnamed, fun _ => hboot, fun _ => hcap, fun hl => hl.elim False.elim False.elim⟩
    (halong.mono fun o i h => ⟨h.mono fun o w a h =>
      ⟨h.1, fun _ => h.2.1, fun _ => h.2.2, False.elim, False.elim, False.elim⟩,
      fun hl => hl.elim False.elim False.elim⟩) hrun
  exact (Int.ofNat_le.2 (running_le_slots hgood.1 hnodup hrunning)).trans (hgood.2 trivial)

end

section

open Sample

/-- The one agent of the sample run, started and not yet known to be gone, has the one slot. -/
theorem running_le_cap_publishedRun :
    ∃ o', Runs.run step (booted 1 ["7"]) (publishedRun.take 6) = some o' ∧
      o'.Running "7" ∧ ((["7"] : List String).length : Int) ≤ max 0 1 := by
  have hany : ((Runs.run step (booted 1 ["7"]) (publishedRun.take 6)).any fun o =>
      (o.heap 1).issue.identifier == "7" && !(live 1 o.trace).isEmpty) = true := by decide
  obtain ⟨o', hrun, hlive⟩ := (Option.any_eq_true _ _).1 hany
  rw [Bool.and_eq_true, beq_iff_eq, Bool.not_eq_true', isEmpty_eq_false_iff] at hlive
  have hrunning : o'.Running "7" := ⟨1, hlive.1, hlive.2⟩
  refine ⟨o', hrun, hrunning, running_le_cap (named_startup ["7"] (by decide)) rfl ?_
    (Runs.along_of_check (by decide)) hrun (by decide) (by simpa using hrunning)⟩
  intro candidates heq before issue after hsplit _ _ _ _
  cases heq
  obtain rfl : before = [] := by
    cases before with
    | nil => rfl
    | cons _ rest => simp at hsplit
  decide

/-- Two claims found at startup go ahead together, whatever the cap. -/
def twoClaimsRun : List Input :=
  [.answer 0 approved {}, .answer 1 approved {}, .answer 2 based {}, .answer 3 based {},
    .runEffect none, .runEffect none,
    .answer 4 .ack {}, .answer 5 .ack {},
    .answer 6 prepared {}, .answer 7 prepared {},
    .answer 8 (.start true none) {}, .answer 9 (.start true none) {}]

/-- Under a cap of one, the agents of two issues run at the same time. -/
theorem running_exceeds_cap : (startup ["7", "8"]).Named ∧
    Runs.Along step (Meets fun o w a => Honest w a ∧ o.definition.limits.maxConcurrentAgents = 1)
      (booted 1 ["7", "8"]) twoClaimsRun ∧
    ∃ o', Runs.run step (booted 1 ["7", "8"]) twoClaimsRun = some o' ∧
      o'.Running "7" ∧ o'.Running "8" := by
  refine ⟨named_startup _ (by decide), Runs.along_of_check (by decide), ?_⟩
  have hany : ((Runs.run step (booted 1 ["7", "8"]) twoClaimsRun).any fun o =>
      ((o.heap 1).issue.identifier == "7" && !(live 1 o.trace).isEmpty) &&
        ((o.heap 2).issue.identifier == "8" && !(live 2 o.trace).isEmpty)) = true := by
    decide
  obtain ⟨o', hrun, hlive⟩ := (Option.any_eq_true _ _).1 hany
  simp only [Bool.and_eq_true, beq_iff_eq, Bool.not_eq_true', isEmpty_eq_false_iff] at hlive
  exact ⟨o', hrun, ⟨1, hlive.1⟩, ⟨2, hlive.2⟩⟩

end

section

variable [Platform] {cur : Snapshot} {daemonInstance : String} {now : Time}
  {reads : StartupReads} {inputs : List Input} {o' : Orchestrator}

/-! ## Published work -/

/-- In every run, a tenure enters `done`, owes the published milestone or has its workspace
disposed as published only after the verifier answered that the work in the record's workspace is
published, and that workspace is of the claim epoch the record holds. -/
theorem published_certified (hnamed : reads.Named)
    (halong : Runs.Along step (Meets fun _ w a => Honest w a ∧ Pathed w a)
      (boot cur daemonInstance now reads) inputs)
    (hrun : Runs.run step (boot cur daemonInstance now reads) inputs = some o') (t : Token) :
    PublishedCertified t (o'.heap t).issue.identifier (o'.heap t).workspace o'.trace ∧
      ((∃ a ∈ o'.trace, a.publishes t = true) →
        (o'.heap t).workspace.claimEpoch = (o'.heap t).claimEpoch ∧
          0 < (o'.heap t).claimEpoch) := by
  let m : Mode := { paths := True, rations := False.elim, price := False.elim }
  have hgood := good_of_run (m := m) (fun hq => hq)
    ⟨hnamed, False.elim, False.elim, fun hl => hl.elim False.elim False.elim⟩
    (halong.mono fun o i h => ⟨h.mono fun o w a h =>
      ⟨h.1, False.elim, False.elim, False.elim, fun _ => h.2, False.elim⟩,
      fun hl => hl.elim False.elim False.elim⟩) hrun
  have hs := hgood.1.sound t
  exact ⟨hs.publishedCertified, fun hpub =>
    ⟨(hs.published hpub).2.1.1 trivial, (hs.published hpub).2.1.2⟩⟩

end

section

open Sample

/-- The sample run publishes on the verifier's word. -/
theorem published_certified_publishedRun :
    ∃ o', Runs.run step (booted 1 ["7"]) publishedRun = some o' ∧
      (∃ a ∈ o'.trace, a.publishes 1 = true) ∧
      PublishedCertified 1 (o'.heap 1).issue.identifier (o'.heap 1).workspace o'.trace ∧
      (o'.heap 1).workspace.claimEpoch = (o'.heap 1).claimEpoch ∧ 0 < (o'.heap 1).claimEpoch := by
  have hany : ((Runs.run step (booted 1 ["7"]) publishedRun).any fun o =>
      o.trace.any fun a => a.publishes 1) = true := by decide
  obtain ⟨o', hrun, hpublishes⟩ := (Option.any_eq_true _ _).1 hany
  have hpub : ∃ a ∈ o'.trace, a.publishes 1 = true := any_eq_true.1 hpublishes
  have hcert := published_certified (named_startup ["7"] (by decide))
    (Runs.along_of_check (by decide)) hrun 1
  exact ⟨o', hrun, hpub, hcert.1, hcert.2 hpub⟩

end

/-! ## What is kept apart -/

/-- How the loop comes to a state from a startup, with answers its surroundings may give. -/
structure Reached [Platform] (o : Orchestrator) where
  cur : Snapshot
  daemonInstance : String
  now : Time
  reads : StartupReads
  inputs : List Input
  named : reads.Named
  honest : Runs.Along step (Meets fun _ => Honest) (boot cur daemonInstance now reads) inputs
  run : Runs.run step (boot cur daemonInstance now reads) inputs = some o

section

open Sample

/-- The sample run to where its agent is running. -/
def running : Orchestrator :=
  (Runs.run step (booted 1 ["7"]) (publishedRun.take 6)).get (by decide)

def Reached.running : Reached Orchestrator.running :=
  ⟨snapshot 1, "daemon", 9000000000, startup ["7"], publishedRun.take 6,
    named_startup ["7"] (by decide), Runs.along_of_check (by decide), (Option.some_get _).symm⟩

/-- The sample run to where its work is verified. -/
def verifying : Orchestrator :=
  (Runs.run step (booted 1 ["7"]) (publishedRun.take 10)).get (by decide)

def Reached.verifying : Reached Orchestrator.verifying :=
  ⟨snapshot 1, "daemon", 9000000000, startup ["7"], publishedRun.take 10,
    named_startup ["7"] (by decide), Runs.along_of_check (by decide), (Option.some_get _).symm⟩

end

section

variable [Platform] {o : Orchestrator} (r : Reached o) (t : Token)

include r

lemma Reached.good : Good { rations := False.elim, price := False.elim } o.view :=
  good_of_honest r.named r.honest r.run

/-- The agents of an issue that may still be running are of one attempt of one record. -/
theorem agents_subsingleton (id : String) :
    {p : Token × Handle |
      (o.heap p.1).issue.identifier = id ∧ p.2 ∈ live p.1 o.trace}.Subsingleton := by
  rintro ⟨t, h⟩ ⟨rfl, hlive⟩ ⟨t', h'⟩ ⟨hid, hlive'⟩
  have hs := r.good.sound t
  have hhas : o.Has _ t := (hs.live (ne_nil_of_mem hlive)).2
  have hhas' : o.Has _ t' := ((r.good.sound t').live (ne_nil_of_mem hlive')).2
  -- the table has one record for the issue
  obtain rfl : t = t' := Option.some.inj (hhas.symm.trans (hid ▸ hhas'))
  rw [hs.liveGen h hlive, hs.liveGen h' hlive']

/-- At most one worker of a kind is out for the current attempt of a record, apart from those that
check its approval, take its base or wait for what is left of a run. -/
theorem workers_le_one (d : Duty) : d = .approval ∨ d = .claimBase ∨ d = .drain ∨
    o.workers.countP (fun e => e.2.is d t (o.heap t).generation) ≤ 1 := by
  have hs := r.good.sound t
  have hle {n : Nat} (h : 0 < n → n = 1) : n ≤ 1 := by omega
  simp only [or_iff_not_imp_left]
  intro happroval hbase hdrain
  cases d with
  | approval => exact absurd rfl happroval
  | claimBase => exact absurd rfl hbase
  | drain => exact absurd rfl hdrain
  | claim => exact hle fun h => (hs.claiming h).1
  | prepare => exact (Nat.le_add_right _ _).trans hs.single
  | start => exact (Nat.le_add_left _ _).trans hs.single
  | pump => exact hs.stream.1
  | probe => exact hle fun h => (hs.probing h).1
  | stop => exact hle fun h => (hs.stopping h).1
  | selfStop => exact hle fun h => (hs.selfStop h).1
  | summary => exact hle fun h => (hs.summary h).1
  | timer => exact hle fun h => (hs.timer h).1
  | verify => exact hs.verifyOnce.1

/-- While the work of the current attempt is being verified, it is that of the record's own
workspace, its account has been read, and nothing of the record's runs is left. -/
theorem verified_when_free :
    o.workers.countP (fun e => e.2.is .verify t (o.heap t).generation) = 0 ∨
      (o.heap t).state = .verifying ∧ (o.heap t).summarized = true ∧ live t o.trace = [] ∧
        o.workers.countP (fun e =>
          e.2.strayVerify (o.heap t).workspace t (o.heap t).generation) = 0 := by
  have hs := r.good.sound t
  rw [or_iff_not_imp_left]
  intro hout
  have hv := hs.verifying (.inl (Nat.pos_of_ne_zero hout))
  have hnone := hs.no_launch (by rw [hv.state]; decide)
  exact ⟨hv.state, hv.summarized, (hs.idle_of_handle hv.handle hnone).2.2, hs.stray.1⟩

/-- A record has the title, the body and the time of what was last pinned for it, which is no older
than the last check it passed; one for which nothing was pinned has no time. -/
theorem content_pinned : (lastPinned t o.trace).elim ((o.heap t).approvedAt = 0)
    fun pin => (o.heap t).issue.title = pin.content.title ∧
      (o.heap t).issue.body = pin.content.body ∧ (o.heap t).approvedAt = pin.at_ ∧
        ∃ check, lastApproved t o.trace = some check ∧ check.at_ ≤ pin.at_ := by
  have hs := r.good.sound t
  cases hpin : lastPinned t o.trace with
  | none => exact hs.unpinned hpin
  | some pin =>
    obtain ⟨htitle, hbody, hat⟩ := hs.pin pin hpin
    exact ⟨htitle, hbody, hat, hs.inForce pin hpin⟩

/-- A record counts every worker its exit has to wait for. -/
theorem awaited_le_pending : o.workers.countP (fun e => e.2.awaits t) ≤ (o.heap t).pending :=
  (r.good.sound t).awaited

/-- The records of the table are those of the issues it has them under, which have names. -/
theorem records_keyed : "" ∉ o.records.keys ∧
    o.records.entries.map (fun e => (o.heap e.2).issue.identifier) = o.records.keys := by
  refine ⟨fun hmem => ?_, map_congr_left r.good.keyed⟩
  obtain ⟨e, he, hempty⟩ := mem_map.1 hmem
  exact r.good.named e he hempty

end

/-! ## In the sample run -/

section

open Sample

theorem agents_subsingleton_running : live 1 running.trace ≠ [] ∧
    {p : Token × Handle | (running.heap p.1).issue.identifier = "7" ∧
      p.2 ∈ live p.1 running.trace}.Subsingleton :=
  ⟨by decide, agents_subsingleton .running "7"⟩

theorem workers_le_one_running :
    0 < running.workers.countP (fun e => e.2.is .pump 1 (running.heap 1).generation) ∧
      running.workers.countP (fun e => e.2.is .pump 1 (running.heap 1).generation) ≤ 1 := by
  have h := workers_le_one .running 1 .pump
  rw [or_iff_right (by decide), or_iff_right (by decide), or_iff_right (by decide)] at h
  exact ⟨by decide, h⟩

theorem verified_when_free_verifying :
    verifying.workers.countP (fun e => e.2.is .verify 1 (verifying.heap 1).generation) ≠ 0 ∧
      live 1 verifying.trace = [] := by
  have hout : verifying.workers.countP
      (fun e => e.2.is .verify 1 (verifying.heap 1).generation) ≠ 0 := by decide
  exact ⟨hout, ((verified_when_free .verifying 1).resolve_left hout).2.2.1⟩

theorem content_pinned_running : ∃ pin, lastPinned 1 running.trace = some pin ∧
    (running.heap 1).issue.body = pin.content.body := by
  have hsome : (lastPinned 1 running.trace).isSome := by decide
  obtain ⟨pin, hpin⟩ := Option.isSome_iff_exists.1 hsome
  have h := content_pinned .running 1
  rw [hpin] at h
  exact ⟨pin, hpin, h.2.1⟩

theorem awaited_le_pending_verifying : 0 < (verifying.heap 1).pending := by
  have hout : (0 : Int) < verifying.workers.countP (fun e => e.2.awaits 1) := by decide
  exact hout.trans_le (awaited_le_pending .verifying 1)

theorem records_keyed_running : running.records.keys = ["7"] ∧
    running.records.entries.map (fun e => (running.heap e.2).issue.identifier) = ["7"] := by
  have hkeys : running.records.keys = ["7"] := by decide
  exact ⟨hkeys, (records_keyed .running).2.trans hkeys⟩

end

end Orchestrator

end Ben
