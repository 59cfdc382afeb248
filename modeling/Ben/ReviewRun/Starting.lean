import Ben.ReviewRun.Script

/-!
# Which runs are started

A session starts a run only when the record with its mark is durable, and it never starts a run
twice while its record stands.  Between two runs of one workspace cycle the gate stands: a record
is reserved only when the store holds no other of its cycle, so a run that is started is the only
recorded one.  A record with a verdict is never replaced; while it stands, reviewing its subject
asks for nothing but the invocation and the record itself, and returns the verdict if it gets them.
-/

namespace Ben.ReviewRun

open Ben.Review

section

variable [Sha256] {exec : Executor} {w : World}

/-- What is demanded of the requests of a session. -/
def Lawful (w : World) : Op → Prop
  | .start ref _ =>
    w.starts ref.run = 0 ∧ ∃ r, w.store ref.run = some r ∧ r.ref = ref ∧ r.dispatched = true ∧
      ∀ run' r', w.store run' = some r' → run' ≠ ref.run → r'.cycle = r.cycle →
        r'.dispatched = true → r'.quiet = true
  | .save r => ∀ r0, w.store r.run = some r0 → r0.terminal = false
  | _ => True

/-- No record with a verdict is replaced. -/
lemma Saves.not_terminal {r r0 : Record} (h : Saves w r) (hstored : w.store r.run = some r0) :
    r0.terminal = false := by
  have hopen : ∀ {r1 : Record}, w.store r.run = some r1 → r1.verdict = [] →
      r0.terminal = false := by
    intro r1 h1 hverdict
    rw [hstored] at h1
    cases h1
    simp [Record.terminal, hverdict]
  cases h with
  | reserve sub run subject digest place habsent =>
    rw [show (reserved sub run subject digest place).run = run from rfl, habsent] at hstored
    cases hstored
  | mark h1 h2 => exact hopen h1 h2
  | quiet h1 h2 => exact hopen h1 h2
  | refuse h1 h2 => exact hopen h1 h2
  | resolve h1 h2 => exact hopen h1 h2
  | admitChunks h1 h2 _ _ _ hadmitted =>
    have hrun := (admit_spec hadmitted).1.run
    exact hopen (by rw [← h1]; exact congrArg w.store hrun) h2
  | conclude h1 h2 => exact hopen h1 h2

lemma lawful_of_allowed {op} (h : Inv w) (ha : Allowed w op) : Lawful w op := by
  cases ha with
  | save hs => exact fun r0 hr0 => hs.not_terminal hr0
  | start req hstored href hdispatched hfirst =>
    refine ⟨hfirst, _, hstored, href, hdispatched, fun run' r' hr' hne hcycle _ => ?_⟩
    exact absurd (h.alone run' _ r' _ hr' hstored hcycle) hne
  | _ => exact trivial

/-- While a verdict stands, reviewing its subject changes nothing and returns it. -/
lemma gives_review_of_terminal (s : Session) {sub : Subject} {r : Record} (h : Inv w)
    (hstored : w.store sub.runID = some r) (hterminal : r.terminal) :
    (s.review sub).Gives (Does exec) (fun _ op => op.asks) (fun w' => w' = w) w
      fun reply _ => reply = .report r.verdict r.findings := by
  rw [Session.review]
  split_ifs with hmissing
  · exact Program.gives_fail
  have hprepared : (s.prepare sub).Gives (Does exec) (fun _ op => op.asks) (fun w' => w' = w) w
      fun _ w' => w' = w := gives_prepare s sub rfl fun _ hop => hop
  refine hprepared.bind rfl fun p w' _ hw => ?_
  subst hw
  have hopened : (openRecord sub sub.runID sub.subjectDigest p.2.2 p.2.1).Gives (Does exec)
      (fun _ op => op.asks) (fun w1 => w1 = w') w' fun r1 _ => r1 = r := by
    refine Program.gives_call trivial fun ans w1 hdoes => ?_
    cases hdoes.2 with
    | unloaded => exact ⟨rfl, Program.gives_fail⟩
    | absent habsent =>
      rw [hstored] at habsent
      cases habsent
    | loaded hloaded =>
      rw [hstored] at hloaded
      cases hloaded
      refine ⟨rfl, ?_⟩
      dsimp only
      -- a record with a verdict was not refused, so a mismatch does not supersede it
      have hrefused : r.refused = false := by
        rw [Record.refused, (Record.sealed_of_terminal (h.valid _ r hstored) hterminal).2.2]
        rfl
      cases hreopen : reopen r sub.subjectDigest p.2.2 p.2.1.sandbox p.2.1.profile with
      | error e =>
        dsimp only
        rw [hrefused]
        exact Program.gives_fail
      | ok r1 =>
        refine Program.gives_pure ?_
        rw [reopen] at hreopen
        split_ifs at hreopen
        exact (Except.ok.inj hreopen).symm
  refine hopened.bind rfl fun r1 w1 hw hr1 => ?_
  subst hr1
  rw [if_pos hterminal, restate_of_terminal h hstored hterminal]
  exact Program.gives_pure rfl

/-- The reads of a review succeed and find what a record was minted for. -/
def Finds (s : Session) (r : Record) : Executor
  | _, .compose _, ans => ans.isSome
  | _, .checkRequest _, ans => ans = true
  | _, .placement _, ans => s.remote → ∃ place, ans = some place ∧ place.complete ∧
      place.sandbox = r.sandbox ∧ place.profile = r.profile
  | _, .digest _ _, ans => ans = some r.digest
  | _, .load _, ans => ans ≠ .failed
  | _, _, _ => True

/-- Preparing succeeds where the reads do. -/
lemma meets_prepare_of_finds (s : Session) (sub : Subject) (r : Record) :
    (s.prepare sub).Meets (Does (Finds s r)) (fun _ op => op.asks) (fun w' => w' = w) w
      fun out _ => ∃ req place, out = .ok (req, place, r.digest) ∧
        (place.sandbox ≠ [] → r.sandbox = place.sandbox) ∧
        (place.profile ≠ [] → r.profile = place.profile) := by
  refine Program.meets_call trivial fun ans w' hdoes => ?_
  cases hdoes.2
  refine ⟨rfl, ?_⟩
  obtain ⟨req, rfl⟩ := Option.isSome_iff_exists.1 hdoes.1
  refine Program.meets_call trivial fun ans w' hdoes => ?_
  cases hdoes.2
  refine ⟨rfl, ?_⟩
  obtain rfl : ans = true := hdoes.1
  have hsandbox : (s.resolveSandbox sub).Meets (Does (Finds s r)) (fun _ op => op.asks)
      (fun w' => w' = w) w fun out w' => w' = w ∧ ∃ place, out = .ok place ∧
        (place.sandbox ≠ [] → r.sandbox = place.sandbox) ∧
        (place.profile ≠ [] → r.profile = place.profile) := by
    rw [Session.resolveSandbox]
    split_ifs with hlocal
    · exact ⟨rfl, {}, rfl, fun hne => absurd rfl hne, fun hne => absurd rfl hne⟩
    · refine Program.meets_call trivial fun ans w' hdoes => ?_
      cases hdoes.2
      refine ⟨rfl, ?_⟩
      obtain ⟨place, rfl, hcomplete, hsand, hprofile⟩ := hdoes.1 (by simpa using hlocal)
      dsimp only
      rw [if_pos hcomplete]
      exact ⟨rfl, place, rfl, fun _ => hsand.symm, fun _ => hprofile.symm⟩
  refine Program.meets_bind (hsandbox.mono ?_)
  rintro out w' ⟨rfl, place, rfl, hfits⟩
  refine ⟨?_, fun e he => by cases he⟩
  rintro _ ⟨⟩
  refine Program.meets_call trivial fun ans w1 hdoes => ?_
  cases hdoes.2
  obtain rfl : ans = some r.digest := hdoes.1
  exact ⟨rfl, req, place, rfl, hfits⟩

/-- While a verdict stands, reviewing its subject returns it if the reads succeed. -/
lemma meets_review_of_finds (s : Session) {sub : Subject} {r : Record} (h : Inv w)
    (hstored : w.store sub.runID = some r) (hterminal : r.terminal) (hsub : sub.missing = [])
    (hsubject : r.subject = sub.subjectDigest) :
    (s.review sub).Meets (Does (Finds s r)) (fun _ op => op.asks) (fun w' => w' = w) w
      fun out _ => out = .ok (.report r.verdict r.findings) := by
  rw [Session.review, if_neg (not_not.2 hsub)]
  refine Program.meets_bind ((meets_prepare_of_finds s sub r).mono_inv rfl ?_)
  rintro out w' rfl ⟨req, place, rfl, hsandbox, hprofile⟩
  refine ⟨?_, fun e he => by cases he⟩
  rintro _ ⟨⟩
  have hopened : (openRecord sub sub.runID sub.subjectDigest r.digest place).Meets
      (Does (Finds s r)) (fun _ op => op.asks) (fun w1 => w1 = w') w' fun out _ => out = .ok r := by
    refine Program.meets_call trivial fun ans w1 hdoes => ?_
    cases hdoes.2 with
    | unloaded => exact absurd rfl hdoes.1
    | absent habsent =>
      rw [hstored] at habsent
      cases habsent
    | loaded hloaded =>
      rw [hstored] at hloaded
      cases hloaded
      have hreopen : reopen r sub.subjectDigest r.digest place.sandbox place.profile = .ok r := by
        simp only [reopen, ne_eq, not_true, if_false, hsubject, Bool.and_eq_true, decide_eq_true_eq]
        rw [if_neg fun hne => hne.2 (hsandbox hne.1), if_neg fun hne => hne.2 (hprofile hne.1)]
      refine ⟨rfl, ?_⟩
      dsimp only
      rw [hreopen]
      exact rfl
  refine Program.meets_bind (hopened.mono ?_)
  rintro out w1 rfl
  refine ⟨?_, fun e he => by cases he⟩
  rintro _ ⟨⟩
  rw [if_pos hterminal, restate_of_terminal h hstored hterminal]
  exact rfl

/-- What a call does about starting runs: it starts one only with its mark durable, once for each
reserved record, and with no other run of its cycle dispatched and not quiet; it replaces no
verdict; and while one stands, reviewing its subject starts nothing, returns no other, and returns
it if it comes to its end and its reads succeed. -/
def StartsInOrder (s : Session) (c : Program.Called World Op Call Err Reply) : Prop :=
  (∀ a ∈ c.asked, Lawful a.1 a.2) ∧
    ∀ sub r, c.call = .review sub → c.before.store sub.runID = some r → r.terminal →
      (∀ a ∈ c.asked, a.2.asks) ∧ c.after = c.before ∧
        (∀ reply, c.outcome = some (.ok reply) → reply = .report r.verdict r.findings) ∧
        (sub.missing = [] → r.subject = sub.subjectDigest → c.outcome.isSome →
          Program.Exec (Does (Finds s r)) (s.body c.call) c.before c.asked c.after c.outcome →
          c.outcome = some (.ok (.report r.verdict r.findings)))

/-- In every history of calls from an empty store runs are started in order, whatever the store
and the executor answer and wherever the calls are cut off. -/
theorem startsInOrder (s : Session) {calls : List (Program.Called World Op Call Err Reply)}
    (h : Program.History (Does exec) s.body {} calls w) : ∀ c ∈ calls, StartsInOrder s c := by
  have hbody : ∀ c w, Inv w ∧ True → (s.body c).Meets (Does exec)
      (fun w op => (Inv w ∧ True) ∧ Allowed w op) (fun w => Inv w ∧ True) w fun _ _ => True :=
    fun c w hw => (meets_body s c hw.1).strengthen hw.1 trivial fun _ _ _ _ _ _ _ _ => trivial
  have hsound := (h.sound hbody ⟨inv_empty, trivial⟩).2
  intro c hc
  obtain ⟨⟨hbefore, -⟩, hasked⟩ := hsound c hc
  refine ⟨fun a ha => lawful_of_allowed (hasked a ha).1.1 (hasked a ha).2, ?_⟩
  intro sub r hcall hstored hterminal
  have hexec := h.exec_of_mem hc
  rw [hcall] at hexec
  obtain ⟨hasks, hafter, hout⟩ :=
    (gives_review_of_terminal s hbefore hstored hterminal).sound rfl hexec
  refine ⟨hasks, hafter, fun reply hreply => hout _ hreply reply rfl, ?_⟩
  intro hsub hsubject hsome hreads
  obtain ⟨out, hout⟩ := Option.isSome_iff_exists.1 hsome
  rw [hcall] at hreads
  rw [hout, ((meets_review_of_finds s hbefore hstored hterminal hsub hsubject).sound rfl
    hreads).2.2 out hout]

end

open Ben.ReviewRun.Sample

/-- A script whose runs are over with a clean verdict. -/
def Sample.clean : Script := script (stream [envelope .clean]) 1

/-- The script answers every read as the record it led to was minted for. -/
lemma Sample.finds_clean {r : Record} (hdigest : r.digest = txt "sha256:digest") (rs w op) :
    Finds session r w op (clean.answer rs w op).1 := by
  cases op with
  | placement sub => exact fun hremote => by cases hremote
  | digest ref req => exact congrArg some hdigest.symm
  | load run =>
    simp only [Script.answer, Finds]
    split <;> simp
  | compose _ | checkRequest _ => rfl
  | _ => trivial

/-- The second review reads the record of the first and returns its verdict. -/
theorem startsInOrder_twice :
    (∀ c ∈ calls clean [.review subject, .review subject], StartsInOrder session c) ∧
      ∃ c ∈ calls clean [.review subject, .review subject], ∃ r,
        c.before.store subject.runID = some r ∧ r.terminal ∧
        r.verdict = Verdict.clean.text ∧ c.outcome = some (.ok (.report r.verdict r.findings)) := by
  have hlast : (calls clean [.review subject, .review subject]).getLast?.any (fun c =>
      c.outcome.isSome && (c.before.store subject.runID).any fun r => r.terminal &&
        decide (r.subject = subject.subjectDigest ∧ r.digest = txt "sha256:digest" ∧
          r.verdict = Verdict.clean.text)) = true := by decide +kernel
  obtain ⟨c, hc, hfound⟩ := (Option.any_eq_true _ _).1 hlast
  obtain ⟨hsome, hfound⟩ := Bool.and_eq_true_iff.1 hfound
  obtain ⟨r, hr, hfound⟩ := (Option.any_eq_true _ _).1 hfound
  obtain ⟨hterminal, hrecord⟩ := Bool.and_eq_true_iff.1 hfound
  obtain ⟨hsubject, hdigest, hverdict⟩ := of_decide_eq_true hrecord
  have hmem := List.mem_of_getLast? hc
  have hcall : c.call = .review subject := by
    have hcalls : c.call ∈ [Call.review subject, .review subject] := List.mem_map_of_mem hmem
    simpa using hcalls
  have hhistory : Program.History (Does (Finds session r)) session.body {}
      (calls clean [.review subject, .review subject]) _ :=
    history_calls _ (finds_clean hdigest) _
  have hordered := startsInOrder session hhistory
  refine ⟨hordered, c, hmem, r, hr, hterminal, hverdict, ?_⟩
  exact ((hordered c hmem).2 subject r hcall hr hterminal).2.2.2 (by decide) hsubject hsome
    (hhistory.exec_of_mem hmem)

/-- A request that starts a run. -/
def Op.isStart : Op → Bool
  | .start _ _ => true
  | _ => false

/-- A verdict does not bind later reviews for good: once its record is retired, a review of the
same subject starts a run again.  And while it stands a review that cannot compose its invocation
ends without it. -/
theorem review_starts_after_retire :
    (∃ calls w, Program.History (Does fun _ _ _ => True) session.body {} calls w ∧
      calls.map (fun c => c.call) =
        [.review subject, .retire subject, .review subject] ∧
      (calls.head?.any fun c => (c.after.store subject.runID).any Record.terminal) ∧
      (calls.getLast?.any fun c => c.asked.any fun a => a.2.isStart)) ∧
    ∃ calls w, Program.History (Does fun _ _ _ => True) session.body {} calls w ∧
      calls.map (fun c => c.call) = [.review subject, .review subject] ∧
      (calls.head?.any fun c => (c.after.store subject.runID).any Record.terminal) ∧
      calls.getLast?.map (fun c => c.outcome) = some (some (.error .compose)) := by
  constructor
  · refine ⟨_, _, history_calls clean (fun _ _ _ => trivial)
      [.review subject, .retire subject, .review subject], rfl, ?_, ?_⟩
    · decide +kernel
    · decide +kernel
  · obtain ⟨w, hfirst⟩ : ∃ w, Program.History (Does fun _ _ _ => True) session.body {}
        (calls clean [.review subject]) w := ⟨_, history_calls clean (fun _ _ _ => trivial) _⟩
    have hdoes : Does (fun _ _ _ => True) w (.compose subject) none w :=
      ⟨trivial, .compose w subject none⟩
    have hfails : Program.Exec (Does fun _ _ _ => True) (session.body (.review subject)) w
        [(w, .compose subject)] w (some (.error .compose)) := by
      rw [Session.body, Session.review, if_neg (by decide)]
      exact .ask hdoes (.fail _ _)
    have hstated : (calls clean [.review subject]).head?.any (fun c =>
        (c.after.store subject.runID).any Record.terminal) = true := by decide +kernel
    exact ⟨_, w, hfirst.snoc (c := ⟨_, w, _, w, _⟩) rfl hfails, rfl, hstated, rfl⟩

end Ben.ReviewRun
