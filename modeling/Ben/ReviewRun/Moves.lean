import Ben.ReviewRun.Session

/-!
# What a session asks, and when

The world of a session is its durable store.  Beside it stands what the arguments need to remember
of the past: how often a run was started since its record was reserved, the last state that the
executor reported, and the last page of events it returned.

`Saves` and `Allowed` say once what a session can do: which record it replaces by which, and which
record stands in the store when it starts a run.  That every request of every call is allowed is
proved here, call by call, whatever the store and the executor answer.
-/

namespace Ben.ReviewRun

open Ben.Review

/-- A page of events as it was asked for, and whether the run was over by then. -/
structure Page where
  ref : Ref
  after : Int
  chunks : List Chunk
  final : Bool

structure World where
  /-- The durable records by run. -/
  store : Text → Option Record := fun _ => none
  /-- The starts of a run since its record was reserved. -/
  starts : Text → Nat := fun _ => 0
  /-- The last state that was reported. -/
  seen : State := {}
  /-- The last page that was returned. -/
  page : Option Page := none

namespace World

def put (w : World) (r : Record) : World :=
  { w with store := Function.update w.store r.run (some r) }

/-- Without its record a run is as good as new. -/
def drop (w : World) (run : Text) : World :=
  { w with store := Function.update w.store run none, starts := Function.update w.starts run 0 }

def look (w : World) (st : State) : World := { w with seen := st }

def start (w : World) (run : Text) : World :=
  { w with starts := Function.update w.starts run (w.starts run + 1) }

def read (w : World) (ref : Ref) (after : Int) (chunks : List Chunk) : World :=
  { w with page := some { ref, after, chunks, final := w.seen.over } }

section

variable (w : World) (r : Record) (run : Text)

@[simp] lemma put_store_self : (w.put r).store r.run = some r := Function.update_self ..

@[simp] lemma put_store_of_ne {run} (h : run ≠ r.run) :
    (w.put r).store run = w.store run := Function.update_of_ne h ..

@[simp] lemma put_starts : (w.put r).starts = w.starts := rfl

@[simp] lemma put_seen : (w.put r).seen = w.seen := rfl

@[simp] lemma put_page : (w.put r).page = w.page := rfl

@[simp] lemma drop_store_self : (w.drop run).store run = none := Function.update_self ..

@[simp] lemma drop_store_of_ne {run'} (h : run' ≠ run) :
    (w.drop run).store run' = w.store run' := Function.update_of_ne h ..

@[simp] lemma drop_starts_self : (w.drop run).starts run = 0 := Function.update_self ..

@[simp] lemma drop_starts_of_ne {run'} (h : run' ≠ run) :
    (w.drop run).starts run' = w.starts run' := Function.update_of_ne h ..

@[simp] lemma start_starts_self : (w.start run).starts run = w.starts run + 1 :=
  Function.update_self ..

@[simp] lemma start_starts_of_ne {run'} (h : run' ≠ run) :
    (w.start run).starts run' = w.starts run' := Function.update_of_ne h ..

end

end World

/-- What an answer does to the world.  A write that fails may have landed all the same, and a
record is stored only if it is a valid one. -/
inductive Effect : World → (op : Op) → Ans op → World → Prop
  | compose (w sub ans) : Effect w (.compose sub) ans w
  | checkRequest (w req ans) : Effect w (.checkRequest req) ans w
  | placement (w sub ans) : Effect w (.placement sub) ans w
  | digest (w ref req ans) : Effect w (.digest ref req) ans w
  | loaded {w run r} (h : w.store run = some r) : Effect w (.load run) (.record r) w
  | absent {w run} (h : w.store run = none) : Effect w (.load run) .absent w
  | unloaded (w run) : Effect w (.load run) .failed w
  | saved {w r} (h : r.valid) : Effect w (.save r) true (w.put r)
  | unsaved (w r) : Effect w (.save r) false w
  | lost {w r} (h : r.valid) : Effect w (.save r) false (w.put r)
  | deleted (w run) : Effect w (.delete run) true (w.drop run)
  | undeleted (w run) : Effect w (.delete run) false w
  | gone (w run) : Effect w (.delete run) false (w.drop run)
  | listed {w rs} (hnodup : (rs.map Record.run).Nodup)
    (hsound : ∀ r ∈ rs, w.store r.run = some r)
    (hcomplete : ∀ run r, w.store run = some r → r ∈ rs) : Effect w .records (some rs) w
  | unlisted (w) : Effect w .records none w
  | started (w ref req st) : Effect w (.start ref req) (.ok st) ((w.start ref.run).look st)
  | unstarted (w ref req e) : Effect w (.start ref req) (.error e) (w.start ref.run)
  | replayed (w ref req st) : Effect w (.replayStart ref req) (.ok st) (w.look st)
  | unreplayed (w ref req e) : Effect w (.replayStart ref req) (.error e) w
  | attached (w ref id st) : Effect w (.attach ref id) (some st) (w.look st)
  | unattached (w ref id) : Effect w (.attach ref id) none w
  | observed (w ref st) : Effect w (.status ref) (some st) (w.look st)
  | unobserved (w ref) : Effect w (.status ref) none w
  | read (w ref after chunks) :
    Effect w (.events ref after) (some chunks) (w.read ref after chunks)
  | unread (w ref after) : Effect w (.events ref after) none w
  | slept (w ans) : Effect w .sleep ans w

/-- Which answers the surroundings of a session may give. -/
abbrev Executor := World → (op : Op) → Ans op → Prop

/-- The environment of a session over an executor. -/
def Does (exec : Executor) (w : World) (op : Op) (ans : Ans op) (w' : World) : Prop :=
  exec w op ans ∧ Effect w op ans w'

variable [Sha256]

/-- Which record a session saves over which.  No record that holds a verdict is ever replaced. -/
inductive Saves (w : World) : Record → Prop
  | reserve (sub : Subject) (run subject digest : Text) (place : Placement)
    (habsent : w.store run = none)
    (halone : ∀ run' r', w.store run' = some r' → r'.cycle ≠ sub.cycleAddress) :
    Saves w (reserved sub run subject digest place)
  | mark {r : Record} (hstored : w.store r.run = some r) (hopen : r.verdict = []) :
    Saves w { r with dispatched := true }
  | quiet {r : Record} (hstored : w.store r.run = some r) (hopen : r.verdict = [])
    (complete still : Bool) : Saves w { r with sealed := complete, quiet := still }
  | refuse {r : Record} (hstored : w.store r.run = some r) (hopen : r.verdict = [])
    (refusal : Refusal) : Saves w { r with refusal := some refusal, quiet := true }
  | resolve {r : Record} (hstored : w.store r.run = some r) (hopen : r.verdict = [])
    (id : Text) (still : Bool) :
    Saves w { r with backendRunID := id, refusal := none, quiet := still }
  | admitChunks {r r' : Record} {page : Page} (hstored : w.store r.run = some r)
    (hopen : r.verdict = []) (hpage : w.page = some page) (href : page.ref = r.ref)
    (hafter : page.after = r.cursor) (hadmitted : ReviewRun.admitChunks r page.chunks = .ok r')
    (st : State) : Saves w (advance r' st)
  | conclude {r r0 r1 : Record} {page : Page} {report : Report}
    (hstored : w.store r.run = some r) (hopen : r.verdict = []) (hpage : w.page = some page)
    (href : page.ref = r.ref) (hafter : page.after = r0.cursor)
    (hadmitted : ReviewRun.admitChunks r0 page.chunks = .ok r1) (hcursor : r.cursor = r1.cursor)
    (hfinal : page.final) (hverdict : extractVerdict r.output = .ok report) :
    Saves w { r with
      sealed := true, quiet := true, verdict := report.verdict.text, findings := report.findings }

/-- The requests that change something, and where they are made. -/
inductive Allowed (w : World) : Op → Prop
  | save {r : Record} (h : Saves w r) : Allowed w (.save r)
  | start {r : Record} {ref : Ref} (req : Request) (hstored : w.store ref.run = some r)
    (href : r.ref = ref) (hdispatched : r.dispatched) (hfirst : w.starts ref.run = 0) :
    Allowed w (.start ref req)
  | replayStart {r : Record} {ref : Ref} (req : Request) (hstored : w.store ref.run = some r)
    (href : r.ref = ref) (hdispatched : r.dispatched) : Allowed w (.replayStart ref req)
  | compose (sub) : Allowed w (.compose sub)
  | checkRequest (req) : Allowed w (.checkRequest req)
  | placement (sub) : Allowed w (.placement sub)
  | digest (ref req) : Allowed w (.digest ref req)
  | load (run) : Allowed w (.load run)
  | delete (run) : Allowed w (.delete run)
  | records : Allowed w .records
  | attach (ref id) : Allowed w (.attach ref id)
  | status (ref) : Allowed w (.status ref)
  | events {r : Record} (hstored : w.store r.run = some r) : Allowed w (.events r.ref r.cursor)
  | sleep : Allowed w .sleep

/-- What holds of the store in every world a session reaches. -/
structure Inv (w : World) : Prop where
  keyed : ∀ run r, w.store run = some r → r.run = run
  valid : ∀ run r, w.store run = some r → r.valid
  alone : ∀ run run' r r', w.store run = some r → w.store run' = some r' →
    r.cycle = r'.cycle → run = run'
  once : ∀ run, w.starts run ≤ 1
  unstarted : ∀ run, (∀ r, w.store run = some r → r.dispatched = false) → w.starts run = 0

omit [Sha256] in
lemma inv_empty : Inv {} where
  keyed := by simp
  valid := by simp
  alone := by simp
  once := by simp
  unstarted := by simp

variable {w : World} {r r' : Record}

section

omit [Sha256]

lemma put_store_eq_some {run} (h : (w.put r).store run = some r') :
    (run = r.run ∧ r' = r) ∨ (run ≠ r.run ∧ w.store run = some r') := by
  obtain rfl | hne := eq_or_ne run r.run
  · rw [World.put_store_self] at h
    exact .inl ⟨rfl, (Option.some.inj h).symm⟩
  · rw [World.put_store_of_ne _ _ hne] at h
    exact .inr ⟨hne, h⟩

lemma drop_store_eq_some {r run run'} (h : (w.drop run).store run' = some r) :
    run' ≠ run ∧ w.store run' = some r := by
  obtain rfl | hne := eq_or_ne run' run
  · rw [World.drop_store_self] at h
    cases h
  · rw [World.drop_store_of_ne _ _ hne] at h
    exact ⟨hne, h⟩

variable (h : Inv w)

include h

/-- A record stored beside others of other cycles keeps the invariant, if it has its mark where
its run was started. -/
lemma Inv.put (hvalid : r.valid)
    (halone : ∀ run' r', w.store run' = some r' → r'.cycle = r.cycle → run' = r.run)
    (hmark : r.dispatched = false → w.starts r.run = 0) : Inv (w.put r) where
  keyed run r' h' := by
    obtain ⟨rfl, rfl⟩ | ⟨-, hstored⟩ := put_store_eq_some h'
    · rfl
    · exact h.keyed run r' hstored
  valid run r' h' := by
    obtain ⟨-, rfl⟩ | ⟨-, hstored⟩ := put_store_eq_some h'
    · exact hvalid
    · exact h.valid run r' hstored
  alone run run' r1 r2 h1 h2 hcycle := by
    obtain ⟨rfl, rfl⟩ | ⟨-, hstored1⟩ := put_store_eq_some h1
    · obtain ⟨rfl, rfl⟩ | ⟨-, hstored2⟩ := put_store_eq_some h2
      · rfl
      · exact (halone run' r2 hstored2 hcycle.symm).symm
    · obtain ⟨rfl, rfl⟩ | ⟨-, hstored2⟩ := put_store_eq_some h2
      · exact halone run r1 hstored1 hcycle
      · exact h.alone run run' r1 r2 hstored1 hstored2 hcycle
  once run := h.once run
  unstarted run hrun := by
    obtain rfl | hne := eq_or_ne run r.run
    · exact hmark (hrun r (World.put_store_self w r))
    · exact h.unstarted run fun r' hr' => hrun r' (by rwa [World.put_store_of_ne _ _ hne])

/-- A record replaced by one of the same run and cycle, with no mark taken back. -/
lemma Inv.put_of_stored (hstored : w.store r.run = some r) (hrun : r'.run = r.run)
    (hcycle : r'.cycle = r.cycle) (hmark : r.dispatched → r'.dispatched) (hvalid : r'.valid) :
    Inv (w.put r') := by
  refine h.put hvalid (fun run1 r1 h1 hc => ?_) fun hunmarked => ?_
  · rw [hrun]
    exact h.alone run1 r.run r1 r h1 hstored (hc.trans hcycle)
  · rw [hrun]
    refine h.unstarted r.run fun r1 h1 => ?_
    rw [hstored] at h1
    cases h1
    cases hr : r.dispatched with
    | false => rfl
    | true =>
      rw [hmark hr] at hunmarked
      cases hunmarked

lemma Inv.drop (run) : Inv (w.drop run) where
  keyed run' r hr := h.keyed run' r (drop_store_eq_some hr).2
  valid run' r hr := h.valid run' r (drop_store_eq_some hr).2
  alone run1 run2 r1 r2 h1 h2 hcycle :=
    h.alone run1 run2 r1 r2 (drop_store_eq_some h1).2 (drop_store_eq_some h2).2 hcycle
  once run' := by
    obtain rfl | hne := eq_or_ne run' run
    · simp
    · rw [World.drop_starts_of_ne _ _ hne]
      exact h.once run'
  unstarted run' hrun := by
    obtain rfl | hne := eq_or_ne run' run
    · simp
    · rw [World.drop_starts_of_ne _ _ hne]
      exact h.unstarted run' fun r hr => hrun r (by rwa [World.drop_store_of_ne _ _ hne])

lemma Inv.look (st) : Inv (w.look st) := ⟨h.keyed, h.valid, h.alone, h.once, h.unstarted⟩

lemma Inv.read (ref) (after : Int) (chunks) : Inv (w.read ref after chunks) :=
  ⟨h.keyed, h.valid, h.alone, h.once, h.unstarted⟩

/-- The first start of a run whose record has its mark. -/
lemma Inv.start {run} (hstored : w.store run = some r)
    (hdispatched : r.dispatched) (hfirst : w.starts run = 0) : Inv (w.start run) where
  keyed := h.keyed
  valid := h.valid
  alone := h.alone
  once run' := by
    obtain rfl | hne := eq_or_ne run' run
    · simp [hfirst]
    · rw [World.start_starts_of_ne _ _ hne]
      exact h.once run'
  unstarted run' hrun := by
    obtain rfl | hne := eq_or_ne run' run
    · have hunmarked := hrun r hstored
      rw [hdispatched] at hunmarked
      cases hunmarked
    · rw [World.start_starts_of_ne _ _ hne]
      exact h.unstarted run' hrun

end

/-! ## What admission leaves alone -/

/-- Two records of one run, as far as they name it. -/
structure SameRun (r r' : Record) : Prop where
  run : r'.run = r.run
  cycle : r'.cycle = r.cycle
  ref : r'.ref = r.ref
  dispatched : r'.dispatched = r.dispatched
  verdict : r'.verdict = r.verdict

lemma admitChunk_cases {c : Chunk} (h : admitChunk r c = .ok r') :
    r' = r ∨ c.seq = r.cursor + 1 ∧ r' = r.grow c := by
  rw [admitChunk] at h
  split_ifs at h with htruncated hseq hnext hlong
  · split at h
    · split_ifs at h
      exact .inl (Except.ok.inj h).symm
    · exact .inl (Except.ok.inj h).symm
  · exact .inr ⟨not_not.1 hnext, (Except.ok.inj h).symm⟩

/-- Admission moves the cursor forward or does nothing, and touches only what it reads. -/
lemma admit_spec {chunks} (h : admitChunks r chunks = .ok r') :
    SameRun r r' ∧ r'.quiet = r.quiet ∧ r'.sealed = r.sealed ∧ r.cursor ≤ r'.cursor ∧
      (r'.cursor = r.cursor → r' = r) := by
  induction chunks generalizing r with
  | nil =>
    cases h
    exact ⟨⟨rfl, rfl, rfl, rfl, rfl⟩, rfl, rfl, le_rfl, fun _ => rfl⟩
  | cons c chunks ih =>
    rw [admitChunks, List.foldlM_cons] at h
    cases hc : admitChunk r c with
    | error e =>
      rw [hc] at h
      cases h
    | ok r1 =>
      rw [hc] at h
      obtain ⟨hsame, hquiet, hsealed, hle, heq⟩ := ih (r := r1) h
      obtain rfl | ⟨hseq, rfl⟩ := admitChunk_cases hc
      · exact ⟨hsame, hquiet, hsealed, hle, heq⟩
      · refine ⟨⟨hsame.run, hsame.cycle, hsame.ref, hsame.dispatched, hsame.verdict⟩, hquiet,
          hsealed, ?_, fun hcursor => ?_⟩
        · dsimp only [Record.grow] at hle
          omega
        · dsimp only [Record.grow] at hle
          omega

/-! ## Requests -/

/-- What a session saves keeps the invariant. -/
lemma Saves.inv (hs : Saves w r) (h : Inv w) (hvalid : r.valid) : Inv (w.put r) := by
  cases hs with
  | reserve sub run subject digest place habsent halone =>
    refine h.put hvalid (fun run' r' hr' hcycle => absurd hcycle (halone run' r' hr')) fun _ => ?_
    exact h.unstarted run fun r hr => by rw [habsent] at hr; cases hr
  | mark hstored => exact h.put_of_stored hstored rfl rfl (fun _ => rfl) hvalid
  | quiet hstored => exact h.put_of_stored hstored rfl rfl id hvalid
  | refuse hstored => exact h.put_of_stored hstored rfl rfl id hvalid
  | resolve hstored => exact h.put_of_stored hstored rfl rfl id hvalid
  | admitChunks hstored _ _ _ _ hadmitted st =>
    have hsame := (admit_spec hadmitted).1
    exact h.put_of_stored hstored hsame.run hsame.cycle (fun hd => hsame.dispatched.trans hd) hvalid
  | conclude hstored => exact h.put_of_stored hstored rfl rfl id hvalid

/-- A part of a call that asks only what is allowed, and ends well only as said. -/
abbrev Leads {α} (exec : Executor) (w : World) (p : Prog α) (post : α → World → Prop) : Prop :=
  p.Gives (Does exec) Allowed Inv w post

variable {exec : Executor}

/-- A save that succeeds has stored the record; one that fails may have. -/
lemma meets_save {r} (h : Inv w) (hs : Saves w r) :
    (save r).Meets (Does exec) Allowed Inv w fun out w' =>
      (w' = w ∨ w' = w.put r) ∧ ∀ a, out = .ok a → w' = w.put r := by
  refine Program.meets_call (.save hs) fun ans w' hdoes => ?_
  cases hdoes.2 with
  | saved hvalid => exact ⟨hs.inv h hvalid, .inr rfl, fun _ _ => rfl⟩
  | unsaved => exact ⟨h, .inl rfl, fun _ hout => by cases hout⟩
  | lost hvalid => exact ⟨hs.inv h hvalid, .inr rfl, fun _ hout => by cases hout⟩

lemma gives_save {r} (h : Inv w) (hs : Saves w r) :
    Leads exec w (save r) fun _ w' => w' = w.put r :=
  (meets_save h hs).mono fun _ _ hout a ha => hout.2 a ha

lemma gives_delete (h : Inv w) (run) :
    Leads exec w (delete run) fun _ w' => w' = w.drop run := by
  refine Program.gives_call (.delete run) fun ans w' hdoes => ?_
  cases hdoes.2 with
  | deleted => exact ⟨h.drop run, Program.gives_pure rfl⟩
  | undeleted => exact ⟨h, Program.gives_fail⟩
  | gone => exact ⟨h.drop run, Program.gives_fail⟩

/-! ## The calls, part by part -/

/-- The record in hand is the stored one, and holds no verdict yet. -/
def Holds (w : World) (r : Record) : Prop := w.store r.run = some r ∧ r.verdict = []

/-- A record that is saved and handed on. -/
lemma meets_saved (h : Inv w) (hs : Saves w r) (hopen : r.verdict = []) :
    (do save r; pure r : Prog Record).Meets (Does exec) Allowed Inv w fun out w' =>
      (∀ run, run ≠ r.run → w'.store run = w.store run) ∧
        ∀ r', out = .ok r' → r' = r ∧ Holds w' r := by
  refine Program.meets_bind ((meets_save h hs).mono fun out w' hout =>
    ⟨fun a ha => ?_, fun e he => ?_⟩)
  · obtain rfl := hout.2 a ha
    refine ⟨fun run hne => World.put_store_of_ne _ _ hne, ?_⟩
    rintro r' ⟨⟩
    exact ⟨rfl, World.put_store_self _ _, hopen⟩
  · refine ⟨fun run hne => ?_, fun r' hr' => by cases hr'⟩
    obtain rfl | rfl := hout.1
    · rfl
    · exact World.put_store_of_ne _ _ hne

/-- A refreshed record is stored, or the old one still is; no other run is touched. -/
lemma meets_refreshQuiet (h : Inv w) (hr : Holds w r) :
    (refreshQuiet r).Meets (Does exec) Allowed Inv w fun out w' =>
      (∀ run, run ≠ r.run → w'.store run = w.store run) ∧
        ∀ r', out = .ok r' → Holds w' r' ∧ r'.run = r.run ∧ r'.cycle = r.cycle := by
  rw [refreshQuiet]
  split_ifs with hnothing
  · refine (meets_saved h (.quiet hr.1 hr.2 r.sealed true) hr.2).mono fun out w' hout =>
      ⟨hout.1, fun r' hr' => ?_⟩
    obtain ⟨rfl, hholds⟩ := hout.2 r' hr'
    exact ⟨hholds, rfl, rfl⟩
  · refine Program.meets_call (.status _) fun ans w' hdoes => ?_
    cases hdoes.2 with
    | unobserved => exact ⟨h, fun _ _ => rfl, fun r' hr' => by cases hr'⟩
    | observed _ st =>
      refine ⟨h.look st, ?_⟩
      dsimp only
      split_ifs with hlive
      · refine ⟨fun _ _ => rfl, ?_⟩
        rintro r' ⟨⟩
        exact ⟨hr, rfl, rfl⟩
      · have hstored : (w.look st).store r.run = some r := hr.1
        have hs : Saves (w.look st) { r with quiet := true, sealed := r.sealed || st.sealed } :=
          .quiet hstored hr.2 _ true
        refine (meets_saved (h.look st) hs hr.2).mono fun out w' hout => ⟨hout.1, fun r' hr' => ?_⟩
        obtain ⟨rfl, hholds⟩ := hout.2 r' hr'
        exact ⟨hholds, rfl, rfl⟩

omit [Sha256] in
/-- A stored record that is not confirmed sealed and quiet holds no verdict. -/
lemma holds_of_stored {run} (h : Inv w) (hstored : w.store run = some r)
    (hlive : r.sealed = false ∨ r.quiet = false) : Holds w r := by
  refine ⟨by rw [h.keyed run r hstored, hstored], ?_⟩
  by_contra hverdict
  obtain ⟨hsealed, hquiet, -⟩ :=
    Record.sealed_of_terminal (h.valid run r hstored) (by simpa [Record.terminal] using hverdict)
  obtain hlive | hlive := hlive
  · rw [hsealed] at hlive
    cases hlive
  · rw [hquiet] at hlive
    cases hlive

/-- What the gate has still to look at: the records of the cycle other than the run's own are all
in the list, and the list is what the store holds. -/
structure Gating (w : World) (cycle run : Text) (records : List Record) : Prop where
  absent : w.store run = none
  nodup : (records.map Record.run).Nodup
  stored : ∀ r ∈ records, w.store r.run = some r
  rest : ∀ run' r, w.store run' = some r → r.cycle = cycle → r ∈ records

lemma gives_observeOther (h : Inv w) (hstored : w.store r.run = some r) :
    Leads exec w (observeOther r) fun r' w' =>
      r'.run = r.run ∧ w'.store r.run = some r' ∧
        ∀ run, run ≠ r.run → w'.store run = w.store run := by
  rw [observeOther]
  split_ifs with hlive
  · simp only [Bool.and_eq_true, Bool.not_eq_true'] at hlive
    refine Program.meets_bind (Program.meets_attempt ((meets_refreshQuiet h
      (holds_of_stored h hstored (.inr hlive.2))).mono fun out w' hout => ⟨fun r' hr' => ?_, ?_⟩))
    · cases hr'
      cases out with
      | error e => exact Program.gives_fail
      | ok r' =>
        obtain ⟨hholds, hrun, -⟩ := hout.2 r' rfl
        exact Program.gives_pure ⟨hrun, hrun ▸ hholds.1, hout.1⟩
    · rintro e ⟨⟩
  · exact Program.gives_pure ⟨rfl, hstored, fun _ _ => rfl⟩

lemma gives_gateFrom {cycle run records} (h : Inv w) (hg : Gating w cycle run records) :
    Leads exec w (gateFrom cycle run records) fun _ w' =>
      w'.store run = none ∧ ∀ run' r, w'.store run' = some r → r.cycle ≠ cycle := by
  induction records generalizing w with
  | nil =>
    refine Program.gives_pure ⟨hg.absent, fun run' r hr hcycle => ?_⟩
    exact absurd (hg.rest run' r hr hcycle) (List.not_mem_nil)
  | cons other records ih =>
    have hnodup := List.nodup_cons.1 hg.nodup
    have hother := hg.stored other (.head _)
    rw [gateFrom]
    split_ifs with hskip
    · refine ih h ⟨hg.absent, hnodup.2, fun r hr => hg.stored r (.tail _ hr),
        fun run' r hr hcycle => ?_⟩
      obtain rfl | hmem := List.mem_cons.1 (hg.rest run' r hr hcycle)
      · -- the run's own record is not stored, and other cycles do not matter
        simp only [Bool.or_eq_true, decide_eq_true_eq] at hskip
        obtain rfl | hne := hskip
        · rw [hg.absent] at hother
          cases hother
        · exact absurd hcycle hne
      · exact hmem
    · refine (gives_observeOther h hother).bind h fun other' w' h' hobserved => ?_
      obtain ⟨hrun, hstored, hframe⟩ := hobserved
      split_ifs with hlive
      · exact Program.gives_fail
      · refine (gives_delete h' _).bind h' fun _ w'' h'' hdropped => ?_
        subst hdropped
        rw [hrun] at h'' ⊢
        refine ih h'' ⟨?_, hnodup.2, fun r hr => ?_, fun run' r hr hcycle => ?_⟩
        · obtain rfl | hne := eq_or_ne run other.run
          · simp
          · rw [World.drop_store_of_ne _ _ hne, hframe run hne, hg.absent]
        · have hne : r.run ≠ other.run := fun heq =>
            hnodup.1 (heq ▸ List.mem_map_of_mem hr)
          rw [World.drop_store_of_ne _ _ hne, hframe _ hne]
          exact hg.stored r (.tail _ hr)
        · obtain ⟨hne, hkept⟩ := drop_store_eq_some hr
          rw [hframe run' hne] at hkept
          obtain rfl | hmem := List.mem_cons.1 (hg.rest run' r hkept hcycle)
          · exact absurd (h.keyed run' _ hkept).symm hne
          · exact hmem

lemma gives_gate {cycle run} (h : Inv w) (habsent : w.store run = none) :
    Leads exec w (gate cycle run) fun _ w' =>
      w'.store run = none ∧ ∀ run' r, w'.store run' = some r → r.cycle ≠ cycle := by
  refine Program.gives_call .records fun ans w' hdoes => ?_
  cases hdoes.2 with
  | unlisted => exact ⟨h, Program.gives_fail⟩
  | listed hnodup hsound hcomplete =>
    exact ⟨h, gives_gateFrom h ⟨habsent, hnodup, hsound, fun run' r hr _ => hcomplete run' r hr⟩⟩

lemma gives_reserve (sub) {run} (subject digest place) (h : Inv w) (habsent : w.store run = none) :
    Leads exec w (reserve sub run subject digest place) fun r w' =>
      w'.store r.run = some r ∧ r.run = run := by
  refine (gives_gate h habsent).bind h fun _ w' h' hgate => ?_
  have hs : Saves w' (reserved sub run subject digest place) :=
    .reserve sub run subject digest place hgate.1 hgate.2
  refine (gives_save h' hs).bind h' fun _ w'' _ hput => ?_
  subst hput
  exact Program.gives_pure ⟨World.put_store_self _ _, rfl⟩

/-- The record that is opened is the stored one. -/
lemma gives_openRecord (sub run subject digest place) (h : Inv w) :
    Leads exec w (openRecord sub run subject digest place) fun r w' =>
      w'.store r.run = some r ∧ r.run = run := by
  refine Program.gives_call (.load run) fun ans w' hdoes => ?_
  cases hdoes.2 with
  | unloaded => exact ⟨h, Program.gives_fail⟩
  | absent habsent => exact ⟨h, gives_reserve sub subject digest place h habsent⟩
  | @loaded _ r hstored =>
    refine ⟨h, ?_⟩
    have hkey := h.keyed run r hstored
    dsimp only
    cases hreopen : reopen r subject digest place.sandbox place.profile with
    | ok r' =>
      have hsame : r' = r := by
        rw [reopen] at hreopen
        split_ifs at hreopen
        exact (Except.ok.inj hreopen).symm
      subst hsame
      exact Program.gives_pure ⟨hkey ▸ hstored, hkey⟩
    | error e =>
      split_ifs with hrefused
      · exact Program.gives_fail
      · refine (gives_delete h _).bind h fun _ w'' h'' hdropped => ?_
        subst hdropped
        exact gives_reserve sub subject digest place h'' (hkey ▸ World.drop_store_self _ _)

/-- The record in hand is stored with its mark, holds no verdict, and the state in hand is the
last one reported. -/
def Running (w : World) (r : Record) (st : State) : Prop :=
  Holds w r ∧ r.dispatched = true ∧ w.seen = st

lemma gives_observe {r st} (h : Inv w) (hr : Running w r st) :
    Leads exec w (observe r st) fun p w' => Running w' p.1 p.2 := by
  rw [observe]
  split_ifs with hprofile hsandbox hid
  · exact Program.gives_fail
  · exact Program.gives_fail
  · have hs : Saves w (named r st) := .resolve hr.1.1 hr.1.2 _ _
    refine (gives_save h hs).bind h fun _ w' _ hput => ?_
    subst hput
    exact Program.gives_pure ⟨⟨World.put_store_self _ _, hr.1.2⟩, hr.2.1, hr.2.2⟩
  · exact Program.gives_pure hr

lemma gives_settle {answer} (h : Inv w) (hr : Holds w r)
    (hdispatched : r.dispatched) (hseen : ∀ st, answer = .ok st → w.seen = st) :
    Leads exec w (settle r answer) fun p w' => Running w' p.1 p.2 := by
  cases answer with
  | ok st => exact gives_observe h ⟨hr, hdispatched, hseen st rfl⟩
  | error e =>
    cases e with
    | other => exact Program.gives_fail
    | refused refusal =>
      rw [settle]
      split_ifs with hreason
      · exact Program.gives_fail
      · exact (gives_save h (.refuse hr.1 hr.2 refusal)).bind h fun _ _ _ _ => Program.gives_fail

lemma gives_replayStart {s : Session} (req) (h : Inv w) (hr : Holds w r)
    (hdispatched : r.dispatched) :
    Leads exec w (s.replayStart r req) fun answer w' =>
      Holds w' r ∧ ∀ st, answer = .ok st → w'.seen = st := by
  rw [Session.replayStart]
  split_ifs
  · refine ⟨.replayStart req hr.1 rfl hdispatched, fun ans w' hdoes => ?_⟩
    cases hdoes.2 with
    | replayed _ _ st =>
      refine ⟨h.look st, ?_⟩
      rintro _ ⟨⟩
      exact ⟨hr, fun st' hst => (Except.ok.inj hst)⟩
    | unreplayed =>
      refine ⟨h, ?_⟩
      rintro _ ⟨⟩
      exact ⟨hr, fun st' hst => by cases hst⟩
  · exact Program.gives_pure ⟨hr, fun st hst => by cases hst⟩

/-- A run is started only behind its durable mark, and only if it never was. -/
lemma gives_resolveRun {s : Session} {r} (req) (h : Inv w) (hr : Holds w r) :
    Leads exec w (s.resolveRun r req) fun p w' => Running w' p.1 p.2 := by
  have hreplay : ∀ {w1 : World} {r1 : Record}, Inv w1 → Holds w1 r1 → r1.dispatched →
      (do settle r1 (← s.replayStart r1 req) : Prog (Record × State)).Gives
        (Does exec) Allowed Inv w1 fun p w' => Running w' p.1 p.2 := by
    intro w1 r1 h1 hr1 hd1
    refine (gives_replayStart req h1 hr1 hd1).bind h1 fun answer w2 h2 hanswer => ?_
    exact gives_settle h2 hanswer.1 hd1 hanswer.2
  rw [Session.resolveRun]
  split_ifs with hfresh hknown
  · have hunmarked : r.dispatched = false := by simpa using hfresh
    refine (gives_save h (.mark hr.1 hr.2)).bind h fun _ w' h' hput => ?_
    subst hput
    have hstored : (w.put { r with dispatched := true }).store r.run =
        some { r with dispatched := true } := World.put_store_self _ _
    have hfirst : w.starts r.run = 0 := by
      refine h.unstarted r.run fun r1 hr1 => ?_
      rw [hr.1] at hr1
      cases hr1
      exact hunmarked
    refine Program.gives_call (.start req hstored rfl rfl hfirst) fun ans w'' hdoes => ?_
    have hstart := h'.start hstored rfl hfirst
    cases hdoes.2 with
    | started _ _ st =>
      refine ⟨hstart.look st, ?_⟩
      exact gives_settle (hstart.look st) ⟨hstored, hr.2⟩ rfl fun st' hst => Except.ok.inj hst
    | unstarted _ _ e =>
      refine ⟨hstart, ?_⟩
      cases e with
      | other => exact hreplay hstart ⟨hstored, hr.2⟩ rfl
      | refused refusal =>
        exact gives_settle hstart ⟨hstored, hr.2⟩ rfl fun st hst => by cases hst
  · have hmarked : r.dispatched := by simpa using hfresh
    refine Program.gives_call (.attach _ _) fun ans w' hdoes => ?_
    cases hdoes.2 with
    | attached _ _ st => exact ⟨h.look st, gives_observe (h.look st) ⟨hr, hmarked, rfl⟩⟩
    | unattached => exact ⟨h, Program.gives_fail⟩
  · exact hreplay h hr (by simpa using hfresh)

/-- The bytes and the cursor that admits them are saved in one record, unless nothing changed. -/
lemma gives_commit {page : Page} {st} (h : Inv w) (hr : Holds w r)
    (hpage : w.page = some page) (href : page.ref = r.ref) (hafter : page.after = r.cursor)
    (hadmitted : admitChunks r page.chunks = .ok r') :
    Leads exec w (commit r (advance r' st)) fun _ w' =>
      Holds w' (advance r' st) ∧ w'.seen = w.seen ∧ w'.page = w.page := by
  obtain ⟨hsame, hquiet, hsealed, -, hunmoved⟩ := admit_spec hadmitted
  have hopen : (advance r' st).verdict = [] := hsame.verdict.trans hr.2
  rw [commit]
  split_ifs with hchanged
  · refine (gives_save h (.admitChunks hr.1 hr.2 hpage href hafter hadmitted st)).mono
      fun _ w' hput => ?_
    subst hput
    exact ⟨⟨World.put_store_self _ _, hopen⟩, rfl, rfl⟩
  · simp only [ne_eq, Bool.or_eq_true, decide_eq_true_eq, not_or, not_not] at hchanged
    obtain ⟨⟨hcursor, hquiet'⟩, hsealed'⟩ := hchanged
    obtain rfl := hunmoved hcursor
    have heq : advance r' st = r' := by
      rw [advance] at hquiet' hsealed' ⊢
      dsimp only at hquiet' hsealed'
      rw [hquiet', hsealed']
    rw [heq]
    exact Program.gives_pure ⟨hr, rfl, rfl⟩

lemma gives_conclude {r0 r1 : Record} {page : Page} {st} (h : Inv w) (hr : Holds w r)
    (hpage : w.page = some page) (href : page.ref = r.ref) (hafter : page.after = r0.cursor)
    (hadmitted : admitChunks r0 page.chunks = .ok r1) (hcursor : r.cursor = r1.cursor)
    (hfinal : page.final) :
    Leads exec w (conclude r st) fun _ _ => True := by
  rw [conclude]
  cases hverdict : extractVerdict r.output with
  | error e =>
    exact (gives_save h (.quiet hr.1 hr.2 true _)).bind h fun _ _ _ _ => Program.gives_fail
  | ok report =>
    refine (gives_save h ?_).bind h fun _ _ _ _ => Program.gives_pure trivial
    exact .conclude hr.1 hr.2 hpage href hafter hadmitted hcursor hfinal hverdict

lemma gives_readEvents {r st} {again : Record → Prog Reply} (h : Inv w) (hr : Running w r st)
    (hagain : ∀ {w' : World} {next : Record}, Inv w' → Running w' next st →
      (again next).Gives (Does exec) Allowed Inv w' fun _ _ => True) :
    Leads exec w (readEvents r st again) fun _ _ => True := by
  refine Program.gives_call (.events hr.1.1) fun ans w' hdoes => ?_
  cases hdoes.2 with
  | unread => exact ⟨h, Program.gives_fail⟩
  | read _ _ chunks =>
    have h' := h.read r.ref r.cursor chunks
    refine ⟨h', ?_⟩
    dsimp only
    cases hadmitted : admitChunks r chunks with
    | error e => exact Program.gives_fail
    | ok r' =>
      have hholds : Holds (w.read r.ref r.cursor chunks) r := hr.1
      have hsame := (admit_spec hadmitted).1
      refine (gives_commit h' hholds rfl rfl rfl hadmitted).bind h' fun _ w'' h'' hnext => ?_
      obtain ⟨hholds', hseen, hpage⟩ := hnext
      split_ifs with hover
      · refine gives_conclude h'' hholds' hpage hsame.ref.symm rfl hadmitted rfl ?_
        -- the page was asked for under the state in hand
        change w.seen.over
        rw [hr.2.2]
        exact hover
      · exact hagain h'' ⟨hholds', hsame.dispatched.trans hr.2.1, hseen.trans hr.2.2⟩

lemma gives_consume (polls : Nat) {r st} (h : Inv w) (hr : Running w r st) :
    Leads exec w (consume polls r st) fun _ _ => True := by
  induction polls generalizing w r st with
  | zero => exact gives_readEvents h hr fun _ _ => Program.gives_fail
  | succ polls ih =>
    refine gives_readEvents h hr fun {w' next} h' hnext => ?_
    refine Program.gives_call .sleep fun ans w'' hdoes => ?_
    cases hdoes.2 with
    | slept ans =>
      refine ⟨h', ?_⟩
      cases ans with
      | false => exact Program.gives_fail
      | true =>
        refine Program.gives_call (.status _) fun ans w'' hdoes => ?_
        cases hdoes.2 with
        | unobserved => exact ⟨h', Program.gives_fail⟩
        | observed _ st' =>
          refine ⟨h'.look st', ?_⟩
          exact (gives_observe (h'.look st') ⟨hnext.1, hnext.2.1, rfl⟩).bind (h'.look st')
            fun p w'' h'' hp => ih h'' hp

/-! ## The calls -/

/-- The requests that ask for something and change nothing. -/
def Op.asks : Op → Prop
  | .compose _ | .checkRequest _ | .placement _ | .digest _ _ | .load _ => True
  | _ => False

/-- Preparing an invocation leaves the world as it is, whatever the requests are checked for. -/
lemma gives_prepare {allowed : World → Op → Prop} {inv : World → Prop} (s : Session) (sub)
    (h : inv w) (hallowed : ∀ op, op.asks → allowed w op) :
    (s.prepare sub).Gives (Does exec) allowed inv w fun _ w' => w' = w := by
  refine Program.gives_call (hallowed (.compose sub) trivial) fun ans w' hdoes => ?_
  cases hdoes.2
  refine ⟨h, ?_⟩
  cases ans with
  | none => exact Program.gives_fail
  | some req =>
    refine Program.gives_call (hallowed (.checkRequest req) trivial) fun ans w' hdoes => ?_
    cases hdoes.2
    refine ⟨h, ?_⟩
    cases ans with
    | false => exact Program.gives_fail
    | true =>
      have hsandbox :
          (s.resolveSandbox sub).Gives (Does exec) allowed inv w fun _ w' => w' = w := by
        rw [Session.resolveSandbox]
        split_ifs
        · exact Program.gives_pure rfl
        · refine Program.gives_call (hallowed (.placement sub) trivial) fun ans w' hdoes => ?_
          cases hdoes.2
          refine ⟨h, ?_⟩
          cases ans with
          | none => exact Program.gives_fail
          | some place =>
            dsimp only
            split_ifs
            · exact Program.gives_pure rfl
            · exact Program.gives_fail
      refine hsandbox.bind h fun place w' _ hw => ?_
      subst hw
      refine Program.gives_call (hallowed (.digest _ req) trivial) fun ans w' hdoes => ?_
      cases hdoes.2
      refine ⟨h, ?_⟩
      cases ans with
      | none => exact Program.gives_fail
      | some digest => exact Program.gives_pure rfl

lemma allowed_of_asks {op : Op} (h : op.asks) : Allowed w op := by
  cases op with
  | compose sub => exact .compose sub
  | checkRequest req => exact .checkRequest req
  | placement sub => exact .placement sub
  | digest ref req => exact .digest ref req
  | load run => exact .load run
  | save _ => cases h
  | delete _ => cases h
  | records => cases h
  | start _ _ => cases h
  | replayStart _ _ => cases h
  | attach _ _ => cases h
  | status _ => cases h
  | events _ _ => cases h
  | sleep => cases h

omit [Sha256] in
/-- A stored verdict is quiet, so it is handed back as it is. -/
lemma restate_of_terminal {run} (h : Inv w) (hstored : w.store run = some r)
    (hterminal : r.terminal) : restate r = pure (.report r.verdict r.findings) := by
  obtain ⟨-, hquiet, -⟩ := Record.sealed_of_terminal (h.valid run r hstored) hterminal
  rw [restate, refreshUnless, if_pos hquiet, Program.pure_bind, if_pos hquiet]

lemma gives_review (s : Session) (sub) (h : Inv w) :
    Leads exec w (s.review sub) fun _ _ => True := by
  rw [Session.review]
  split_ifs with hmissing
  · exact Program.gives_fail
  refine (gives_prepare s sub h fun op => allowed_of_asks).bind h fun p w' _ hw => ?_
  subst hw
  refine (gives_openRecord sub sub.runID sub.subjectDigest _ _ h).bind h
    fun r w'' h'' hopened => ?_
  split_ifs with hterminal
  · rw [restate_of_terminal h'' hopened.1 hterminal]
    exact Program.gives_pure trivial
  · have hholds : Holds w'' r := ⟨hopened.1, by simpa [Record.terminal] using hterminal⟩
    exact (gives_resolveRun _ h'' hholds).bind h'' fun p w3 h3 hp => gives_consume _ h3 hp

lemma gives_retire (sub) (h : Inv w) :
    Leads exec w (retire sub) fun _ _ => True := by
  rw [retire]
  split_ifs with hmissing
  · exact Program.gives_fail
  refine Program.gives_call (.load _) fun ans w' hdoes => ?_
  cases hdoes.2 with
  | unloaded => exact ⟨h, Program.gives_fail⟩
  | absent => exact ⟨h, Program.gives_pure trivial⟩
  | @loaded _ r hstored =>
    refine ⟨h, ?_⟩
    have hrefresh : (refreshUnless (r.sealed && r.quiet) r).Gives (Does exec) Allowed Inv w
        fun _ _ => True := by
      rw [refreshUnless]
      split_ifs with hover
      · exact Program.gives_pure trivial
      · have hlive : r.sealed = false ∨ r.quiet = false := by
          rwa [Bool.not_eq_true, Bool.and_eq_false_iff] at hover
        exact (meets_refreshQuiet h (holds_of_stored h hstored hlive)).mono
          fun _ _ _ _ _ => trivial
    refine hrefresh.bind h fun r' w' h' _ => ?_
    split_ifs with hover
    · exact (gives_delete h' _).bind h' fun _ _ _ _ => Program.gives_pure trivial
    · exact Program.gives_fail

/-- The survey of one record leaves the others as they are. -/
lemma gives_survey (h : Inv w) (hstored : w.store r.run = some r) :
    Leads exec w (survey r) fun _ w' =>
      ∀ run, run ≠ r.run → w'.store run = w.store run := by
  rw [survey]
  split_ifs with hskip
  · exact Program.gives_pure fun _ _ => rfl
  · have hlive : r.quiet = false := by
      simp only [Bool.or_eq_true, not_or, Bool.not_eq_true] at hskip
      exact hskip.2
    refine Program.meets_bind (Program.meets_attempt ((meets_refreshQuiet h
      (holds_of_stored h hstored (.inr hlive))).mono fun out w' hout => ⟨fun a ha => ?_, ?_⟩))
    · cases ha
      cases out with
      | error e => exact Program.gives_pure hout.1
      | ok r' => exact Program.gives_pure hout.1
    · rintro e ⟨⟩

lemma gives_reconcileFrom {records : List Record} (h : Inv w)
    (hnodup : (records.map Record.run).Nodup) (hstored : ∀ r ∈ records, w.store r.run = some r) :
    Leads exec w (reconcileFrom records) fun _ _ => True := by
  induction records generalizing w with
  | nil => exact Program.gives_pure trivial
  | cons r records ih =>
    have hnodup' := List.nodup_cons.1 hnodup
    rw [List.forall_mem_cons] at hstored
    refine (gives_survey h hstored.1).bind h fun _ w' h' hframe => ?_
    refine (ih h' hnodup'.2 fun r' hr' => ?_).bind h' fun _ _ _ _ => Program.gives_pure trivial
    rw [hframe _ fun heq => hnodup'.1 (heq ▸ List.mem_map_of_mem hr')]
    exact hstored.2 r' hr'

lemma gives_reconcile (h : Inv w) : Leads exec w reconcile fun _ _ => True := by
  refine Program.gives_call .records fun ans w' hdoes => ?_
  cases hdoes.2 with
  | unlisted => exact ⟨h, Program.gives_fail⟩
  | listed hnodup hsound =>
    exact ⟨h, (gives_reconcileFrom h hnodup hsound).bind h
      fun _ _ _ _ => Program.gives_pure trivial⟩

/-- Every request of every call is allowed, whatever the surroundings answer. -/
theorem meets_body (s : Session) (c : Call) (h : Inv w) :
    (s.body c).Meets (Does exec) Allowed Inv w fun _ _ => True := by
  have hgives : Leads exec w (s.body c) fun _ _ => True := by
    cases c with
    | review sub => exact gives_review s sub h
    | retire sub => exact gives_retire sub h
    | reconcile => exact gives_reconcile h
  exact Program.Meets.mono hgives fun _ _ _ => trivial

end Ben.ReviewRun
