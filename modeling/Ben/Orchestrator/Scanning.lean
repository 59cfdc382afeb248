import Ben.Orchestrator.Confirming

/-!
# Candidates of a retried scan

The claims the principal holds are read again when a startup could not read them.  Every issue such
a reading returns must be owned afterwards, or held back by an ended-cycle obligation that owes the
reading again when it is discharged.  A reading that comes back while the directory of ended cycles
could not be read finds every issue held back and no obligation to mark.
-/

namespace Ben

namespace Orchestrator

section

variable [Platform] {o o' o'' : Orchestrator} {t : Token}

/-! ## What owns an issue stays as it is -/

/-- The records, the retained claims and the obligations are as they were. -/
structure SameOwners (o o' : Orchestrator) : Prop where
  records : o'.records = o.records
  held : o'.held = o.held
  endedCycles : o'.endedCycles = o.endedCycles
  scanOwed : o'.scanOwed = o.scanOwed

namespace SameOwners

lemma refl (o) : SameOwners o o := ⟨rfl, rfl, rfl, rfl⟩

lemma trans (h : SameOwners o o') (h' : SameOwners o' o'') : SameOwners o o'' :=
  ⟨h'.records.trans h.records, h'.held.trans h.held, h'.endedCycles.trans h.endedCycles,
    h'.scanOwed.trans h.scanOwed⟩

lemma modify (t) (f : Record → Record) : SameOwners o (o.modify t f) := ⟨rfl, rfl, rfl, rfl⟩

lemma spawn (w) : SameOwners o (o.spawn w) := ⟨rfl, rfl, rfl, rfl⟩

lemma note (a) : SameOwners o (o.note a) := ⟨rfl, rfl, rfl, rfl⟩

lemma either {c : Prop} [Decidable c] {o1 o2} (hpos : SameOwners o o1) (hneg : SameOwners o o2) :
    SameOwners o (if c then o1 else o2) := by
  split
  · exact hpos
  · exact hneg

lemma maybe {c : Prop} [Decidable c] (h : SameOwners o o') : SameOwners o (if c then o else o') :=
  either (refl o) h

lemma foldl {α : Type} {f : Orchestrator → α → Orchestrator}
    (hf : ∀ o a, SameOwners o (f o a)) (l : List α) : SameOwners o (l.foldl f o) := by
  induction l generalizing o with
  | nil => exact refl o
  | cons a l ih => exact (hf o a).trans ih

/-- Work on whatever record an issue has. -/
lemma ofIssue (id) {f : Orchestrator → Token → Orchestrator} (hf : ∀ o t, SameOwners o (f o t)) :
    SameOwners o (match o.records.lookup id with
      | some t => f o t
      | none => o) := by
  split
  · exact hf _ _
  · exact refl _

end SameOwners

lemma sameOwners_driveOwed : SameOwners o (o.driveOwed t) := by
  unfold driveOwed
  dsimp only
  refine .maybe ?_
  split
  · exact .refl _
  · refine .maybe ?_
    unfold enqueue
    split
    · exact ⟨rfl, rfl, rfl, rfl⟩
    · exact .modify _ _

lemma sameOwners_oweEffect (eff) : SameOwners o (o.oweEffect t eff) :=
  ((SameOwners.modify _ _).trans (.note _)).trans sameOwners_driveOwed

lemma sameOwners_beginStop (mode) : SameOwners o (o.beginStop t mode) := by
  unfold beginStop
  dsimp only
  refine .maybe ?_
  split
  · exact .spawn _
  · exact (SameOwners.modify _ _).trans (.spawn _)

lemma sameOwners_completeShutdown : SameOwners o (o.completeShutdown t) :=
  .maybe <| .maybe <| (SameOwners.modify _ _).trans (sameOwners_oweEffect _)

lemma sameOwners_recordAttempt (reason verdict) : SameOwners o (o.recordAttempt t reason verdict) :=
  .maybe <| (SameOwners.modify _ _).trans (.note _)

lemma sameOwners_suspend : SameOwners o (o.suspend t) := by
  unfold suspend
  refine .either sameOwners_driveOwed ?_
  dsimp only
  have hsuspended : SameOwners o (o.modify t fun r => { r with suspended := true }) := .modify _ _
  generalize o.modify t _ = o1 at hsuspended ⊢
  generalize heq : (if (o1.heap t).handle.isNone ∧ (o1.heap t).pending = 0 then _ else o1) = o2
  have hcomplete : SameOwners o1 o2 :=
    heq ▸ .either ((sameOwners_recordAttempt _ _).trans sameOwners_completeShutdown) (.refl _)
  refine (hsuspended.trans hcomplete).trans ((sameOwners_driveOwed (t := t)).trans ?_)
  exact .either (sameOwners_beginStop _) <| .refl _

lemma sameOwners_driveShutdown (order) : SameOwners o (o.driveShutdown order) := by
  refine .maybe ?_
  have hsuspended : SameOwners o (o.eachRecord order suspend) :=
    .foldl (fun _ id => .ofIssue (f := suspend) id fun _ _ => sameOwners_suspend) _
  exact hsuspended.trans (.either ⟨rfl, rfl, rfl, rfl⟩ <| .refl _)

lemma sameOwners_retryRecovery (order) : SameOwners o (o.retryRecovery order) := by
  have hscan : SameOwners o (o.retryRecoveryScan o.cur) := .maybe <| ⟨rfl, rfl, rfl, rfl⟩
  refine hscan.trans (.foldl (fun _ id => .ofIssue (f := fun o' t => o'.retryRecoveryOne t o.cur) id
    fun _ _ => ?_) _)
  exact .maybe <| (SameOwners.modify _ _).trans (.spawn _)

/-! ## Covered candidates -/

/-- An obligation of the issue holds a candidate back. -/
def Deferred (o : Orchestrator) (id : String) : Prop :=
  ∃ address c, o.endedCycles.lookup address = some c ∧ c.issue = id ∧ c.deferredCandidate = true

/-- The issue is owned, or held back by an obligation that is marked for it, or the scan is still
owed. -/
def Covered (o : Orchestrator) (id : String) : Prop :=
  (o.records.lookup id).isSome ∨ (o.held.lookup id).isSome ∨ o.Deferred id ∨ o.scanOwed = true

lemma SameOwners.covered (h : SameOwners o o') {id} (hcovered : o.Covered id) : o'.Covered id := by
  unfold Covered Deferred at hcovered ⊢
  rw [h.records, h.held, h.endedCycles, h.scanOwed]
  exact hcovered

/-- The issue has a record, a retained claim or an obligation, or what the directory names is
known. -/
def Placed (o : Orchestrator) (id : String) : Prop :=
  (o.records.lookup id).isSome ∨ (o.held.lookup id).isSome ∨
    (∃ address c, o.endedCycles.lookup address = some c ∧ c.issue = id) ∨
    o.cycleScanFailed = false

/-- A candidate is covered once the scan has looked at it. -/
lemma covered_scanCandidate (issue : Issue) (cur) (h : o.Placed issue.identifier) :
    (o.scanCandidate issue cur).Covered issue.identifier := by
  unfold scanCandidate
  dsimp only
  split
  · rename_i howned
    obtain hrecord | hheld := (Bool.or_eq_true _ _).mp howned
    · exact .inl hrecord
    · exact .inr (.inl hheld)
  · rename_i hfree
    split
    · rename_i howed
      have hentry : ∃ address c, o.endedCycles.lookup address = some c ∧
          c.issue = issue.identifier := by
        obtain hrecord | hheld | hentry | hread := h
        · simp [hrecord] at hfree
        · simp [hheld] at hfree
        · exact hentry
        · obtain ⟨e, he, hissue⟩ : ∃ e ∈ o.endedCycles.entries, e.2.issue = issue.identifier := by
            simpa [endedCycleOwed, hread] using howed
          exact ⟨e.1, e.2, AList.mem_lookup_iff.2 he, hissue⟩
      obtain ⟨address, c, hlookup, hissue⟩ := hentry
      refine .inr (.inr (.inl ⟨address, { c with deferredCandidate := true }, ?_, hissue, rfl⟩))
      have hmarked := lookup_deferCandidate o issue.identifier address
      rw [hlookup, Option.map_some, if_pos hissue] at hmarked
      exact hmarked
    · left
      show (AList.lookup issue.identifier (o.records.insert issue.identifier _)).isSome
      rw [AList.lookup_insert]
      rfl

/-- A candidate that is covered or placed stays so while the scan looks at the others. -/
lemma stays_scanCandidate (issue cur id) : (o.Covered id → (o.scanCandidate issue cur).Covered id) ∧
      (o.Placed id → (o.scanCandidate issue cur).Placed id) := by
  unfold scanCandidate
  dsimp only
  split
  · exact ⟨fun h => h, fun h => h⟩
  · split
    · have hmarked := lookup_deferCandidate o issue.identifier
      constructor
      · rintro (hrecord | hheld | ⟨address, c, hlookup, hissue, hmark⟩ | howed)
        · exact .inl hrecord
        · exact .inr (.inl hheld)
        · refine .inr (.inr (.inl ⟨address, _, (hmarked address).trans (by rw [hlookup]; rfl), ?_⟩))
          dsimp only
          split
          · exact ⟨hissue, rfl⟩
          · exact ⟨hissue, hmark⟩
        · exact .inr (.inr (.inr howed))
      · rintro (hrecord | hheld | ⟨address, c, hlookup, hissue⟩ | hread)
        · exact .inl hrecord
        · exact .inr (.inl hheld)
        · refine .inr (.inr (.inl ⟨address, _, (hmarked address).trans (by rw [hlookup]; rfl), ?_⟩))
          dsimp only
          split <;> exact hissue
        · exact .inr (.inr (.inr hread))
    · have hrecord : (o.records.lookup id).isSome →
          ((o.adoptUnclassified issue cur).records.lookup id).isSome := by
        intro h
        show (AList.lookup id (o.records.insert issue.identifier _)).isSome
        by_cases hid : id = issue.identifier
        · rw [hid, AList.lookup_insert]
          rfl
        · rw [AList.lookup_insert_ne hid]
          exact h
      exact ⟨Or.imp_left hrecord, Or.imp_left hrecord⟩

/-- A scan covers every candidate it looks at. -/
lemma covered_foldl_scanCandidate (candidates : List Issue) (cur)
    (h : ∀ issue ∈ candidates, o.Placed issue.identifier) :
    ∀ issue ∈ candidates,
      (candidates.foldl (fun o issue => o.scanCandidate issue cur) o).Covered issue.identifier := by
  have hstays : ∀ (l : List Issue) (o : Orchestrator) id, o.Covered id →
      (l.foldl (fun o issue => o.scanCandidate issue cur) o).Covered id := by
    intro l
    induction l with
    | nil => exact fun _ _ h => h
    | cons issue l ih => exact fun o id hid => ih _ id ((stays_scanCandidate issue cur id).1 hid)
  induction candidates generalizing o with
  | nil => exact fun _ hmem => absurd hmem List.not_mem_nil
  | cons first rest ih =>
    intro issue hmem
    rw [List.foldl_cons]
    obtain rfl | hmem := List.mem_cons.1 hmem
    · exact hstays rest _ _ (covered_scanCandidate _ cur (h _ (.head _)))
    · refine ih (fun other hother => ?_) issue hmem
      exact (stays_scanCandidate first cur _).2 (h other (.tail _ hother))

/-! ## Marks -/

/-- A landing takes no mark off. -/
lemma lands_deferred {i} (h : Lands o i o') {address} {c : EndedCycle}
    (hlookup : o.endedCycles.lookup address = some c) (hmark : c.deferredCandidate) :
    ∃ c', o'.endedCycles.lookup address = some c' ∧ c'.issue = c.issue ∧
      c'.deferredCandidate := by
  obtain ⟨-, -, ⟨hsame, -⟩ | ⟨serial, address', ws, err, -, rfl⟩, -⟩ := lands_spec h
  · exact ⟨c, hsame ▸ hlookup, rfl, hmark⟩
  · refine ⟨_, (lookup_settleCycle _ _ _ _).trans (congrArg _ hlookup), ?_⟩
    dsimp only
    split <;> exact ⟨rfl, hmark⟩

/-- A stroke takes a mark off only by owing the scan. -/
lemma stroke_deferred {G} (h : Stroke G o o') {address id}
    (hmark : (∃ c, o.endedCycles.lookup address = some c ∧ c.issue = id ∧
      c.deferredCandidate) ∨ o.scanOwed) :
    (∃ c, o'.endedCycles.lookup address = some c ∧ c.issue = id ∧
      c.deferredCandidate) ∨ o'.scanOwed := by
  obtain ⟨c, hlookup, rfl, hc⟩ | howed := hmark
  · obtain ⟨c', hlookup', hissue, -, hstays⟩ | ⟨-, howed⟩ := (stroked h).cycle hlookup
    · exact .inl ⟨c', hlookup', hissue, hstays hc⟩
    · exact .inr (howed hc)
  · exact .inr ((stroked h).owed howed)

/-- A mark stays until the scan is owed again. -/
lemma step_deferred {i} (hstep : o.step i = some o') {address} {c : EndedCycle}
    (hlookup : o.endedCycles.lookup address = some c) (hmark : c.deferredCandidate) :
    (∃ c', o'.endedCycles.lookup address = some c' ∧ c'.issue = c.issue ∧
      c'.deferredCandidate) ∨ o'.scanOwed := by
  obtain ⟨o1, hlands, hwork⟩ := step_lands hstep
  exact hwork.invariant (P := fun o => (∃ c', o.endedCycles.lookup address = some c' ∧
    c'.issue = c.issue ∧ c'.deferredCandidate) ∨ o.scanOwed)
    (fun _ _ hs => stroke_deferred hs) (.inl (lands_deferred hlands hlookup hmark))

/-- Along a run a mark stays until a state in which the scan is owed again. -/
lemma run_deferred {is} (hrun : Runs.run step o is = some o') {address} {c : EndedCycle}
    (hlookup : o.endedCycles.lookup address = some c) (hmark : c.deferredCandidate) :
    (∃ c', o'.endedCycles.lookup address = some c' ∧ c'.issue = c.issue ∧
      c'.deferredCandidate) ∨
    ∃ i before after o1, is = i :: before ++ after ∧ Runs.run step o (i :: before) = some o1 ∧
      o1.scanOwed := by
  induction is generalizing o c with
  | nil =>
    cases hrun
    exact .inl ⟨c, hlookup, rfl, hmark⟩
  | cons i is ih =>
    obtain ⟨o1, hstep, hrest⟩ := Option.bind_eq_some_iff.1 hrun
    obtain ⟨c1, hlookup1, hissue, hmark1⟩ | howed := step_deferred hstep hlookup hmark
    · obtain ⟨c', hlookup', hissue', hmark'⟩ | ⟨j, before, after, o2, rfl, hbefore, howed⟩ :=
        ih hrest hlookup1 hmark1
      · exact .inl ⟨c', hlookup', hissue'.trans hissue, hmark'⟩
      · refine .inr ⟨i, j :: before, after, o2, rfl, ?_, howed⟩
        rw [Runs.run, hstep]
        exact hbefore
    · refine .inr ⟨i, [], is, o1, rfl, ?_, howed⟩
      rw [Runs.run, hstep]
      rfl

/-! ## The scan -/

/-- A scan that is applied, each of whose candidates has a record, a retained claim or an obligation
unless what the directory names is known, leaves every candidate owned, or held back by an
obligation marked for it, or the scan still owed; and along every run from any state on, a mark is
taken off only by owing the scan again. -/
theorem scan_covers_candidates {serial revision : Nat} {candidates : List Issue} {orders : Orders}
    (hworker : o.worker serial = some (.recoveryScan revision))
    (hcurrent : o.cur.revision = revision)
    (hplaced : ∀ issue ∈ candidates, o.Placed issue.identifier)
    (hstep : o.step (.answer serial (.issues candidates none) orders) = some o') :
    (∀ issue ∈ candidates, o'.Covered issue.identifier) ∧
    ∀ o1 later o2, Runs.run step o1 later = some o2 →
      ∀ address c, o1.endedCycles.lookup address = some c → c.deferredCandidate = true →
        (∃ c', o2.endedCycles.lookup address = some c' ∧ c'.issue = c.issue ∧
          c'.deferredCandidate = true) ∨
        ∃ i before after o3, later = i :: before ++ after ∧
          Runs.run step o1 (i :: before) = some o3 ∧ o3.scanOwed = true := by
  refine ⟨?_, fun _ _ _ hrun _ _ hlookup hmark => run_deferred hrun hlookup hmark⟩
  simp only [step, deliver_eq hworker rfl, answered, Option.map_some, Option.some.injEq] at hstep
  subst hstep
  intro issue hmem
  refine (sameOwners_driveShutdown _).covered ?_
  unfold onRecoveryScan
  dsimp only
  rw [if_neg (by simp [dropWorker, hcurrent])]
  refine (sameOwners_retryRecovery _).covered ?_
  refine covered_foldl_scanCandidate candidates _ (fun other hother => ?_) issue hmem
  exact hplaced other hother

end

end Orchestrator

/-! ## Runs with a retried scan -/

namespace Sample

/-- The daemon after a startup that could not read the claims it holds. -/
def unreadBooted : Orchestrator :=
  Orchestrator.boot cycleSnapshot "daemon" 9000000000 { candidates := .error { text := "down" } }

/-- The directory of ended cycles is read, then the claims are asked for again. -/
def rescanRun : List Orchestrator.Input :=
  [.tick {}, .answer 0 (.cycles [] none) {}, .answer 1 (.reconcile (fun _ => {}) {}) {}]

/-- While the claims are being read, the next reading of the directory fails. -/
def overtakenRun : List Orchestrator.Input :=
  rescanRun ++ [.tick {}, .answer 4 (.cycles [] (some { text := "down" })) {}]

end Sample

namespace Orchestrator

open Sample

/-- The worker reads the claims the principal holds, under the configuration in force. -/
def scansNow (o : Orchestrator) (serial : Nat) : Bool :=
  match o.worker serial with
  | some (.recoveryScan revision) => o.cur.revision == revision
  | _ => false

lemma worker_of_scansNow {o : Orchestrator} {serial : Nat} (h : o.scansNow serial) :
    o.worker serial = some (.recoveryScan o.cur.revision) := by
  unfold scansNow at h
  split at h
  · rename_i revision hworker
    rw [hworker, ← (beq_iff_eq.1 h)]
  · cases h

/-- The candidate of the sample scan is owned once the scan is applied. -/
theorem scan_covers_candidates_rescanRun : ∃ o o', Runs.run step unreadBooted rescanRun = some o ∧
      o.step (.answer 2 (.issues [issue "7"] none) {}) = some o' ∧ o'.Covered "7" := by
  have hany : ((Runs.run step unreadBooted rescanRun).any fun o =>
      o.scansNow 2 && !o.cycleScanFailed &&
        (o.step (.answer 2 (.issues [issue "7"] none) {})).isSome) = true := by
    decide
  obtain ⟨o, hrun, h⟩ := (Option.any_eq_true _ _).1 hany
  simp only [Bool.and_eq_true, Bool.not_eq_true'] at h
  obtain ⟨⟨hscans, hread⟩, hstep⟩ := h
  obtain ⟨o', hstep⟩ := Option.isSome_iff_exists.1 hstep
  refine ⟨o, o', hrun, hstep, ?_⟩
  exact (scan_covers_candidates (worker_of_scansNow hscans) rfl
    (fun _ _ => .inr (.inr (.inr hread))) hstep).1 (issue "7") (.head _)

/-- Nothing owns the issue, no obligation holds it back, and no scan is owed. -/
def lost (o : Orchestrator) (id : String) : Bool :=
  (o.records.lookup id).isNone && (o.held.lookup id).isNone && o.endedCycles.entries.isEmpty &&
    !o.scanOwed

lemma not_covered_of_lost {o : Orchestrator} {id} (h : o.lost id) : ¬ o.Covered id := by
  simp only [lost, Bool.and_eq_true, Bool.not_eq_true', Option.isNone_iff_eq_none,
    List.isEmpty_iff] at h
  obtain ⟨⟨⟨hrecord, hheld⟩, hcycles⟩, howed⟩ := h
  rintro (hsome | hsome | ⟨address, c, hlookup, -⟩ | hsome)
  · rw [hrecord] at hsome
    cases hsome
  · rw [hheld] at hsome
    cases hsome
  · have hmem := AList.mem_lookup_iff.1 hlookup
    rw [hcycles] at hmem
    cases hmem
  · rw [howed] at hsome
    cases hsome

/-- A scan that comes back after a reading of the directory failed forgets its candidate. -/
theorem scan_loses_candidate : ∃ o o', Runs.run step unreadBooted overtakenRun = some o ∧
      o.worker 2 = some (.recoveryScan o.cur.revision) ∧
      o.step (.answer 2 (.issues [issue "7"] none) {}) = some o' ∧ ¬ o'.Covered "7" := by
  have hany : ((Runs.run step unreadBooted overtakenRun).any fun o =>
      o.scansNow 2 && (o.step (.answer 2 (.issues [issue "7"] none) {})).any
        (·.lost "7")) = true := by
    decide
  obtain ⟨o, hrun, h⟩ := (Option.any_eq_true _ _).1 hany
  obtain ⟨hscans, hstep⟩ := Bool.and_eq_true_iff.1 h
  obtain ⟨o', hstep, hlost⟩ := (Option.any_eq_true _ _).1 hstep
  exact ⟨o, o', hrun, worker_of_scansNow hscans, hstep, not_covered_of_lost hlost⟩

end Orchestrator

end Ben
