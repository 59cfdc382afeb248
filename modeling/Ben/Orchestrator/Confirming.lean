import Ben.Orchestrator.Landing
import Ben.Orchestrator.Safety

/-!
# Confirmed disposals stay confirmed

Readings of the directory of ended cycles are stamped with the number of mutations counted when
they leave.  A confirmed disposal counts as a mutation, so that whatever left before it is stale
when it comes back, and an obligation that was discharged is not registered again by a reading from
before.  An obligation is disposed of by one worker at a time.
-/

namespace Ben

open List

section

variable [Platform]

namespace Worker

/-- The number of mutations a reading of the directory was stamped with. -/
def stamp : Worker → Option Nat
  | .claimBase _ _ _ _ seq => seq
  | .cycleScan _ seq => some seq
  | _ => none

/-- The worker disposes of the ended cycle at an address. -/
def disposes (address : String) : Worker → Bool
  | .cycleDispose address' _ => address' == address
  | _ => false

lemma stamp_of_plain {w : Worker} (h : w.plain) : w.stamp = none := by
  cases w <;> try rfl
  case claimBase seq =>
    cases seq with
    | none => rfl
    | some n => cases h
  case cycleScan => cases h

lemma disposes_of_plain {w : Worker} (h : w.plain) (address) :
    w.disposes address = false := by
  cases w <;> first | rfl | cases h

lemma eq_of_disposes {w : Worker} {address} (h : w.disposes address) :
    ∃ ws, w = .cycleDispose address ws := by
  cases w <;> try cases h
  case cycleDispose address' ws =>
    obtain rfl : address' = address := by simpa [disposes] using h
    exact ⟨ws, rfl⟩

end Worker

namespace Orchestrator

variable {o o' : Orchestrator}

/-! ## What strokes and landings change -/

/-- What a stroke does to the bag of workers, the obligations and the retained claims. -/
structure Stroked (G : Grounds) (o o' : Orchestrator) : Prop where
  /-- One worker is sent out at most; a reading has the newest stamp, and a disposal is for an
  obligation none was out for, which is marked. -/
  workers : (o'.workers = o.workers ∧ o'.nextWorker = o.nextWorker) ∨
    ∃ w, o'.workers = (o.nextWorker, w) :: o.workers ∧ o'.nextWorker = o.nextWorker + 1 ∧
      (∀ s, w.stamp = some s → o'.cycleMutationSeq = s) ∧
      ∀ address, w.disposes address →
        (∃ c, o.endedCycles.lookup address = some c ∧ c.inFlight = false) ∧
        ∃ c, o'.endedCycles.lookup address = some c ∧ c.inFlight
  counted : o.cycleMutationSeq ≤ o'.cycleMutationSeq
  owed : o.scanOwed → o'.scanOwed
  /-- An obligation keeps its marks; one that is dropped has nothing out, and a candidate it held
  back owes the scan. -/
  cycle : ∀ {address c}, o.endedCycles.lookup address = some c →
    (∃ c', o'.endedCycles.lookup address = some c' ∧ c'.issue = c.issue ∧
      (c.inFlight → c'.inFlight) ∧ (c.deferredCandidate → c'.deferredCandidate)) ∨
    (c.inFlight = false ∧ (c.deferredCandidate → o'.scanOwed))
  baseline : ∀ {id c}, o'.held.lookup id = some c →
    (∃ c0, o.held.lookup id = some c0 ∧ c0.revision = c.revision) ∨ G.baseline id c.revision

lemma stroked {G} (h : Stroke G o o') : Stroked G o o' := by
  have hcycle {o' : Orchestrator} (hsame : o'.endedCycles = o.endedCycles) {address c}
      (h : o.endedCycles.lookup address = some c) :
      (∃ c', o'.endedCycles.lookup address = some c' ∧ c'.issue = c.issue ∧
        (c.inFlight → c'.inFlight) ∧ (c.deferredCandidate → c'.deferredCandidate)) ∨
      (c.inFlight = false ∧ (c.deferredCandidate → o'.scanOwed)) :=
    .inl ⟨c, hsame ▸ h, rfl, id, id⟩
  have hkept {id c} (h : o.held.lookup id = some c) :
      (∃ c0, o.held.lookup id = some c0 ∧ c0.revision = c.revision) ∨ G.baseline id c.revision :=
    .inl ⟨c, h, rfl⟩
  have hinsert {id' c0} (hc0 : o.held.lookup id' = some c0) (c1 : HeldClaim)
      (hc1 : c0.revision = c1.revision ∨ G.baseline id' c1.revision) {id c}
      (h : (o.held.insert id' c1).lookup id = some c) :
      (∃ c0, o.held.lookup id = some c0 ∧ c0.revision = c.revision) ∨
        G.baseline id c.revision := by
    by_cases hid : id = id'
    · subst hid
      rw [AList.lookup_insert, Option.some.injEq] at h
      exact hc1.imp (fun hsame => ⟨c0, hc0, h ▸ hsame⟩) (h ▸ ·)
    · exact hkept ((AList.lookup_insert_ne hid).symm.trans h)
  cases h with
  | spawn w hw =>
    refine ⟨.inr ⟨w, rfl, rfl, fun s hs => ?_, fun address hd => ?_⟩, le_rfl, id, hcycle rfl, hkept⟩
    · rw [Worker.stamp_of_plain hw] at hs
      cases hs
    · rw [Worker.disposes_of_plain hw address] at hd
      cases hd
  | prepare tag issue attempt epoch =>
    exact ⟨.inr ⟨_, rfl, rfl, nofun, nofun⟩, le_rfl, id, hcycle rfl, hkept⟩
  | start tag root issue vars spec =>
    exact ⟨.inr ⟨_, rfl, rfl, nofun, nofun⟩, le_rfl, id, hcycle rfl, hkept⟩
  | claim issue cur => exact ⟨.inr ⟨_, rfl, rfl, nofun, nofun⟩, le_rfl, id, hcycle rfl, hkept⟩
  | mutate tag issue epoch workspaces =>
    exact ⟨.inr ⟨_, rfl, rfl, fun s hs => Option.some.inj hs, nofun⟩, Nat.le_succ _, id,
      hcycle rfl, hkept⟩
  | scanCycles =>
    exact ⟨.inr ⟨_, rfl, rfl, fun s hs => Option.some.inj hs, nofun⟩, le_rfl, id, hcycle rfl, hkept⟩
  | convert t anchor revision hready hground =>
    refine ⟨.inl ⟨rfl, rfl⟩, le_rfl, id, hcycle rfl, fun {id c} h => ?_⟩
    by_cases hid : id = (o.heap t).issue.identifier
    · subst hid
      simp only [convertToHeld, AList.lookup_insert, Option.some.injEq] at h
      exact .inr (h ▸ hground)
    · exact hkept ((AList.lookup_insert_ne hid).symm.trans h)
  | editHeld id' c0 f hc0 hf =>
    exact ⟨.inl ⟨rfl, rfl⟩, le_rfl, id, hcycle rfl, hinsert hc0 _ (.inl (hf c0).2.symm)⟩
  | rebase id' c0 fresh hc0 hground =>
    exact ⟨.inl ⟨rfl, rfl⟩, le_rfl, id, hcycle rfl, hinsert hc0 _ (.inr hground)⟩
  | sendHeld id' c0 hc0 hflight hgate =>
    exact ⟨.inl ⟨rfl, rfl⟩, le_rfl, id, hcycle rfl,
      hinsert hc0 { c0 with inFlight := true } (.inl rfl)⟩
  | dropHeld id' =>
    refine ⟨.inl ⟨rfl, rfl⟩, le_rfl, id, hcycle rfl, fun {id c} h => ?_⟩
    by_cases hid : id = id'
    · subst hid
      rw [dropHeld, AList.lookup_erase] at h
      cases h
    · exact hkept ((AList.lookup_erase_ne hid).symm.trans h)
  | oweCycle id' workspaces ws why =>
    unfold oweEndedCycle
    dsimp only
    split
    · exact ⟨.inl ⟨rfl, rfl⟩, le_rfl, id, hcycle rfl, hkept⟩
    · split
      · exact ⟨.inl ⟨rfl, rfl⟩, le_rfl, id, hcycle rfl, hkept⟩
      · rename_i hnew
        refine ⟨.inl ⟨rfl, rfl⟩, le_rfl, id, fun {address c} h => .inl ⟨c, ?_, rfl, id, id⟩, hkept⟩
        rw [AList.lookup_insert_ne]
        · exact h
        · rintro rfl
          exact hnew (by rw [h]; rfl)
  | deferCandidate id' =>
    refine ⟨.inl ⟨rfl, rfl⟩, le_rfl, id, fun {address c} h => .inl ?_, hkept⟩
    rw [lookup_deferCandidate, h]
    refine ⟨_, rfl, ?_⟩
    dsimp only
    split
    · exact ⟨rfl, id, fun _ => rfl⟩
    · exact ⟨rfl, id, id⟩
  | disposeCycle address' c' hlookup hflight =>
    refine ⟨.inr ⟨_, rfl, rfl, nofun, fun address hd => ?_⟩, le_rfl, id, fun {address c} h => ?_,
      hkept⟩
    · obtain rfl : address' = address := by simpa [Worker.disposes] using hd
      exact ⟨⟨c', hlookup, hflight⟩, _, AList.lookup_insert _, rfl⟩
    · by_cases haddress : address = address'
      · subst haddress
        cases hlookup.symm.trans h
        exact .inl ⟨_, AList.lookup_insert _, rfl, fun _ => rfl, id⟩
      · exact .inl ⟨c, (AList.lookup_insert_ne haddress).trans h, rfl, id, id⟩
  | dropCycle address' c' hlookup hflight =>
    refine ⟨.inl ⟨rfl, rfl⟩, le_rfl, fun h => by simp [h], fun {address c} h => ?_, hkept⟩
    by_cases haddress : address = address'
    · subst haddress
      cases hlookup.symm.trans h
      exact .inr ⟨hflight, fun hc => by simp [hc]⟩
    · exact .inl ⟨c, (AList.lookup_erase_ne haddress).trans h, rfl, id, id⟩
  | oweScan =>
    exact ⟨.inl ⟨rfl, rfl⟩, le_rfl, fun _ => rfl, fun h => .inl ⟨_, h, rfl, id, id⟩, hkept⟩
  | driveClear p =>
    unfold driveMarkerClear
    split
    · exact ⟨.inl ⟨rfl, rfl⟩, le_rfl, id, hcycle rfl, hkept⟩
    · exact ⟨.inr ⟨_, rfl, rfl, nofun, nofun⟩, le_rfl, id, hcycle rfl, hkept⟩
  | remember issue root =>
    unfold rememberPendingClear
    split <;> exact ⟨.inl ⟨rfl, rfl⟩, le_rfl, id, hcycle rfl, hkept⟩
  | flags o' h =>
    refine ⟨.inl ⟨h.workers, h.nextWorker⟩, h.cycleMutationSeq.ge, fun howed => ?_,
      hcycle h.endedCycles, fun hc => hkept (h.held ▸ hc)⟩
    rwa [h.scanOwed]
  | _ => exact ⟨.inl ⟨rfl, rfl⟩, le_rfl, id, hcycle rfl, hkept⟩

/-- The report of a disposal takes the mark off its obligation. -/
lemma lookup_settleCycle (o : Orchestrator) (address err address') :
    (o.settleCycle address err).endedCycles.lookup address' =
      (o.endedCycles.lookup address').map fun c =>
        if address' = address then { c with inFlight := false } else c := by
  unfold settleCycle
  by_cases haddress : address' = address
  · subst haddress
    cases hlookup : o.endedCycles.lookup address' with
    | none => simp [hlookup]
    | some c =>
      dsimp only
      split <;> simp
  · split
    · simp [haddress]
    · dsimp only
      split <;> simp [AList.lookup_insert_ne haddress]

/-- When an input lands, the workers it sends out neither read the directory nor dispose of a
cycle.  Only the report of a disposal touches the obligations, and only that of a release the
retained claims. -/
lemma lands_spec {i} (h : Lands o i o') : o.nextWorker ≤ o'.nextWorker ∧
    (∃ sent kept, o'.workers = sent ++ kept ∧ kept.Sublist o.workers ∧
      ∀ e ∈ sent, e.2.stamp = none ∧ ∀ address, e.2.disposes address = false) ∧
    ((o'.endedCycles = o.endedCycles ∧ o'.cycleMutationSeq = o.cycleMutationSeq) ∨
      ∃ serial address ws err, o.worker serial = some (.cycleDispose address ws) ∧
        o' = (o.dropWorker serial).settleCycle address err) ∧
    (o'.held = o.held ∨
      ∃ serial id token err, o' = (o.dropWorker serial).onHeldReleased id token err) := by
  have hdrop (serial) : ∃ sent kept, (o.dropWorker serial).workers = sent ++ kept ∧
      kept.Sublist o.workers ∧
      ∀ e ∈ sent, e.2.stamp = none ∧ ∀ address, e.2.disposes address = false :=
    ⟨[], (o.dropWorker serial).workers, rfl, eraseP_sublist, by simp⟩
  have hset (serial) (w : Worker) (hw : w.stamp = none ∧ ∀ address, w.disposes address = false) :
      ∃ sent kept, (o.setWorker serial w).workers = sent ++ kept ∧ kept.Sublist o.workers ∧
      ∀ e ∈ sent, e.2.stamp = none ∧ ∀ address, e.2.disposes address = false :=
    ⟨[(serial, w)], (o.dropWorker serial).workers, rfl, eraseP_sublist, by simpa using hw⟩
  have hstay : ∃ sent kept, o.workers = sent ++ kept ∧ kept.Sublist o.workers ∧
      ∀ e ∈ sent, e.2.stamp = none ∧ ∀ address, e.2.disposes address = false :=
    ⟨[], o.workers, rfl, .refl _, by simp⟩
  cases h with
  | answer serial w a orders => exact ⟨le_rfl, hdrop serial, .inl ⟨rfl, rfl⟩, .inl rfl⟩
  | stream serial tag handle saw saw' closed =>
    exact ⟨le_rfl, hset serial _ ⟨rfl, fun _ => rfl⟩, .inl ⟨rfl, rfl⟩, .inl rfl⟩
  | reserve serial plan id orders hworker hgranted =>
    rw [(grantDisposal_eq hgranted).1]
    exact ⟨le_rfl, hset serial _ ⟨rfl, fun _ => rfl⟩, .inl ⟨rfl, rfl⟩, .inl rfl⟩
  | unreserve serial plan id =>
    exact ⟨le_rfl, hset serial _ ⟨rfl, fun _ => rfl⟩, .inl ⟨rfl, rfl⟩, .inl rfl⟩
  | claimBase serial => exact ⟨le_rfl, hdrop serial, .inl ⟨rfl, rfl⟩, .inl rfl⟩
  | undelivered serial => exact ⟨le_rfl, hdrop serial, .inl ⟨rfl, rfl⟩, .inl rfl⟩
  | effect serial tag what err =>
    obtain ⟨f, heq⟩ := (o.dropWorker serial).settle_eq tag.token err
    rw [heq]
    exact ⟨le_rfl, hdrop serial, .inl ⟨rfl, rfl⟩, .inl rfl⟩
  | heldReleased serial id token err =>
    obtain ⟨held, heq⟩ := (o.dropWorker serial).onHeldReleased_eq id token err
    refine ⟨?_, ?_, .inl ?_, .inr ⟨serial, id, token, err, rfl⟩⟩ <;> rw [heq]
    exacts [le_rfl, hdrop serial, ⟨rfl, rfl⟩]
  | disposed serial address ws err orders hworker =>
    obtain ⟨cycles, seq, heq⟩ := (o.dropWorker serial).settleCycle_eq address err
    refine ⟨?_, ?_, .inr ⟨serial, address, ws, err, hworker, rfl⟩, .inl ?_⟩ <;> rw [heq]
    exacts [le_rfl, hdrop serial, rfl]
  | cleared serial clear err =>
    obtain ⟨clears, heq⟩ := (o.dropWorker serial).settleClear_eq clear err
    rw [heq]
    exact ⟨le_rfl, hdrop serial, .inl ⟨rfl, rfl⟩, .inl rfl⟩
  | unscanned serial => exact ⟨le_rfl, hdrop serial, .inl ⟨rfl, rfl⟩, .inl rfl⟩
  | scanned serial => exact ⟨le_rfl, hdrop serial, .inl ⟨rfl, rfl⟩, .inl rfl⟩
  | ran job rest err heffects =>
    refine ⟨Nat.le_succ _, ⟨[(_, job.report err)], _, rfl, .refl _, ?_⟩, .inl ⟨rfl, rfl⟩, .inl rfl⟩
    cases job <;> simp [Job.report, Worker.stamp, Worker.disposes]
  | adopt next orders =>
    obtain ⟨cur, heq⟩ := o.onAdopt_eq next
    rw [heq]
    exact ⟨le_rfl, hstay, .inl ⟨rfl, rfl⟩, .inl rfl⟩
  | _ => exact ⟨le_rfl, hstay, .inl ⟨rfl, rfl⟩, .inl rfl⟩

lemma lands_seq {i} (h : Lands o i o') : o.cycleMutationSeq ≤ o'.cycleMutationSeq := by
  obtain ⟨-, -, ⟨-, hseq⟩ | ⟨serial, address, ws, err, -, rfl⟩, -⟩ := lands_spec h
  · exact hseq.ge
  · unfold settleCycle
    split
    · exact le_rfl
    · dsimp only
      split
      · exact le_rfl
      · exact Nat.le_succ _

lemma mem_workers_of_lands {i} (h : Lands o i o') {e} (he : e ∈ o'.workers) :
    e ∈ o.workers ∨ e.2.stamp = none ∧ ∀ address, e.2.disposes address = false := by
  obtain ⟨-, ⟨sent, kept, heq, hsub, hsent⟩, -⟩ := lands_spec h
  rw [heq, mem_append] at he
  exact he.symm.imp (hsub.subset ·) (hsent e ·)

/-! ## Readings from before a confirmation -/

/-- Of the workers that left before the given one, none has a reading stamped as late as this. -/
structure Stale (before seq : Nat) (o : Orchestrator) : Prop where
  later : seq ≤ o.cycleMutationSeq
  left : before ≤ o.nextWorker
  stamped : ∀ e ∈ o.workers, e.1 < before → ∀ s, e.2.stamp = some s → s < seq

lemma stale_of_stroke {G} {before seq : Nat} (hs : Stroke G o o') (h : Stale before seq o) :
    Stale before seq o' := by
  have hlater := h.later.trans (stroked hs).counted
  obtain ⟨hsame, hnext⟩ | ⟨w, hspawned, hnext, -⟩ := (stroked hs).workers
  · exact ⟨hlater, hnext ▸ h.left, hsame ▸ h.stamped⟩
  · refine ⟨hlater, hnext ▸ h.left.trans (Nat.le_succ _), fun e he hbefore => ?_⟩
    rw [hspawned] at he
    obtain rfl | he := mem_cons.1 he
    · exact absurd h.left (not_le.2 hbefore)
    · exact h.stamped e he hbefore

lemma stale_of_lands {i} {before seq : Nat} (hl : Lands o i o') (h : Stale before seq o) :
    Stale before seq o' := by
  refine ⟨h.later.trans (lands_seq hl), h.left.trans (lands_spec hl).1, fun e he hbefore s hs => ?_⟩
  obtain he | ⟨hnone, -⟩ := mem_workers_of_lands hl he
  · exact h.stamped e he hbefore s hs
  · cases hnone.symm.trans hs

/-! ## One disposal at a time -/

/-- How many workers dispose of the ended cycle at an address. -/
def disposals (address : String) (workers : List (Nat × Worker)) : Nat :=
  workers.countP fun e => e.2.disposes address

/-- The obligations, the readings and the disposals that are out fit together. -/
structure Cycling (o : Orchestrator) : Prop where
  stamped : ∀ e ∈ o.workers, ∀ s, e.2.stamp = some s → s ≤ o.cycleMutationSeq
  once : ∀ address, disposals address o.workers ≤ 1
  marked : ∀ address, 0 < disposals address o.workers →
    ∃ c, o.endedCycles.lookup address = some c ∧ c.inFlight = true

/-- A stroke sends a disposal out only for an obligation none is out for, and marks it. -/
lemma stroke_disposals {G} (h : Stroke G o o') (address) :
    disposals address o'.workers = disposals address o.workers ∨
      disposals address o'.workers = disposals address o.workers + 1 ∧
        (∃ c, o.endedCycles.lookup address = some c ∧ c.inFlight = false) ∧
        ∃ c, o'.endedCycles.lookup address = some c ∧ c.inFlight := by
  obtain ⟨hsame, -⟩ | ⟨w, hspawned, -, -, hdisposes⟩ := (stroked h).workers
  · exact .inl (by rw [hsame])
  · cases hw : w.disposes address with
    | false => exact .inl (by simp [hspawned, disposals, hw])
    | true => exact .inr ⟨by simp [hspawned, disposals, hw], hdisposes address hw⟩

lemma cycling_of_stroke {G} (hs : Stroke G o o') (h : Cycling o) : Cycling o' := by
  refine ⟨fun e he s hstamped => ?_, fun address => ?_, fun address hout => ?_⟩
  · have hold (he : e ∈ o.workers) := (h.stamped e he s hstamped).trans (stroked hs).counted
    obtain ⟨hsame, -⟩ | ⟨w, hspawned, -, hstamp, -⟩ := (stroked hs).workers
    · exact hold (hsame ▸ he)
    · rw [hspawned] at he
      obtain rfl | he := mem_cons.1 he
      · exact (hstamp s hstamped).ge
      · exact hold he
  · obtain hsame | ⟨hone, ⟨c, hlookup, hidle⟩, -⟩ := stroke_disposals hs address
    · exact hsame ▸ h.once address
    · -- the obligation was not marked, so nothing was out for it
      have hnone : disposals address o.workers = 0 := by
        by_contra hsome
        obtain ⟨c', hlookup', hflight⟩ := h.marked address (Nat.pos_of_ne_zero hsome)
        cases hlookup.symm.trans hlookup'
        cases hidle.symm.trans hflight
      omega
  · obtain hsame | ⟨-, -, hmarked⟩ := stroke_disposals hs address
    · obtain ⟨c, hlookup, hflight⟩ := h.marked address (hsame ▸ hout)
      obtain ⟨c', hlookup', -, hstays, -⟩ | ⟨hidle, -⟩ := (stroked hs).cycle hlookup
      · exact ⟨c', hlookup', hstays hflight⟩
      · cases hidle.symm.trans hflight
    · exact hmarked

/-- When an input lands, no more disposals are out than were; the mark of an obligation whose
disposal came back is taken off, and no other. -/
lemma lands_disposals {i} (h : Lands o i o') (hcycling : Cycling o) (address) :
    disposals address o'.workers ≤ disposals address o.workers ∧
      (0 < disposals address o'.workers → o'.endedCycles.lookup address =
        o.endedCycles.lookup address) := by
  obtain ⟨-, ⟨sent, kept, heq, hsub, hsent⟩, hcycles, -⟩ := lands_spec h
  refine ⟨?_, fun hout => ?_⟩
  · have hnone : disposals address sent = 0 :=
      countP_eq_zero.2 fun e he => by simp [(hsent e he).2 address]
    rw [heq, disposals, countP_append]
    exact (Nat.add_le_add_right hnone.le _).trans (by simpa [disposals] using hsub.countP_le)
  · obtain ⟨hsame, -⟩ | ⟨serial, address', ws, err, hworker, rfl⟩ := hcycles
    · rw [hsame]
    rw [lookup_settleCycle]
    by_cases haddress : address = address'
    · -- the one disposal there was has come back
      subst haddress
      obtain ⟨cycles, seq, hsettled⟩ := (o.dropWorker serial).settleCycle_eq address err
      obtain ⟨e, hfind, hw⟩ := Option.map_eq_some_iff.1 hworker
      have hcount := countP_eq_eraseP (p := fun e : Nat × Worker => e.2.disposes address) hfind
      have hone := hcycling.once address
      have hthis : e.2.disposes address := by simp [hw, Worker.disposes]
      simp only [hthis, if_true] at hcount
      rw [hsettled] at hout
      simp only [disposals, dropWorker] at hone hout
      omega
    · simp [haddress, dropWorker]

lemma cycling_of_lands {i} (hl : Lands o i o') (h : Cycling o) : Cycling o' := by
  refine ⟨fun e he s hs => ?_, fun address => ?_, fun address hout => ?_⟩
  · obtain he | ⟨hnone, -⟩ := mem_workers_of_lands hl he
    · exact (h.stamped e he s hs).trans (lands_seq hl)
    · cases hnone.symm.trans hs
  · exact (lands_disposals hl h address).1.trans (h.once address)
  · obtain ⟨hle, hsame⟩ := lands_disposals hl h address
    rw [hsame hout]
    exact h.marked address (hout.trans_le hle)

lemma cycling_initial (cur daemonInstance) (now : Time) :
    Cycling (initial cur daemonInstance now) := by
  refine ⟨?_, fun address => ?_, fun address hout => ?_⟩
  · intro e he
    cases he
  · exact Nat.zero_le _
  · exact absurd hout (lt_irrefl _)

/-! ## Stale readings change nothing -/

/-- What a stale periodic reading lists makes no difference. -/
lemma onCycleScan_stale {seq : Nat} (hstale : seq ≠ o.cycleMutationSeq)
    (workspaces refs refs' err) :
    o.onCycleScan workspaces refs err seq = o.onCycleScan workspaces refs' err seq := by
  have hfresh : (seq == o.cycleMutationSeq) = false := by simpa using hstale
  unfold onCycleScan
  cases err with
  | none => simp [hfresh]
  | some e => simp [applyCycleScan]

/-- What a stale reading that came with a claim base lists makes no difference. -/
lemma claimBaseScan_stale {seq : Nat} (hstale : seq ≠ o.cycleMutationSeq)
    (workspaces refs refs' err) :
    o.claimBaseScan workspaces refs err seq = o.claimBaseScan workspaces refs' err seq := by
  unfold claimBaseScan
  cases err with
  | none => split <;> simp [hstale]
  | some e => simp [applyCycleScan]

/-- A worker that is out when an answer to a reading comes does not report and stay. -/
lemma deliver_eq {serial : Nat} {w a orders} (hworker : o.worker serial = some w)
    (hreported : o.reported serial w a = none) :
    o.deliver serial a orders = (o.dropWorker serial).answered w a orders := by
  obtain ⟨⟨n, w'⟩, hfind, rfl⟩ := Option.map_eq_some_iff.1 hworker
  simp only [deliver, hfind]
  rw [hreported]

lemma deliver_eq_none {serial : Nat} {a orders} (hworker : o.worker serial = none) :
    o.deliver serial a orders = none := by
  have hfind := Option.map_eq_none_iff.1 hworker
  simp only [deliver, hfind]

lemma reported_cycles (serial : Nat) (w refs err) :
    o.reported serial w (.cycles refs err) = none := by
  cases w <;> try rfl
  case pump closed => cases closed <;> rfl
  case sweep reserved => cases reserved <;> rfl

lemma reported_claimBase (serial : Nat) (w err refs refsErr base baseErr) :
    o.reported serial w (.claimBase err refs refsErr base baseErr) = none := by
  cases w <;> try rfl
  case pump closed => cases closed <;> rfl
  case sweep reserved => cases reserved <;> rfl

/-- What a reading from before a confirmation lists makes no difference to the step that brings
it. -/
lemma step_stale {before seq serial : Nat} (h : Stale before seq o) (hserial : serial < before) :
    (∀ refs refs' err orders, o.step (.answer serial (.cycles refs err) orders) =
      o.step (.answer serial (.cycles refs' err) orders)) ∧
    ∀ err refs refs' refsErr base baseErr orders,
      o.step (.answer serial (.claimBase err refs refsErr base baseErr) orders) =
        o.step (.answer serial (.claimBase err refs' refsErr base baseErr) orders) := by
  cases hworker : o.worker serial with
  | none => exact ⟨by intros; simp [step, deliver_eq_none hworker],
      by intros; simp [step, deliver_eq_none hworker]⟩
  | some w =>
    -- the worker that has this serial left before, so its reading is stale
    have hstale : ∀ s, w.stamp = some s → s ≠ o.cycleMutationSeq := by
      intro s hs
      obtain ⟨e, hfind, rfl⟩ := Option.map_eq_some_iff.1 hworker
      have hserial' : e.1 = serial := by simpa using find?_some hfind
      exact ((h.stamped e (mem_of_find?_eq_some hfind) (hserial' ▸ hserial) s hs).trans_le
        h.later).ne
    constructor
    · intro refs refs' err orders
      simp only [step, deliver_eq hworker (reported_cycles _ _ _ _)]
      cases w <;> try rfl
      case cycleScan workspaces seq =>
        simp only [answered]
        rw [onCycleScan_stale (o := o.dropWorker serial) (hstale seq rfl) workspaces refs refs' err]
    · intro err refs refs' refsErr base baseErr orders
      simp only [step, deliver_eq hworker (reported_claimBase _ _ _ _ _ _ _)]
      cases w <;> try rfl
      case claimBase tag issue epoch workspaces cycleSeq =>
        cases cycleSeq with
        | none => rfl
        | some seq =>
          simp only [answered]
          rw [claimBaseScan_stale (o := o.dropWorker serial) (hstale seq rfl) workspaces refs refs'
            refsErr]

/-! ## Every run -/

/-- A confirmation counts as a mutation, so every reading that is out when it comes is stale. -/
lemma stale_of_confirmed {serial : Nat} {address ws orders} (h : Cycling o)
    (hworker : o.worker serial = some (.cycleDispose address ws))
    (hstep : o.step (.answer serial (.outcome none) orders) = some o') :
    Stale o.nextWorker (o.cycleMutationSeq + 1) o' := by
  obtain ⟨o1, hlands, hwork⟩ := step_lands hstep
  refine hwork.invariant (fun _ _ => stale_of_stroke) ?_
  have hout : 0 < disposals address o.workers := by
    obtain ⟨e, hfind, hw⟩ := Option.map_eq_some_iff.1 hworker
    refine countP_pos_iff.2 ⟨e, mem_of_find?_eq_some hfind, ?_⟩
    simp [hw, Worker.disposes]
  obtain ⟨c, hlookup, -⟩ := h.marked address hout
  refine ⟨?_, (lands_spec hlands).1, fun e he _ s hs => ?_⟩
  · cases hlands with
    | answer _ w _ _ hworker' hplain =>
      rw [hworker, Option.some.injEq] at hworker'
      rw [← hworker'] at hplain
      cases hplain
    | stream _ _ _ _ _ _ _ _ hworker' => cases hworker.symm.trans hworker'
    | claimBase _ _ _ _ _ _ _ _ _ hworker' => cases hworker.symm.trans hworker'
    | unscanned _ _ _ _ hworker' => cases hworker.symm.trans hworker'
    | cleared _ _ _ _ hworker' => cases hworker.symm.trans hworker'
    | disposed _ address' _ _ _ hworker' =>
      cases hworker.symm.trans hworker'
      simp [settleCycle, dropWorker, hlookup]
  · obtain he | ⟨hnone, -⟩ := mem_workers_of_lands hlands he
    · exact Nat.lt_succ_of_le (h.stamped e he s hs)
    · cases hnone.symm.trans hs

/-- In every run one disposal at most is out for an address; and once a disposal is confirmed, what
a reading lists that left before makes no difference, however late it comes. -/
theorem confirmed_stays_confirmed {cur : Snapshot} {daemonInstance : String} {now : Time}
    {reads : StartupReads} {inputs : List Input}
    (hrun : Runs.run step (boot cur daemonInstance now reads) inputs = some o) :
    (∀ address, disposals address o.workers ≤ 1) ∧
    ∀ confirmation address ws orders1 o1, o.worker confirmation = some (.cycleDispose address ws) →
      o.step (.answer confirmation (.outcome none) orders1) = some o1 →
      ∀ later o2, Runs.run step o1 later = some o2 → ∀ serial < o.nextWorker,
        (∀ refs refs' err orders, o2.step (.answer serial (.cycles refs err) orders) =
          o2.step (.answer serial (.cycles refs' err) orders)) ∧
        ∀ err refs refs' refsErr base baseErr orders,
          o2.step (.answer serial (.claimBase err refs refsErr base baseErr) orders) =
            o2.step (.answer serial (.claimBase err refs' refsErr base baseErr) orders) := by
  have hcycling : Cycling o := by
    refine invariant_of_run (fun _ _ _ => cycling_of_lands) (fun _ _ _ => cycling_of_stroke) ?_ hrun
    exact invariant_boot (cycling_initial cur daemonInstance now) fun _ _ => cycling_of_stroke
  refine ⟨hcycling.once, ?_⟩
  intro confirmation address ws orders1 o1 hworker hstep later o2 hlater serial hserial
  have hstale := stale_of_confirmed hcycling hworker hstep
  exact step_stale (invariant_of_run (fun _ _ _ => stale_of_lands) (fun _ _ _ => stale_of_stroke)
    hstale hlater) hserial

end Orchestrator

end

/-! ## A run with a reading from before -/

namespace Sample

/-- A provider whose cycles outlive the claims they were made for. -/
def cycleSnapshot : Snapshot :=
  { definition := definition 1
    runtime :=
      { definition := definition 1, claimPrincipal := "ben"
        workspaces := { lifecycleCompleter := true, endedCycleSource := true } } }

/-- An ended cycle the directory names. -/
def endedCycle : WorkspaceRef := { identifier := "7", path := "/cycle", key := "key" }

/-- The daemon after a startup that finds the ended cycle. -/
def cycleBooted : Orchestrator :=
  Orchestrator.boot cycleSnapshot "daemon" 9000000000 { endedCycles := [endedCycle] }

/-- A tick sends a reading of the directory out, then the cycle's disposal leaves. -/
def disposingRun : List Orchestrator.Input := [.tick {}, .answer 1 (.reconcile (fun _ => {}) {}) {}]

end Sample

namespace Orchestrator

open Sample

/-- The reading that left before the disposal was confirmed does not bring the cycle back. -/
theorem confirmed_stays_confirmed_disposingRun :
    ∃ o o1, Runs.run step cycleBooted disposingRun = some o ∧
      disposals "/cycle" o.workers = 1 ∧
      o.step (.answer 2 (.outcome none) {}) = some o1 ∧
      o1.step (.answer 0 (.cycles [endedCycle] none) {}) =
        o1.step (.answer 0 (.cycles [] none) {}) ∧
      ((o1.step (.answer 0 (.cycles [endedCycle] none) {})).any fun o2 =>
        (o2.endedCycles.lookup "/cycle").isNone) = true := by
  have hany : ((Runs.run step cycleBooted disposingRun).any fun o =>
      (o.worker 2).any (·.disposes "/cycle") && decide (disposals "/cycle" o.workers = 1) &&
        decide (0 < o.nextWorker) && (o.step (.answer 2 (.outcome none) {})).any fun o1 =>
          (o1.step (.answer 0 (.cycles [endedCycle] none) {})).any fun o2 =>
            (o2.endedCycles.lookup "/cycle").isNone) = true := by decide
  obtain ⟨o, hrun, h⟩ := (Option.any_eq_true _ _).1 hany
  simp only [Bool.and_eq_true, decide_eq_true_eq] at h
  obtain ⟨⟨⟨hworker, hone⟩, hserial⟩, hstep⟩ := h
  obtain ⟨w, hworker, hdisposes⟩ := (Option.any_eq_true _ _).1 hworker
  obtain ⟨ws, rfl⟩ := Worker.eq_of_disposes hdisposes
  obtain ⟨o1, hstep, hlookup⟩ := (Option.any_eq_true _ _).1 hstep
  refine ⟨o, o1, hrun, hone, hstep, ?_, hlookup⟩
  exact ((confirmed_stays_confirmed hrun).2 2 "/cycle" ws {} o1 hworker hstep [] o1 rfl 0
    hserial).1 _ _ _ _

end Orchestrator

end Ben
