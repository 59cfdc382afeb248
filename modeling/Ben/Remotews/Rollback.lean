import Mathlib.Logic.Function.Basic
import Ben.Remotews.Provider

/-!
# Rolling back an assignment

An assignment that ends before it was pinned is abandoned: its record goes back to the pin it came
from, or away if it came from none.  The operation runs here over files whose reads and writes all
succeed, so what it does to them is a function of the record.

Beginning an assignment reads a record of either version; abandoning one refuses the legacy
version.  So the two are inverse on every pinned record, but a legacy record itself cannot be
abandoned, and neither can the one that a rollback has just restored.
-/

namespace Ben.Remotews

open Ben.Review Program

/-- The live records of a store, by key. -/
abbrev Files := Text → Option Cycle

/-- The answers of a store whose reads and writes succeed, under a standing approval. -/
def Files.answer (approval : Int) (files : Files) : (op : Op) → Ans op × Files
  | .lockCycle _ | .unlockCycle _ | .lockCompletion _ | .unlockCompletion _ => ((), files)
  | .readCycle key =>
    (match files key with
      | some c => .holds c
      | none => .absent, files)
  | .replaceCycle c => (true, Function.update files c.key (some c))
  | .removeCycle key => (true, Function.update files key none)
  | .readDisposal _ => (.absent, files)
  | .replaceDisposal _ | .syncDisposal _ => (true, files)
  | .removeDisposal _ => (.gone true, files)
  | .listDisposals => (some [], files)
  | .workspaceCycle _ => (some approval, files)
  | .openJournal _ => (.noRecord, files)
  | .closeJournal _ | .discardInbox _ => (true, files)
  | .status _ => (.noProcess, files)
  | .recordClaim _ _ => (none, files)
  | .discardPin _ => (true, files)
  | .attach _ => (.noWorkspace, files)
  | .acquire _ => (none, files)
  | .hook _ _ _ _ => (.succeeded, files)
  | .restore _ _ => (true, files)
  | .complete _ _ _ => (none, files)

/-- An operation on the files, with its outcome. -/
def Files.run (approval : Int) (prog : Prog Unit) (files : Files) : Except Refusal Unit × Files :=
  prog.interpret (Files.answer approval) files

/-- What abandoning leaves of a record: a pin as it is, and of a pending record the pin that it
came from. -/
def rolledBack (c : Cycle) : Option Cycle :=
  if c.state = .pending then if c.outgoingEpoch > 0 then some c.outgoingPin else none else some c

section Running

variable (approval : Int) {p : Provider} {issue key : Text} {c : Cycle} {files : Files}

lemma interpret_require (b : Bool) (e) : (require b e).interpret (Files.answer approval) files =
      if b then (.ok (), files) else (.error e, files) := by
  cases b <;> rfl

lemma interpret_withCycle (hkey : checkKey key) (body : Prog Unit) :
    (withCycle key body).interpret (Files.answer approval) files =
      body.interpret (Files.answer approval) files := by
  have hof (out : Except Refusal Unit) (files' : Files) :
      (ofExcept out).interpret (Files.answer approval) files' = (out, files') := by
    cases out <;> rfl
  simp [withCycle, interpret_bind, interpret_require, hkey, Files.answer, hof]

lemma interpret_loadCycle_none (hkey : checkKey key) (hfile : files key = none) :
    (loadCycle key).interpret (Files.answer approval) files = (.error .noCycle, files) := by
  simp [loadCycle, interpret_bind, interpret_require, hkey, Files.answer, hfile]

lemma interpret_loadCycle (hkey : checkKey key) (hfile : files key = some c)
    (hvalid : c.validate = none) (hc : c.key = key) :
    (loadCycle key).interpret (Files.answer approval) files = (.ok c, files) := by
  simp [loadCycle, decodeCycle, refuse, interpret_bind, interpret_require, hkey, Files.answer,
    hfile, hvalid, hc]

lemma interpret_saveCycle (hkey : checkKey c.key) (hvalid : c.validate = none) :
    (saveCycle c).interpret (Files.answer approval) files =
      (.ok (), Function.update files c.key (some c)) := by
  simp [saveCycle, refuse, interpret_bind, interpret_require, hkey, hvalid, Files.answer]

lemma interpret_deleteCycle (hkey : checkKey key) :
    (deleteCycle key).interpret (Files.answer approval) files =
      (.ok (), Function.update files key none) := by
  simp [deleteCycle, interpret_bind, interpret_require, hkey, Files.answer]

lemma interpret_loadForTransition (hc : p.Owns issue c) (hfile : files (p.key issue) = some c) :
    (p.loadForTransition (p.key issue) issue).interpret (Files.answer approval) files =
      (.ok c, files) := by
  have hload := interpret_loadCycle approval hc.keyed hfile hc.valid hc.key
  simp [Provider.loadForTransition, interpret_bind, interpret_require, hload, hc.repository,
    hc.issue]

/-- Reading a record for anything but its next assignment refuses the legacy version. -/
lemma interpret_load (hc : p.Owns issue c) (hfile : files (p.key issue) = some c) :
    (p.load (p.key issue) issue).interpret (Files.answer approval) files =
      if c.version = legacyCycleVersion then (.error .claimTargetUnrecorded, files)
      else (.ok c, files) := by
  have hload := interpret_loadForTransition approval hc hfile
  by_cases hversion : c.version = legacyCycleVersion <;>
    simp [Provider.load, interpret_bind, interpret_require, hload, hversion]

/-! ## Abandoning -/

lemma Cycle.Valid.outgoingPin (h : c.Valid) (hversion : c.version = cycleVersion)
    (hstate : c.state = .pending) (hout : 0 < c.outgoingEpoch) : c.outgoingPin.Valid where
  version := by
    rw [Cycle.outgoingPin]
    split_ifs
    · exact .inr rfl
    · exact .inl hversion
  legacy := by
    rw [Cycle.outgoingPin]
    split_ifs with htarget
    · exact fun _ => ⟨htarget, rfl⟩
    · exact fun hlegacy => nomatch hversion.symm.trans hlegacy
  named := h.named
  approval := h.approval
  epoch := hout
  pendingBase := by simp [Cycle.outgoingPin]
  outgoing := by simp [Cycle.outgoingPin]
  outgoingTarget := by simp [Cycle.outgoingPin]
  pinnedBase _ := h.outgoing hstate hout.ne'
  pinnedTarget := by
    rw [Cycle.outgoingPin]
    split_ifs with htarget
    · exact fun _ hne => absurd rfl hne
    · exact fun _ _ => htarget
  pinnedOutgoing := by simp [Cycle.outgoingPin]
  state := .inr rfl

lemma run_abandon_none (hkey : checkKey (p.key issue)) (hissue : issue ≠ [])
    (hfile : files (p.key issue) = none) :
    Files.run approval (p.abandonPendingClaimBase issue) files = (.ok (), files) := by
  have hload := interpret_loadCycle_none approval hkey hfile
  simp [Files.run, Provider.abandonPendingClaimBase, Provider.abandonCycle, Provider.load,
    Provider.loadForTransition, interpret_bind, interpret_require, interpret_withCycle, hkey,
    hissue, hload]

/-- Of the record that stands, abandoning runs its transaction. -/
lemma run_abandon_eq (hc : p.Owns issue c) :
    Files.run approval (p.abandonPendingClaimBase issue) files =
      (p.abandonCycle issue).interpret (Files.answer approval) files := by
  have hissue : issue ≠ [] := hc.issue ▸ (Cycle.validate_eq_none.1 hc.valid).named.1
  simp [Files.run, Provider.abandonPendingClaimBase, interpret_bind, interpret_require,
    interpret_withCycle approval hc.keyed, hissue]

/-- Abandoning a record of the legacy version is refused. -/
lemma run_abandon_legacy (hc : p.Owns issue c) (hversion : c.version = legacyCycleVersion)
    (hfile : files (p.key issue) = some c) :
    Files.run approval (p.abandonPendingClaimBase issue) files =
      (.error .claimTargetUnrecorded, files) := by
  have hload := interpret_load approval hc hfile
  rw [if_pos hversion] at hload
  simp [run_abandon_eq approval hc, Provider.abandonCycle, interpret_bind, hload]

/-- Abandoning a record of the current version rolls it back. -/
lemma run_abandon (hc : p.Owns issue c) (hversion : c.version = cycleVersion)
    (hfile : files (p.key issue) = some c) :
    Files.run approval (p.abandonPendingClaimBase issue) files =
      (.ok (), Function.update files (p.key issue) (rolledBack c)) := by
  have hvalid := Cycle.validate_eq_none.1 hc.valid
  have hcurrent : c.version ≠ legacyCycleVersion := by rw [hversion]; decide
  have hload := interpret_load approval hc hfile
  rw [if_neg hcurrent] at hload
  rw [run_abandon_eq approval hc, Provider.abandonCycle, rolledBack]
  by_cases hstate : c.state = .pending
  · by_cases hout : c.outgoingEpoch > 0
    · have hpin := Cycle.validate_eq_none.2 (hvalid.outgoingPin hversion hstate hout)
      have hkey : c.outgoingPin.key = p.key issue := hc.key
      have hsave : (saveCycle c.outgoingPin).interpret (Files.answer approval) files = _ :=
        interpret_saveCycle approval (hkey ▸ hc.keyed) hpin
      rw [hkey] at hsave
      simp [interpret_bind, hload, hstate, hout, hsave]
    · have hdelete : (deleteCycle (p.key issue)).interpret (Files.answer approval) files = _ :=
        interpret_deleteCycle approval hc.keyed
      simp [interpret_bind, hload, hstate, hout, hdelete]
  · have hsame : Function.update files (p.key issue) (some c) = files := by
      rw [← hfile, Function.update_eq_self]
    simp [interpret_bind, hload, hstate, hsame]

/-! ## Beginning and abandoning -/

lemma Cycle.Valid.reassigned {epoch : Int} (h : c.Valid) (hstate : c.state = .pinned)
    (hepoch : 0 < epoch) : (Provider.reassigned c epoch).Valid where
  version := .inl rfl
  legacy hlegacy := nomatch show cycleVersion = legacyCycleVersion from hlegacy
  named := h.named
  approval := h.approval
  epoch := hepoch
  pendingBase _ := rfl
  outgoing _ _ := h.pinnedBase hstate
  outgoingTarget _ _ := h.pinnedBase hstate
  pinnedBase := by simp [Provider.reassigned]
  pinnedTarget := by simp [Provider.reassigned]
  pinnedOutgoing := by simp [Provider.reassigned]
  state := .inl rfl

/-- A reassigned record came from the pin it was, of whichever version. -/
lemma outgoingPin_reassigned {epoch : Int} (h : c.Valid) (hstate : c.state = .pinned) :
    (Provider.reassigned c epoch).outgoingPin = c := by
  obtain ⟨hepoch, hbase, htarget⟩ := h.pinnedOutgoing hstate
  have hversion : (Provider.reassigned c epoch).outgoingPin.version = c.version := by
    by_cases hnil : c.targetBranch = []
    · have hlegacy : c.version = legacyCycleVersion := by
        by_contra hne
        exact h.pinnedTarget hstate hne hnil
      rw [hlegacy]
      exact if_pos hnil
    · rw [h.version.resolve_right fun hlegacy => hnil (h.legacy hlegacy).1]
      exact if_neg hnil
  refine Cycle.ext hversion rfl rfl rfl rfl rfl rfl rfl hstate.symm rfl rfl rfl hepoch.symm
    hbase.symm htarget.symm rfl

/-- Beginning another assignment of a pinned record under its approval. -/
lemma run_begin {epoch : Int} (hc : p.Owns issue c) (hstate : c.state = .pinned)
    (hfile : files (p.key issue) = some c) (hepoch : 0 < epoch) (hne : epoch ≠ c.epoch) :
    Files.run c.approval (p.beginClaimBase issue epoch) files =
      (.ok (), Function.update files (p.key issue) (some (Provider.reassigned c epoch))) := by
  have hvalid := Cycle.validate_eq_none.1 hc.valid
  have hissue : issue ≠ [] := hc.issue ▸ hvalid.named.1
  have hload := interpret_loadForTransition c.approval hc hfile
  have hnext := Cycle.validate_eq_none.2 (hvalid.reassigned hstate hepoch)
  have hkey : (Provider.reassigned c epoch).key = p.key issue := hc.key
  have hsave : (saveCycle (Provider.reassigned c epoch)).interpret (Files.answer c.approval) files =
      _ := interpret_saveCycle c.approval (hkey ▸ hc.keyed) hnext
  rw [hkey] at hsave
  have hanswer : (Files.answer c.approval files (.workspaceCycle issue)).1 = some c.approval := rfl
  have hsame : (Files.answer c.approval files (.workspaceCycle issue)).2 = files := rfl
  simp [Files.run, Provider.beginClaimBase, Provider.standingApproval, Provider.beginCycle,
    Provider.reassign, interpret_bind, interpret_require, interpret_withCycle c.approval hc.keyed,
    hanswer, hsame, hepoch, hissue, hvalid.approval, hload, hstate, hne.symm, hsave]

end Running

/-- Neither the record nor the pin it came from is one of the legacy version. -/
def Cycle.Current (c : Cycle) : Prop :=
  c.version = cycleVersion ∧
    (c.state = .pending → 0 < c.outgoingEpoch → c.outgoingTargetBranch ≠ [])

lemma rolledBack_owns {p : Provider} {issue} {c c' : Cycle} (hc : p.Owns issue c)
    (hcurrent : c.Current) (h : rolledBack c = some c') :
    p.Owns issue c' ∧ c'.version = cycleVersion ∧ rolledBack c' = some c' := by
  have hvalid := Cycle.validate_eq_none.1 hc.valid
  rw [rolledBack] at h
  split_ifs at h with hstate hout
  · cases h
    have hversion : c.outgoingPin.version = cycleVersion := by
      rw [Cycle.outgoingPin, if_neg (hcurrent.2 hstate hout)]
      exact hcurrent.1
    exact ⟨⟨Cycle.validate_eq_none.2 (hvalid.outgoingPin hcurrent.1 hstate hout), hc.key, hc.keyed,
      hc.issue, hc.repository⟩, hversion, by simp [rolledBack, Cycle.outgoingPin]⟩
  · cases h
    exact ⟨hc, hcurrent.1, by simp [rolledBack, hstate]⟩

/-- A record that is not current is refused, now or when abandoning is repeated. -/
lemma current_of_abandoned {p : Provider} {issue} {c : Cycle} {files : Files} {approval : Int}
    (hc : p.Owns issue c) (hfile : files (p.key issue) = some c)
    (hfirst : (Files.run approval (p.abandonPendingClaimBase issue) files).1 = .ok ())
    (hagain : (Files.run approval (p.abandonPendingClaimBase issue)
      (Function.update files (p.key issue) (rolledBack c))).1 = .ok ()) : c.Current := by
  have hvalid := Cycle.validate_eq_none.1 hc.valid
  have hversion : c.version = cycleVersion := by
    refine hvalid.version.resolve_right fun hlegacy => ?_
    rw [run_abandon_legacy approval hc hlegacy hfile] at hfirst
    cases hfirst
  refine ⟨hversion, fun hstate hout htarget => ?_⟩
  -- the pin that is restored is of the legacy version
  have hpin : c.outgoingPin.version = legacyCycleVersion := if_pos htarget
  have howns : p.Owns issue c.outgoingPin :=
    ⟨Cycle.validate_eq_none.2 (hvalid.outgoingPin hversion hstate hout), hc.key, hc.keyed,
      hc.issue, hc.repository⟩
  rw [rolledBack, if_pos hstate, if_pos hout,
    run_abandon_legacy approval howns hpin (Function.update_self ..)] at hagain
  cases hagain

/-- Abandoning a valid record succeeds, keeps a pin, turns a pending record into the pin it came
from or into none, and finds nothing to do when it is repeated, just if the record and that pin are
of the current version.  A pinned record of either version is restored, field for field,
by beginning another assignment under its approval and abandoning that. -/
theorem abandon_rollback (p : Provider) (issue : Text) (c : Cycle) (files : Files)
    (hc : p.Owns issue c) (hfile : files (p.key issue) = some c) :
    (∀ approval, (Files.run approval (p.abandonPendingClaimBase issue) files =
          (.ok (), Function.update files (p.key issue) (rolledBack c)) ∧
        Files.run approval (p.abandonPendingClaimBase issue)
            (Function.update files (p.key issue) (rolledBack c)) =
          (.ok (), Function.update files (p.key issue) (rolledBack c))) ↔ c.Current) ∧
      (c.state = .pinned → ∀ epoch, 0 < epoch → epoch ≠ c.epoch → ∃ begun,
        Files.run c.approval (p.beginClaimBase issue epoch) files = (.ok (), begun) ∧
          ∀ approval, Files.run approval (p.abandonPendingClaimBase issue) begun =
            (.ok (), files)) := by
  have hvalid := Cycle.validate_eq_none.1 hc.valid
  refine ⟨fun approval => ⟨fun h =>
      current_of_abandoned hc hfile (congrArg Prod.fst h.1) (congrArg Prod.fst h.2),
      fun hcurrent => ⟨run_abandon approval hc hcurrent.1 hfile, ?_⟩⟩,
    fun hstate epoch hepoch hne => ⟨_, run_begin hc hstate hfile hepoch hne, fun approval => ?_⟩⟩
  · cases hback : rolledBack c with
    | none =>
      exact run_abandon_none approval hc.keyed (hc.issue ▸ hvalid.named.1) (Function.update_self ..)
    | some c' =>
      obtain ⟨howns, hversion, hsame⟩ := rolledBack_owns hc hcurrent hback
      rw [run_abandon approval howns hversion (Function.update_self ..), hsame,
        Function.update_idem]
  · have howns : p.Owns issue (Provider.reassigned c epoch) :=
      ⟨Cycle.validate_eq_none.2 (hvalid.reassigned hstate hepoch), hc.key, hc.keyed, hc.issue,
        hc.repository⟩
    rw [run_abandon approval howns rfl (Function.update_self ..), Function.update_idem]
    have hout : (Provider.reassigned c epoch).outgoingEpoch > 0 := hvalid.epoch
    have hback : rolledBack (Provider.reassigned c epoch) = some c := by
      rw [rolledBack, if_pos (by rfl), if_pos hout, outgoingPin_reassigned hvalid hstate]
    rw [hback, ← hfile, Function.update_eq_self]

/-! ## Samples -/

namespace Sample

/-- A strategy that serves one repository and keys an issue by its name. -/
def provider : Provider where
  repository := txt "r"
  key := id

/-- The pinned record of an issue. -/
def pinnedRecord : Cycle where
  version := cycleVersion
  issue := txt "1"
  key := txt "1"
  repository := txt "r"
  branch := txt "ben/1"
  approval := 10
  cycleBaseSHA := txt "a"
  state := .pinned
  epoch := 7
  baseSHA := txt "a"
  targetBranch := txt "main"
  attempt := 2

/-- The same record as it was before targets were recorded. -/
def legacyRecord : Cycle := { pinnedRecord with version := legacyCycleVersion, targetBranch := [] }

/-- A store that holds one record. -/
def only (c : Cycle) : Files := Function.update (fun _ => none) (txt "1") (some c)

end Sample

open Ben.Remotews.Sample

lemma owns_pinnedRecord : provider.Owns (txt "1") pinnedRecord :=
  ⟨by decide, rfl, by decide, rfl, rfl⟩

lemma owns_legacyRecord : provider.Owns (txt "1") legacyRecord :=
  ⟨by decide, rfl, by decide, rfl, rfl⟩

/-- A record is abandoned, and a legacy one survives an assignment that is. -/
theorem abandon_rollback_pinned :
    (Files.run 10 (provider.abandonPendingClaimBase (txt "1")) (only pinnedRecord)).1 = .ok () ∧
      ∃ begun, Files.run 10 (provider.beginClaimBase (txt "1") 8) (only legacyRecord) =
          (.ok (), begun) ∧
        ∀ approval, Files.run approval (provider.abandonPendingClaimBase (txt "1")) begun =
          (.ok (), only legacyRecord) := by
  have hpinned := (abandon_rollback provider (txt "1") pinnedRecord (only pinnedRecord)
    owns_pinnedRecord (Function.update_self ..)).1 10 |>.2 ⟨rfl, fun h => nomatch h⟩
  have hlegacy := (abandon_rollback provider (txt "1") legacyRecord (only legacyRecord)
    owns_legacyRecord (Function.update_self ..)).2 rfl 8 (by decide) (by decide)
  exact ⟨congrArg Prod.fst hpinned.1, hlegacy⟩

/-- A legacy record is valid and cannot be abandoned; nor can the assignment that came from it be
abandoned twice. -/
theorem abandon_legacy_refused : provider.Owns (txt "1") legacyRecord ∧
      (Files.run 10 (provider.abandonPendingClaimBase (txt "1")) (only legacyRecord)).1 =
        .error .claimTargetUnrecorded ∧
      provider.Owns (txt "1") (Provider.reassigned legacyRecord 8) ∧
      Files.run 10 (provider.abandonPendingClaimBase (txt "1"))
          (only (Provider.reassigned legacyRecord 8)) = (.ok (), only legacyRecord) := by
  have howns : provider.Owns (txt "1") (Provider.reassigned legacyRecord 8) :=
    ⟨by decide, rfl, by decide, rfl, rfl⟩
  have hback : rolledBack (Provider.reassigned legacyRecord 8) = some legacyRecord := by
    decide
  have hrun : Files.run 10 (provider.abandonPendingClaimBase (txt "1"))
      (only (Provider.reassigned legacyRecord 8)) = _ :=
    run_abandon 10 howns rfl (Function.update_self ..)
  refine ⟨owns_legacyRecord, by decide, howns, ?_⟩
  rw [hrun, hback]
  exact congrArg _ (Function.update_idem ..)

end Ben.Remotews
