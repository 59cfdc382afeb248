import Ben.Remote.Sequencer

/-!
# Every run of the replay filter

The digests and the accepted ranges account for every number up to the mark, each once.  A page
keeps that by taking the numbers one by one, an accepted range by starting right after the mark.
Restoring replaces the account by one of the durable cursor, so it keeps the invariant exactly when
nothing was handed on beyond the cursor.  That a changed event is refused does not need the
invariant: a number at or below the mark has the digest of what was delivered under it, or none,
and without a digest it is refused as well.
-/

namespace Ben.Remote

open List
open Ben.Review (Text)

variable {s s' : Sequencer}

/-! ## Restoring -/

lemma checkGaps_ok {committed : Int} {before} {gaps : List EventGap}
    (h : checkGaps committed before gaps = .ok ()) :
    (∀ g ∈ gaps, g.valid ∧ ∀ b ∈ before, b.toSeq < g.fromSeq) ∧
      gaps.Pairwise fun g g' => g.toSeq < g'.fromSeq := by
  induction gaps generalizing before with
  | nil => simp
  | cons gap gaps ih =>
    have hgap : gap.valid ∧ (∀ b ∈ before, b.toSeq < gap.fromSeq) ∧
        checkGaps committed (some gap) gaps = .ok () := by
      cases before with
      | none =>
        rw [checkGaps] at h
        split_ifs at h with hvalid hpast
        exact ⟨by simpa using hvalid, by simp, h⟩
      | some b =>
        rw [checkGaps] at h
        split_ifs at h with hvalid hbefore hpast
        refine ⟨by simpa using hvalid, fun b' hb' => ?_, h⟩
        cases hb'
        exact Int.not_le.1 hbefore
    obtain ⟨hvalid, hbefore, hrest⟩ := hgap
    obtain ⟨hall, hpair⟩ := ih hrest
    -- what follows starts after this range, and so after the one before it
    have hafter : ∀ g ∈ gaps, gap.toSeq < g.fromSeq := fun g hg => (hall g hg).2 gap rfl
    refine ⟨fun g hg => ?_, pairwise_cons.2 ⟨hafter, hpair⟩⟩
    obtain rfl | hg := mem_cons.1 hg
    · exact ⟨hvalid, hbefore⟩
    · refine ⟨(hall g hg).1, fun b hb => ?_⟩
      have h1 := hbefore b hb
      have h2 := hafter g hg
      rw [EventGap.valid_iff] at hvalid
      omega

lemma within_append {gaps gaps'} {n : Int} :
    within (gaps ++ gaps') n = (within gaps n || within gaps' n) := any_append

@[simp] lemma within_singleton {gap : EventGap} {n : Int} : within [gap] n = gap.contains n := by
  simp [within]

/-- Part of a history was read: every number below the next one has a digest, or lies in a range
that was passed. -/
structure Restoring (gaps rest : List EventGap) (expected : Int) (restored : Digests) : Prop where
  pos : 1 ≤ expected
  split : ∃ passed, gaps = passed ++ rest ∧
    (∀ n, (restored n).isSome ↔ 1 ≤ n ∧ n < expected ∧ within passed n = false) ∧
    ∀ n, within passed n → 1 ≤ n ∧ n < expected

lemma Restoring.skip {gaps rest} {expected : Int} {restored}
    (h : Restoring gaps rest expected restored) (hvalid : ∀ g ∈ gaps, g.valid) :
    Restoring gaps (skipAccepted rest expected).1 (skipAccepted rest expected).2 restored := by
  induction rest generalizing expected with
  | nil => exact h
  | cons gap rest ih =>
    rw [skipAccepted]
    split
    · rename_i hfrom
      apply ih
      obtain ⟨passed, rfl, hsome, hpassed⟩ := h.split
      have hgap := hvalid gap (by simp)
      rw [EventGap.valid_iff] at hgap
      have hpos := h.pos
      refine ⟨by omega, passed ++ [gap], by simp, fun n => ?_, fun n hn => ?_⟩
      · rw [hsome, within_append, within_singleton, Bool.or_eq_false_iff]
        constructor
        · rintro ⟨h1, h2, h3⟩
          refine ⟨h1, by omega, h3, ?_⟩
          rw [← Bool.not_eq_true, EventGap.contains_iff]
          omega
        · rintro ⟨h1, h2, h3, h4⟩
          rw [← Bool.not_eq_true, EventGap.contains_iff] at h4
          exact ⟨h1, by omega, h3⟩
      · rw [within_append, within_singleton, Bool.or_eq_true, EventGap.contains_iff] at hn
        obtain hn | hn := hn
        · have := hpassed n hn
          omega
        · omega
    · exact h

lemma Restoring.event {gaps rest} {expected : Int} {restored}
    (h : Restoring gaps rest expected restored) (digest) :
    Restoring gaps rest (expected + 1) (Function.update restored expected (some digest)) := by
  obtain ⟨passed, hgaps, hsome, hpassed⟩ := h.split
  have hpos := h.pos
  refine ⟨by omega, passed, hgaps, fun n => ?_, fun n hn => ?_⟩
  · by_cases hn : n = expected
    · subst hn
      simp only [Function.update_self, Option.isSome_some, true_iff]
      refine ⟨hpos, by omega, ?_⟩
      rw [← Bool.not_eq_true]
      intro hin
      exact absurd (hpassed n hin).2 (lt_irrefl n)
    · rw [Function.update_of_ne hn, hsome]
      constructor
      · rintro ⟨h1, h2, h3⟩
        exact ⟨h1, by omega, h3⟩
      · rintro ⟨h1, h2, h3⟩
        exact ⟨h1, by omega, h3⟩
  · have := hpassed n hn
    omega

lemma le_skipAccepted {rest} {expected : Int} (hvalid : ∀ g ∈ rest, g.valid) :
    expected ≤ (skipAccepted rest expected).2 ∧ (skipAccepted rest expected).1 ⊆ rest := by
  induction rest generalizing expected with
  | nil => exact ⟨le_rfl, List.Subset.refl _⟩
  | cons gap rest ih =>
    rw [skipAccepted]
    split
    · rename_i hfrom
      have hgap := hvalid gap (.head _)
      rw [EventGap.valid_iff] at hgap
      obtain ⟨hle, hsub⟩ := @ih (gap.toSeq + 1) fun g hg => hvalid g (.tail gap hg)
      exact ⟨by omega, fun g hg => .tail gap (hsub hg)⟩
    · exact ⟨le_rfl, List.Subset.refl _⟩

section

variable [Hashing]

/-- Where the digests read off a history come from. -/
structure DigestsOf (history : List Envelope) (expected : Int) (restored restored' : Digests) :
    Prop where
  old : ∀ n < expected, restored' n = restored n
  known : ∀ e ∈ history, restored' e.seq = some (envelopeDigest e)
  source : ∀ n d, restored' n = some d → restored n = some d ∨
    ∃ e ∈ history, e.seq = n ∧ envelopeDigest e = d

lemma restoreFrom_ok {committed expected expected' : Int}
    {gaps rest rest' history restored restored'} (hvalid : ∀ g ∈ gaps, g.valid)
    (hinv : Restoring gaps rest expected restored)
    (h : restoreFrom committed history (rest, expected) restored =
      .ok (rest', expected', restored')) :
    Restoring gaps rest' expected' restored' ∧
      DigestsOf history expected restored restored' := by
  induction history generalizing rest expected restored with
  | nil =>
    simp only [restoreFrom, Except.ok.injEq, Prod.mk.injEq] at h
    obtain ⟨rfl, rfl, rfl⟩ := h
    exact ⟨hinv, ⟨fun _ _ => rfl, by simp, fun n d hd => .inl hd⟩⟩
  | cons env history ih =>
    rw [restoreFrom] at h
    split at h
    · cases h
    rename_i hseq
    rw [not_not] at hseq
    split at h
    · cases h
    have hnext := (hinv.event (envelopeDigest env)).skip hvalid
    rw [← hseq] at hnext h
    obtain ⟨hres, hdig⟩ := ih hnext h
    have hrest : ∀ g ∈ rest, g.valid := by
      obtain ⟨passed, rfl, -⟩ := hinv.split
      exact fun g hg => hvalid g (mem_append_right passed hg)
    have hle := (@le_skipAccepted rest (env.seq + 1) hrest).1
    refine ⟨hres, fun n hn => ?_, fun e he => ?_, fun n d hd => ?_⟩
    · rw [hdig.old n (by omega), Function.update_of_ne (by omega)]
    · obtain rfl | he := mem_cons.1 he
      · rw [hdig.old e.seq (by omega), Function.update_self]
      · exact hdig.known e he
    · obtain hd | ⟨e, he, hn, hd⟩ := hdig.source n d hd
      · by_cases hn : n = env.seq
        · subst hn
          rw [Function.update_self, Option.some.injEq] at hd
          exact .inr ⟨env, .head _, rfl, hd⟩
        · rw [Function.update_of_ne hn] at hd
          exact .inl hd
      · exact .inr ⟨e, .tail env he, hn, hd⟩

/-- A restored filter accounts for every number up to the durable cursor. -/
structure Restores (s : Sequencer) (history : List Envelope) (gaps : List EventGap)
    (s' : Sequencer) : Prop where
  admitted : s'.admitted = s.admitted
  committed : s'.committed = s.committed
  gaps_eq : s'.gaps = gaps
  valid : ∀ g ∈ gaps, g.valid
  ordered : gaps.Pairwise fun g g' => g.toSeq < g'.fromSeq
  remembered : ∀ n, (s'.digests n).isSome ↔ 1 ≤ n ∧ n ≤ s.committed ∧ within gaps n = false
  expired : ∀ n, within gaps n → 1 ≤ n ∧ n ≤ s.committed
  known : ∀ e ∈ history, s'.digests e.seq = some (envelopeDigest e)
  source : ∀ n d, s'.digests n = some d → ∃ e ∈ history, e.seq = n ∧ envelopeDigest e = d

lemma checkHistory_ok {history gaps restored} (h : s.checkHistory history gaps = .ok restored) :
    Restores s history gaps { s with digests := restored, gaps := gaps } := by
  rw [Sequencer.checkHistory] at h
  cases hgaps : checkGaps s.committed none gaps with
  | error e => simp [hgaps, bind, Except.bind] at h
  | ok u =>
    obtain ⟨hall, hpair⟩ := checkGaps_ok hgaps
    have hvalid : ∀ g ∈ gaps, g.valid := fun g hg => (hall g hg).1
    have hinit : Restoring gaps gaps 1 fun _ => none :=
      ⟨le_rfl, [], rfl, by simp; omega, by simp [within]⟩
    cases hread : restoreFrom s.committed history (skipAccepted gaps 1) fun _ => none with
    | error e => simp [hgaps, hread, bind, Except.bind] at h
    | ok r =>
      obtain ⟨rest, expected, restored'⟩ := r
      obtain ⟨hres, hdig⟩ := restoreFrom_ok hvalid (hinit.skip hvalid) hread
      simp only [hgaps, hread, bind, Except.bind] at h
      split at h
      · cases h
      split at h
      · cases h
      rename_i hends
      rw [not_not] at hends
      cases h
      obtain ⟨passed, hpassed, hsome, hin⟩ := hres.split
      rw [append_nil] at hpassed
      subst hpassed
      refine ⟨rfl, rfl, rfl, hvalid, hpair, fun n => ?_, fun n hn => ?_, hdig.known,
        fun n d hd => ?_⟩
      · rw [hsome, ← hends]
        constructor
        · rintro ⟨h1, h2, h3⟩
          exact ⟨h1, by omega, h3⟩
        · rintro ⟨h1, h2, h3⟩
          exact ⟨h1, by omega, h3⟩
      · have := hin n hn
        omega
      · exact (hdig.source n d hd).resolve_left (by simp)

lemma restore_ok {history gaps} (h : s.restore history gaps = (.ok (), s')) :
    Restores s history gaps s' := by
  rw [Sequencer.restore] at h
  split at h
  · cases h
  · rename_i restored hcheck
    simp only [Prod.mk.injEq, true_and] at h
    exact h ▸ checkHistory_ok hcheck

lemma restore_error {history gaps e} (h : s.restore history gaps = (.error e, s')) : s' = s := by
  rw [Sequencer.restore] at h
  split at h
  · simp only [Prod.mk.injEq] at h
    exact h.2.symm
  · cases h

/-! ## One call -/

/-- What one call can do to a filter. -/
inductive Moves (s : Sequencer) : Call → Sequencer → Prop
  | same (c : Call) : Moves s c s
  | admitted {batch fresh : List Envelope} {s' : Sequencer} (h : Admits s batch fresh s') :
    Moves s (.admitBatch batch) s'
  | committed {seq : Int} (hlt : s.committed < seq) (hle : seq ≤ s.admitted) (n : Int) :
    Moves s (.commit n) { s with committed := seq }
  | gap {gap : EventGap} (hvalid : gap.valid) (hfrom : gap.fromSeq = s.admitted + 1) :
    Moves s (.acceptGap gap) { s with gaps := s.gaps ++ [gap], admitted := gap.toSeq }
  | restored {history : List Envelope} {gaps : List EventGap} {s' : Sequencer}
    (hok : (s.restore history gaps).1.isOk) (h : Restores s history gaps s') :
    Moves s (.restore history gaps) s'

theorem moves_after (s : Sequencer) (c : Call) : Moves s c (s.after c) := by
  cases c with
  | admitBatch batch =>
    rw [Sequencer.after]
    rcases h : s.admitBatch batch with ⟨_ | fresh, s'⟩
    · rw [admit_error h]
      exact .same _
    · exact .admitted (admit_ok h)
  | commit seq =>
    rw [Sequencer.after, Sequencer.commit]
    split <;> split
    · exact .committed (by omega) le_rfl _
    · exact .same _
    · exact .committed (by omega) (by omega) _
    · exact .same _
  | acceptGap gap =>
    rw [Sequencer.after, Sequencer.acceptGap]
    split
    · exact .same _
    split
    · exact .same _
    · rename_i hvalid hfrom
      exact .gap (by simpa using hvalid) (not_not.1 hfrom)
  | restore history gaps =>
    rw [Sequencer.after]
    rcases h : s.restore history gaps with ⟨_ | _, s'⟩
    · rw [restore_error h]
      exact .same _
    · exact .restored (by rw [h]; rfl) (restore_ok h)

/-- The durable mark is never past the other one, and that one never falls. -/
lemma Moves.marks {c} (h : Moves s c s') (hle : s.committed ≤ s.admitted) :
    s'.committed ≤ s'.admitted ∧ s.admitted ≤ s'.admitted := by
  cases h with
  | same => exact ⟨hle, le_rfl⟩
  | admitted h =>
    rw [h.committed, h.admitted]
    omega
  | committed _ hle' => exact ⟨hle', le_rfl⟩
  | gap hvalid hfrom =>
    rw [EventGap.valid_iff] at hvalid
    dsimp only
    omega
  | restored _ h =>
    rw [h.committed, h.admitted]
    exact ⟨hle, le_rfl⟩

/-- A page that moves the mark moves it from a number that a log can have. -/
lemma Admits.nonneg {batch fresh} (h : Admits s batch fresh s') (hlt : s.admitted < s'.admitted) :
    0 ≤ s.admitted := by
  have hmark := h.admitted
  cases fresh with
  | nil =>
    rw [length_nil] at hmark
    omega
  | cons e fresh =>
    have hnext := h.part.follows.1
    have hpos := (h.known e (h.part.sublist.subset (.head _))).1
    omega

/-- The digests and the accepted ranges are a partition of the numbers up to the mark. -/
structure Partitions (s : Sequencer) : Prop where
  remembered : ∀ n, (s.digests n).isSome ↔ 1 ≤ n ∧ n ≤ s.admitted ∧ s.expired n = false
  expired : ∀ n, s.expired n → 1 ≤ n ∧ n ≤ s.admitted
  ordered : s.gaps.Pairwise fun g g' => g.toSeq < g'.fromSeq
  valid : ∀ g ∈ s.gaps, g.valid

/-- Restoring is called only when everything handed on is durable. -/
def Settled (s : Sequencer) : Call → Prop
  | .restore _ _ => s.admitted = s.committed
  | _ => True

lemma Restores.partitions {history gaps} (h : Restores s history gaps s')
    (hsettled : s.admitted = s.committed) : Partitions s' := by
  have hmarks : s'.admitted = s.committed := h.admitted.trans hsettled
  refine ⟨fun n => ?_, fun n hn => ?_, h.gaps_eq ▸ h.ordered, h.gaps_eq ▸ h.valid⟩
  · rw [h.remembered, Sequencer.expired, h.gaps_eq, hmarks]
  · rw [Sequencer.expired, h.gaps_eq] at hn
    rw [hmarks]
    exact h.expired n hn

lemma Moves.partitions {c} (h : Moves s c s') (hinv : Partitions s) (hsettled : Settled s c) :
    Partitions s' := by
  cases h with
  | same => exact hinv
  | admitted h =>
    have hexp (n : Int) : s'.expired n = s.expired n := by
      rw [Sequencer.expired, Sequencer.expired, h.gaps]
    have hle := h.admitted
    refine ⟨fun n => ?_, fun n hn => ?_, h.gaps ▸ hinv.ordered, h.gaps ▸ hinv.valid⟩
    · rw [hexp]
      by_cases hn : n ≤ s.admitted
      · rw [h.old n hn, hinv.remembered]
        constructor
        · rintro ⟨h1, -, h3⟩
          exact ⟨h1, by omega, h3⟩
        · rintro ⟨h1, -, h3⟩
          exact ⟨h1, hn, h3⟩
      · have hfree : s.expired n = false := by
          rw [← Bool.not_eq_true]
          exact fun hin => hn (hinv.expired n hin).2
        rw [h.new n (by omega), hinv.remembered, hfree]
        constructor
        · rintro (h1 | h1)
          · have := h.nonneg (by omega)
            exact ⟨by omega, h1, rfl⟩
          · exact absurd h1.2.1 hn
        · rintro ⟨-, h2, -⟩
          exact .inl h2
    · rw [hexp] at hn
      have := hinv.expired n hn
      omega
  | committed => exact ⟨hinv.remembered, hinv.expired, hinv.ordered, hinv.valid⟩
  | @gap gap hvalid hfrom =>
    have hgap := EventGap.valid_iff.1 hvalid
    refine ⟨fun n => ?_, fun n hn => ?_, ?_, ?_⟩
    · rw [hinv.remembered]
      simp only [Sequencer.expired, within_append, within_singleton, Bool.or_eq_false_iff]
      constructor
      · rintro ⟨h1, h2, h3⟩
        refine ⟨h1, by omega, h3, ?_⟩
        rw [← Bool.not_eq_true, EventGap.contains_iff]
        omega
      · rintro ⟨h1, h2, h3, h4⟩
        rw [← Bool.not_eq_true, EventGap.contains_iff] at h4
        exact ⟨h1, by omega, h3⟩
    · rw [Sequencer.expired, within_append, within_singleton, Bool.or_eq_true,
        EventGap.contains_iff] at hn
      dsimp only
      obtain hn | hn := hn
      · have := hinv.expired n hn
        omega
      · omega
    · rw [pairwise_append]
      refine ⟨hinv.ordered, by simp, fun g hg g' hg' => ?_⟩
      obtain rfl := mem_singleton.1 hg'
      -- the end of an accepted range is itself accounted for, so it is at or below the mark
      have hv := EventGap.valid_iff.1 (hinv.valid g hg)
      have hend : s.expired g.toSeq := any_eq_true.2 ⟨g, hg, EventGap.contains_iff.2 ⟨hv.2, le_rfl⟩⟩
      have := (hinv.expired _ hend).2
      omega
    · exact forall_mem_append.2 ⟨hinv.valid, forall_mem_singleton.2 hvalid⟩
  | restored _ h => exact h.partitions hsettled

/-! ## Delivered events -/

/-- What is remembered under the number of an event is that event, or nothing. -/
def Recalls (s : Sequencer) (e : Envelope) : Prop :=
  e.seq ≤ s.admitted ∧ ∀ d, s.digests e.seq = some d → d = envelopeDigest e

/-- A history that is restored does not tell another story about an event. -/
def Truthful (e : Envelope) (s : Sequencer) : Call → Prop
  | .restore history gaps =>
    (s.restore history gaps).1.isOk → ∀ e' ∈ history, e'.seq = e.seq → e'.SameContent e
  | _ => True

/-- A call that was not refused delivered the event, in a page or in a history. -/
def Delivers (s : Sequencer) (e : Envelope) : Call → Prop
  | .admitBatch batch => e ∈ batch ∧ (s.admitBatch batch).1.isOk
  | .restore history gaps => e ∈ history ∧ (s.restore history gaps).1.isOk
  | _ => False

lemma Delivers.recalls {c e} (h : Delivers s e c) (hle : s.committed ≤ s.admitted) :
    Recalls (s.after c) e := by
  cases c with
  | admitBatch batch =>
    obtain ⟨he, hok⟩ := h
    rw [Sequencer.after]
    rcases hadmitted : s.admitBatch batch with ⟨_ | fresh, s'⟩
    · simp [hadmitted, Except.isOk, Except.toBool] at hok
    · obtain ⟨-, hmark, hknown⟩ := (admit_ok hadmitted).known e he
      refine ⟨hmark, fun d hd => ?_⟩
      exact Option.some.inj (hd.symm.trans hknown)
  | restore history gaps =>
    obtain ⟨he, hok⟩ := h
    rw [Sequencer.after]
    rcases hrestore : s.restore history gaps with ⟨_ | _, s'⟩
    · simp [hrestore, Except.isOk, Except.toBool] at hok
    · have hres := restore_ok hrestore
      have hknown := hres.known e he
      refine ⟨?_, fun d hd => Option.some.inj (hd.symm.trans hknown)⟩
      have hrange := (hres.remembered e.seq).1 (by rw [hknown]; rfl)
      have hsame := hres.admitted
      dsimp only
      omega
  | commit seq => exact h.elim
  | acceptGap gap => exact h.elim

lemma Moves.recalls {c e} (h : Moves s c s') (hinv : Recalls s e) (htrue : Truthful e s c) :
    Recalls s' e := by
  obtain ⟨hle, hdigest⟩ := hinv
  cases h with
  | same => exact ⟨hle, hdigest⟩
  | admitted h =>
    refine ⟨by rw [h.admitted]; omega, fun d hd => ?_⟩
    rw [h.old e.seq hle] at hd
    exact hdigest d hd
  | committed => exact ⟨hle, hdigest⟩
  | gap hvalid hfrom =>
    rw [EventGap.valid_iff] at hvalid
    refine ⟨?_, hdigest⟩
    dsimp only
    omega
  | restored hok h =>
    refine ⟨by rw [h.admitted]; exact hle, fun d hd => ?_⟩
    obtain ⟨e', he', hseq, rfl⟩ := h.source e.seq d hd
    exact (htrue hok e' he' hseq).digest_eq

/-- A page with a changed event is refused. -/
lemma Recalls.refuses {e e' : Envelope} {batch} (h : Recalls s e) (he' : e' ∈ batch)
    (hseq : e'.seq = e.seq) (hdiffers : ¬ e'.SameContent e)
    (hcollide : ¬ Collide e'.bytes e.bytes) : ∃ err, s.admitBatch batch = (.error err, s) := by
  rcases hadmitted : s.admitBatch batch with ⟨err | fresh, s'⟩
  · exact ⟨err, by rw [admit_error hadmitted]⟩
  · have hok := admit_ok hadmitted
    have hknown := (hok.known e' he').2.2
    rw [hseq, hok.old e.seq h.1] at hknown
    exact ((sameContent_or_collide (h.2 _ hknown)).elim hdiffers hcollide).elim

/-! ## Every run -/

/-- The filter has an account of everything up to its cursor: it started from nothing, or a history
was restored. -/
def Accounted (cursor : Int) (calls : List Call) : Prop :=
  cursor ≤ 0 ∨ ∃ before history gaps after s, calls = before ++ .restore history gaps :: after ∧
    Runs.run Sequencer.step (newSequencer cursor) before = some s ∧
    (s.restore history gaps).1.isOk

/-- An event was delivered at some point, and no history restored since contradicts it. -/
def DeliveredIn (cursor : Int) (calls : List Call) (e : Envelope) : Prop :=
  ∃ before c after s, calls = before ++ c :: after ∧
    Runs.run Sequencer.step (newSequencer cursor) before = some s ∧ Delivers s e c ∧
    Runs.Along Sequencer.step (Truthful e) (s.after c) after

lemma committed_le_admitted {cursor : Int} {calls}
    (hrun : Runs.run Sequencer.step (newSequencer cursor) calls = some s) :
    s.committed ≤ s.admitted := by
  refine Runs.invariant (P := fun s => s.committed ≤ s.admitted) ?_ le_rfl
    (Runs.along_true _ calls) hrun
  rintro s c _ hle - hstep
  cases hstep
  exact ((moves_after s c).marks hle).1

lemma partitions_of_along {s0 calls} (hinit : Partitions s0)
    (hsettled : Runs.Along Sequencer.step Settled s0 calls)
    (hrun : Runs.run Sequencer.step s0 calls = some s) : Partitions s := by
  refine Runs.invariant ?_ hinit hsettled hrun
  rintro s c _ hinv hc hstep
  cases hstep
  exact (moves_after s c).partitions hinv hc

omit [Hashing] in
lemma partitions_new {cursor : Int} (h : cursor ≤ 0) : Partitions (newSequencer cursor) := by
  refine ⟨fun n => ?_, fun n hn => ?_, List.Pairwise.nil, by simp [newSequencer]⟩
  · simp only [newSequencer, Option.isSome_none, Bool.false_eq_true, false_iff]
    omega
  · simp [newSequencer, Sequencer.expired, within] at hn

/-- The run up to a call, the call, and the rest of the run. -/
lemma run_split {s0 s1 : Sequencer} {before after c}
    (hbefore : Runs.run Sequencer.step s0 before = some s1)
    (hrun : Runs.run Sequencer.step s0 (before ++ c :: after) = some s) :
    Runs.run Sequencer.step (s1.after c) after = some s := by
  rw [Runs.run_append, hbefore] at hrun
  exact hrun

lemma Accounted.partitions {cursor : Int} {calls} (h : Accounted cursor calls)
    (hsettled : Runs.Along Sequencer.step Settled (newSequencer cursor) calls)
    (hrun : Runs.run Sequencer.step (newSequencer cursor) calls = some s) : Partitions s := by
  obtain hcursor | ⟨before, history, gaps, after, s1, rfl, hbefore, hok⟩ := h
  · exact partitions_of_along (partitions_new hcursor) hsettled hrun
  · obtain ⟨hc, hafter⟩ := hsettled.append_right hbefore
    refine partitions_of_along ?_ (hafter _ rfl) (run_split hbefore hrun)
    rw [Sequencer.after]
    rcases hrestore : s1.restore history gaps with ⟨_ | _, s2⟩
    · simp [hrestore, Except.isOk, Except.toBool] at hok
    · exact (restore_ok hrestore).partitions hc

lemma DeliveredIn.recalls {cursor : Int} {calls e} (h : DeliveredIn cursor calls e)
    (hrun : Runs.run Sequencer.step (newSequencer cursor) calls = some s) : Recalls s e := by
  obtain ⟨before, c, after, s1, rfl, hbefore, hdelivers, htrue⟩ := h
  have hfirst := hdelivers.recalls (committed_le_admitted hbefore)
  refine Runs.invariant (P := fun s => Recalls s e) ?_ hfirst htrue (run_split hbefore hrun)
  rintro s c _ hinv hc hstep
  cases hstep
  exact (moves_after s c).recalls hinv hc

/-- What holds of the filter after every run of calls.  The account of all numbers up to the mark
asks that a history is restored before anything is handed on beyond the cursor. -/
theorem replay_filter {cursor : Int} {calls : List Call} {s : Sequencer}
    (hrun : Runs.run Sequencer.step (newSequencer cursor) calls = some s) :
    s.committed ≤ s.admitted ∧
    (Runs.Along Sequencer.step Settled (newSequencer cursor) calls → Accounted cursor calls →
      Partitions s) ∧
    (∀ batch err s', s.admitBatch batch = (.error err, s') → s' = s) ∧
    (∀ batch fresh s', s.admitBatch batch = (.ok fresh, s') →
      FreshPart s.admitted batch fresh ∧ s'.admitted = s.admitted + fresh.length) ∧
    (∀ batch, ∀ e ∈ batch, ∀ e' ∈ batch, e'.seq = e.seq → ¬ e'.SameContent e →
      ¬ Collide e'.bytes e.bytes → ∃ err, s.admitBatch batch = (.error err, s)) ∧
    ∀ e, DeliveredIn cursor calls e → ∀ batch, ∀ e' ∈ batch, e'.seq = e.seq →
      ¬ e'.SameContent e → ¬ Collide e'.bytes e.bytes →
      ∃ err, s.admitBatch batch = (.error err, s) := by
  refine ⟨committed_le_admitted hrun, fun hsettled haccount => haccount.partitions hsettled hrun,
    fun _ _ _ => admit_error, fun _ _ _ h => ⟨(admit_ok h).part, (admit_ok h).admitted⟩,
    fun batch e he e' he' hseq hdiffers hcollide => ?_,
    fun e he batch e' he' hseq hdiffers hcollide =>
      (he.recalls hrun).refuses he' hseq hdiffers hcollide⟩
  rcases hadmitted : s.admitBatch batch with ⟨err | fresh, s'⟩
  · exact ⟨err, by rw [admit_error hadmitted]⟩
  · have hknown := (admit_ok hadmitted).known
    have hsame : envelopeDigest e' = envelopeDigest e := by
      have h1 := (hknown e he).2.2
      have h2 := (hknown e' he').2.2
      rw [hseq, h1, Option.some.injEq] at h2
      exact h2.symm
    exact ((sameContent_or_collide hsame).elim hdiffers hcollide).elim

end

/-! ## Samples -/

namespace Sample

/-- A hash without collisions. -/
scoped instance hashing : Hashing := ⟨id⟩

/-- A piece of output with a number. -/
def output (seq : Int) (payload : Text) : Envelope := ⟨seq, .stdout, payload, false⟩

/-- Two events, a lost range, and the history of both restored. -/
def calls : List Call :=
  [.admitBatch [output 1 [97], output 2 [98]], .commit 2, .acceptGap ⟨3, 4⟩, .commit 4,
    .restore [output 1 [97], output 2 [98]] [⟨3, 4⟩]]

/-- The filter after them. -/
def reached : Sequencer := calls.foldl Sequencer.after (newSequencer 0)

end Sample

open Ben.Remote.Sample

theorem replay_filter_overlap : Partitions reached ∧
      ∃ err, reached.admitBatch [output 1 [97], output 2 [99]] =
        (.error err, reached) := by
  have hrun : Runs.run Sequencer.step (newSequencer 0) calls = some reached := rfl
  have hsettled : Runs.Along Sequencer.step Settled (newSequencer 0) calls := by
    refine ⟨trivial, fun _ h1 => ⟨trivial, fun _ h2 => ⟨trivial, fun _ h3 => ⟨trivial,
      fun _ h4 => ⟨?_, fun _ _ => trivial⟩⟩⟩⟩⟩
    cases h1
    cases h2
    cases h3
    cases h4
    rfl
  have hdelivered : DeliveredIn 0 calls (output 2 [98]) := by
    refine ⟨[], _, calls.tail, _, rfl, rfl, ⟨by simp [output], rfl⟩, ?_⟩
    refine ⟨trivial, fun _ _ => ⟨trivial, fun _ _ => ⟨trivial, fun _ _ => ⟨?_, fun _ _ =>
      trivial⟩⟩⟩⟩
    simp [Truthful, output, Envelope.SameContent]
  refine ⟨(replay_filter hrun).2.1 hsettled (.inl le_rfl), ?_⟩
  refine (replay_filter hrun).2.2.2.2.2 _ hdelivered _ (output 2 [99]) (by simp) rfl ?_ ?_
  · simp [Envelope.SameContent, output]
  · exact fun h => h.1 h.2

/-- Restoring the durable cursor over an event that was handed on and not committed forgets it; a
filter at a cursor without a history has no account at all; and a history that was rewritten lets
the rewritten event pass. -/
theorem restore_forgets : (∃ s, Runs.run Sequencer.step (newSequencer 0)
        [.admitBatch [output 1 [97]], .restore [] []] = some s ∧ ¬ Partitions s) ∧
    ¬ Partitions (newSequencer 1) ∧
    ∃ s, Runs.run Sequencer.step (newSequencer 0)
        [.admitBatch [output 1 [97]], .commit 1, .restore [output 1 [98]] []] = some s ∧
      (s.admitBatch [output 1 [98]]).1.isOk := by
  refine ⟨⟨_, rfl, fun h => ?_⟩, fun h => ?_, ⟨_, rfl, rfl⟩⟩
  · exact absurd ((h.remembered 1).2 (by decide)) (by decide)
  · exact absurd ((h.remembered 1).2 (by decide)) (by decide)

end Ben.Remote
