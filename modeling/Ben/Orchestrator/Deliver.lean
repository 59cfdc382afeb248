import Ben.Orchestrator.Recovering

/-!
# Workers coming back

When a worker comes back it leaves the bag, and the record it was out for, if the table still has
that tenure and, where the attempt matters, still is at that attempt, is told.  What the record
may rely on is what the invariant says of a tenure with that worker out.
-/

namespace Ben

open List

/-- Taking out the first that is looked for leaves one less to count, if it was counted. -/
lemma countP_eq_eraseP {α : Type} {p q : α → Bool} {l : List α} {a : α} (h : l.find? q = some a) :
    l.countP p = (l.eraseP q).countP p + if p a then 1 else 0 := by
  induction l with
  | nil => cases h
  | cons b l ih =>
    rw [find?_cons] at h
    cases hq : q b with
    | true =>
      simp only [hq, Option.some.injEq] at h
      subst h
      simp [hq, countP_cons]
    | false =>
      simp only [hq] at h
      simp only [eraseP_cons, hq, countP_cons, ih h, cond_false]
      omega

variable [Platform]

/-- A change of one tenure that leaves its record alone, followed by sound work on it. -/
lemma Moves.after {m t} {V V' V'' : View} {v : Tenure} (heq : V' = V.set t v)
    (hphase : v.phase = (V.tenure t).phase) (h : Moves m t V' V'') : Moves m t V V'' := by
  subst heq
  have hslots : ((V.set t v).slots : Int) ≤ V.slots :=
    Int.ofNat_le.2 (View.slots_set_le fun hb => by rwa [← hphase])
  refine ⟨?_, h.sound, h.id.trans (by simp [hphase]), fun hc => ?_⟩
  · conv_lhs => rw [h.only, View.set_set]
  · exact (h.slots hc).trans (max_le (hslots.trans (le_max_left _ _)) (le_max_right _ _))

/-- A worker that is out for nothing, or for an attempt of another tenure. -/
def Worker.Elsewhere (w : Worker) (t : Token) : Prop :=
  ∀ d tag, w.duty = some (d, tag) → tag.token ≠ t

namespace Orchestrator

variable {m : Mode} {o : Orchestrator} {t : Token} {serial n : Nat} {w : Worker}

/-! ## Leaving the bag -/

/-- The worker that is out under a number. -/
abbrev found (o : Orchestrator) (serial : Nat) : Option (Nat × Worker) :=
  o.workers.find? fun e => e.1 == serial

variable {tag : Tag}

section

variable (hfind : o.found serial = some (n, w))

include hfind

lemma outstanding_dropWorker (t) :
    outstanding t o.workers = outstanding t ((n, w) :: (o.dropWorker serial).workers) := by
  simp only [outstanding, countP_cons]
  apply Out.ext <;> (try funext _) <;> (try funext _) <;> exact countP_eq_eraseP hfind

omit hfind in
lemma exitOwed_of_dropWorker (h : (o.dropWorker serial).ExitOwed t) : o.ExitOwed t :=
  h.imp id (Or.imp id fun ⟨e, he, hexits⟩ => ⟨e, mem_of_mem_eraseP he, hexits⟩)

lemma exitOwed_of_find (h : w.exits t) : o.ExitOwed t :=
  .inr (.inr ⟨_, mem_of_find?_eq_some hfind, h⟩)

omit hfind in
lemma tenure_dropWorker (o : Orchestrator) (serial : Nat) (t) : (o.dropWorker serial).tenure t =
      { o.tenure t with
        out := outstanding t (o.dropWorker serial).workers
        exits := (o.dropWorker serial).ExitOwed t } := rfl

/-- To a tenure it is not out for, the worker does not matter. -/
lemma sound_dropWorker_of_elsewhere (hs : Sound m (o.tenure t)) (hw : w.Elsewhere t) :
    Sound m ((o.dropWorker serial).tenure t) := by
  rw [tenure_dropWorker]
  have hout := outstanding_dropWorker hfind t
  rw [outstanding_cons_of_other _ _ hw] at hout
  rw [← hout]
  exact hs.exits_of_imp (exitOwed_of_dropWorker)

/-- To the tenure it is out for, the worker is one more than those that are left. -/
lemma sound_dropWorker_of_duty {d} (hduty : w.duty = some (d, tag))
    (hs : Sound m (o.tenure tag.token)) :
    Sound m { (o.dropWorker serial).tenure tag.token with
      out := ((o.dropWorker serial).tenure tag.token).out.add d tag.generation } := by
  have hout := outstanding_dropWorker hfind tag.token
  rw [outstanding_cons_of_duty _ _ hduty rfl] at hout
  have hsome : Sound m { o.tenure tag.token with
      out := (outstanding tag.token (o.dropWorker serial).workers).add d tag.generation } := by
    have hout' : (o.tenure tag.token).out = _ := hout
    refine hs.below ?_ fun _ hstarts => ?_
    · rw [hout']
      constructor <;> simp
      all_goals cases d <;> simp [Out.add]
    · rw [hout'] at hstarts
      exact hstarts
  exact hsome.exits_of_imp (exitOwed_of_dropWorker)

/-- A worker of the current attempt is not astray. -/
lemma not_stray_of_duty {d} (hduty : w.duty = some (d, tag)) (hs : Sound m (o.tenure tag.token)) :
    w.strayVerify (o.heap tag.token).workspace tag.token (o.heap tag.token).generation = false ∧
      w.strayRun (o.heap tag.token).issue.identifier tag.token
        (o.heap tag.token).generation = false := by
  have hout := outstanding_dropWorker hfind tag.token
  rw [outstanding_cons_of_duty _ _ hduty rfl] at hout
  have hverify := congrArg (fun out : Out => out.strayVerifies (o.heap tag.token).workspace
    (o.heap tag.token).generation) hout
  have hrun := congrArg (fun out : Out => out.strayRuns (o.heap tag.token).issue.identifier
    (o.heap tag.token).generation) hout
  have hstray := hs.stray
  change (outstanding tag.token o.workers).strayVerifies (o.heap tag.token).workspace
      (o.heap tag.token).generation = 0 ∧
    (outstanding tag.token o.workers).strayRuns (o.heap tag.token).issue.identifier
      (o.heap tag.token).generation = 0 at hstray
  dsimp only at hverify hrun
  rw [hstray.1] at hverify
  rw [hstray.2] at hrun
  constructor
  · cases hv : w.strayVerify (o.heap tag.token).workspace tag.token (o.heap tag.token).generation
    · rfl
    · simp [hv] at hverify
  · cases hr : w.strayRun (o.heap tag.token).issue.identifier tag.token
      (o.heap tag.token).generation
    · rfl
    · simp [hr] at hrun

/-- Any worker but a start leaves the bag without disturbing anything. -/
lemma keeps_dropWorker (h : Good m o.view) (hstart : ∀ tag, w.duty ≠ some (.start, tag)) :
    Keeps m o.view (o.dropWorker serial).view := by
  refine ⟨⟨fun t => ?_, fun t ht => ?_, h.keyed, h.named⟩, fun _ => le_max_left _ _⟩
  · by_cases hw : w.Elsewhere t
    · exact sound_dropWorker_of_elsewhere hfind (h.sound t) hw
    · obtain ⟨d, tag, hduty, rfl⟩ : ∃ d tag, w.duty = some (d, tag) ∧ tag.token = t := by
        simpa [Worker.Elsewhere] using hw
      exact (sound_dropWorker_of_duty hfind hduty (h.sound _)).came fun hd =>
        hstart tag (hd ▸ hduty)
  · have hblank := h.blank t ht
    have hbelow :
        (outstanding t (o.dropWorker serial).workers).Below (outstanding t o.workers) := by
      have hsub : (o.dropWorker serial).workers.Sublist o.workers := eraseP_sublist
      constructor <;> (try intro _) <;> (try intro _) <;> exact hsub.countP_le
    have hawaited := hbelow.awaited
    have hzero : (outstanding t o.workers).awaited = 0 := hblank.awaited
    exact { hblank with
      untouched := fun g => (hblank.untouched g).below hbelow
      awaited := by
        change (outstanding t (o.dropWorker serial).workers).awaited = 0
        omega
      exits := fun he => hblank.exits (exitOwed_of_dropWorker he) }

end

/-! ## Reaching the record -/

/-- A signal reaches its tenure, or nobody. -/
lemma keeps_forRecord {V} {attemptMatters : Bool}
    {f : Orchestrator → Token → Orchestrator} (h : Keeps m V o.view)
    (hf : o.Has tag.issue tag.token →
      (attemptMatters → tag.generation = (o.heap tag.token).generation) →
      Keeps m V (f o tag.token).view) : Keeps m V (o.forRecord tag attemptMatters f).view := by
  unfold forRecord
  cases hlookup : o.records.lookup tag.issue with
  | none => exact h
  | some t =>
    refine keeps_ite (fun _ => h) fun htok => ?_
    obtain rfl := not_not.1 htok
    refine keeps_ite (fun _ => h) fun hstale => hf hlookup fun hm => ?_
    simpa [hm] using hstale

/-- An answer for an attempt, other than a start's, reaches the record at that attempt. -/
lemma keeps_answer {d} (hfind : o.found serial = some (n, w))
    (hduty : w.duty = some (d, tag)) (hd : d ≠ .start) (h : Good m o.view) {o1 : Orchestrator}
    (hview : o1.view = (o.dropWorker serial).view) {f : Orchestrator → Token → Orchestrator}
    (hf : Good m o1.view → (o1.tenure tag.token).attached →
      Sound m ((o1.tenure tag.token).sent d) → Keeps m o1.view (f o1 tag.token).view) :
    Keeps m o.view (o1.forRecord tag true f).view := by
  have hdrop : Keeps m o.view o1.view := by
    rw [hview]
    exact keeps_dropWorker hfind h fun tag' hw =>
      hd (Prod.mk.inj (Option.some.inj (hduty.symm.trans hw))).1
  refine keeps_forRecord hdrop fun hhas hgen => hdrop.trans
    (hf hdrop.good (attached_of_has hdrop.good hhas) ?_)
  have hs := sound_dropWorker_of_duty hfind hduty (h.sound tag.token)
  rw [← tenure_of_view hview tag.token, hgen rfl] at hs
  exact hs

/-- The same where the record only changes itself. -/
lemma keeps_answer_moves {d} (hfind : o.found serial = some (n, w))
    (hduty : w.duty = some (d, tag)) (hd : d ≠ .start) (h : Good m o.view)
    {f : Orchestrator → Token → Orchestrator}
    (hf : Good m (o.dropWorker serial).view → ((o.dropWorker serial).tenure tag.token).attached →
      Sound m (((o.dropWorker serial).tenure tag.token).sent d) →
      Moves m tag.token (o.dropWorker serial).view (f (o.dropWorker serial) tag.token).view) :
    Keeps m o.view ((o.dropWorker serial).forRecord tag true f).view :=
  keeps_answer hfind hduty hd h rfl fun hgood hatt hs =>
    keeps_of_moves hgood hatt (hf hgood hatt hs)

/-! ## Starts -/

/-- What the history says of a start that came back. -/
lemma view_note_startAnswered (o : Orchestrator) (tag : Tag) (handle : Bool) :
    (o.note (.startAnswered tag handle)).view = o.view.update tag.token fun v =>
      { v with past := { v.past with
        live := if handle = false then v.past.live.filter (· != tag.generation)
          else v.past.live } } := by
  exact view_note_update (t := tag.token) (f := fun p => { p with
    live := if handle = false then p.live.filter (· != tag.generation) else p.live }) o
    (fun _ => rfl) (by rw [past_cons]; simp [past])

/-- A worker that is out for an attempt leaves a mark on its own tenure only. -/
lemma view_dropWorker_of_duty {d} (hfind : o.found serial = some (n, w))
    (hduty : w.duty = some (d, tag)) :
    (o.dropWorker serial).view = o.view.set tag.token
      { o.tenure tag.token with
        out := outstanding tag.token (o.dropWorker serial).workers } := by
  have hexits : ∀ t, ((o.dropWorker serial).ExitOwed t) = o.ExitOwed t := fun t => by
    have hw : w.exits t = false := by
      cases w <;> first | rfl | simp [Worker.duty] at hduty
    have hcount := countP_eq_eraseP (p := fun e : Nat × Worker => e.2.exits t) hfind
    simp only [hw, Bool.false_eq_true, if_false, Nat.add_zero] at hcount
    have hsame : (∃ e ∈ o.workers, e.2.exits t) ↔
        ∃ e ∈ (o.dropWorker serial).workers, e.2.exits t := by
      rw [← countP_pos_iff (p := fun e : Nat × Worker => e.2.exits t), hcount,
        countP_pos_iff (p := fun e : Nat × Worker => e.2.exits t)]
      rfl
    unfold ExitOwed
    rw [hsame]
    rfl
  refine view_eq_set rfl rfl ?_ fun t ht => ?_
  · rw [tenure_dropWorker, hexits]
    rfl
  · have hout := outstanding_dropWorker hfind t
    rw [outstanding_cons_of_other _ _ fun d' tag' hd' => by
      cases hduty.symm.trans hd'
      exact Ne.symm ht] at hout
    rw [tenure_dropWorker, hexits, ← hout]
    rfl

/-- A start that is out is of the current attempt of a tenure the table has. -/
lemma start_current {issue vars spec waits}
    (hfind : o.found serial = some (n, .start tag issue vars spec waits))
    (hs : Sound m (o.tenure tag.token)) :
    tag.generation = (o.heap tag.token).generation ∧ o.Has tag.issue tag.token := by
  have hout := outstanding_dropWorker hfind tag.token
  rw [outstanding_cons_of_duty (d := .start) _ _ rfl rfl] at hout
  have hpos : 0 < (o.tenure tag.token).out.starts tag.generation := by
    change 0 < (outstanding tag.token o.workers).starts tag.generation
    rw [hout]
    simp [Out.add]
  have hgen : tag.generation = (o.heap tag.token).generation := by
    by_contra hne
    exact absurd (hs.behind _ hne).2 hpos.ne'
  have hstray := (not_stray_of_duty hfind (d := .start) rfl hs).2
  have hissue : tag.issue = (o.heap tag.token).issue.identifier := by
    simpa [Worker.strayRun, hgen] using hstray
  refine ⟨hgen, ?_⟩
  rw [hissue]
  refine (hs.launching ?_).attached
  have hpos' : 0 < (o.tenure tag.token).out.starts (o.tenure tag.token).gen := by
    rw [hgen] at hpos
    exact hpos
  omega

/-- A start comes back, with a handle or with an error. -/
lemma keeps_startAnswered {issue vars spec waits}
    (hfind : o.found serial = some (n, .start tag issue vars spec waits))
    (h : Good m o.view) {handle : Bool} {err : Option Err} (hxor : handle = err.isNone) :
    Keeps m o.view (((o.dropWorker serial).note (.startAnswered tag handle)).forRecord tag true
      (·.onStarted · (if handle then some tag.generation else none) err)).view := by
  have hs := h.sound tag.token
  obtain ⟨hgen, hhas⟩ := start_current hfind hs
  obtain ⟨v, hview, hphase⟩ : ∃ v, ((o.dropWorker serial).note (.startAnswered tag handle)).view =
      o.view.set tag.token v ∧ v.phase = (o.view.tenure tag.token).phase := by
    rw [view_note_startAnswered, view_dropWorker_of_duty hfind (d := .start) rfl, View.update,
      View.set_set, View.set_tenure_self]
    exact ⟨_, rfl, rfl⟩
  have hsound := sound_dropWorker_of_duty hfind (d := .start) rfl hs
  have hthin := hsound.thin (l := if handle = false then
      (o.tenure tag.token).past.live.filter (· != tag.generation)
    else (o.tenure tag.token).past.live) (by
      split
      · exact fun g hg => mem_of_mem_filter hg
      · exact fun g hg => hg)
  have hlookup : ((o.dropWorker serial).note (.startAnswered tag handle)).records.lookup tag.issue =
      some tag.token := hhas
  have htenure := tenure_of_update (view_note_startAnswered (o.dropWorker serial) tag handle)
  have hheap : ((o.dropWorker serial).note (.startAnswered tag handle)).heap = o.heap := rfl
  unfold forRecord
  simp only [hlookup, hheap, hgen, ne_eq, not_true_eq_false, if_false, bne_self_eq_false,
    Bool.and_false, Bool.false_eq_true]
  refine Moves.keeps (t := tag.token) (.after hview hphase ?_) h (h.born (attached_of_has h hhas))
  generalize (o.dropWorker serial).note (.startAnswered tag handle) = o1 at htenure hheap ⊢
  have hs1 : Sound m ((o1.tenure tag.token).sent .start) := by
    have hgen1 : (o1.tenure tag.token).gen = tag.generation := by
      change (o1.heap tag.token).generation = _
      rw [hheap, hgen]
    rw [Tenure.sent, hgen1, htenure]
    exact hthin
  cases err with
  | none =>
    obtain rfl : handle := hxor
    rw [← hheap]
    exact moves_onStarted_some hs1
  | some e =>
    obtain rfl : handle = false := hxor
    refine moves_onStarted_none hs1 ?_ e
    change (o1.tenure tag.token).past.live = []
    rw [htenure]
    simp only [if_true]
    refine filter_eq_nil_iff.2 fun g hg => ?_
    have hlive : g = (o.heap tag.token).generation := hs.liveGen g hg
    simp [hlive, hgen]

/-! ## Probes and stops -/

/-- A tenure with a worker out has begun. -/
lemma born_of_duty {d} (hfind : o.found serial = some (n, w))
    (hduty : w.duty = some (d, tag)) (h : Good m o.view) : tag.token ≤ o.nextToken := by
  by_contra hlt
  have huntouched := (h.blank tag.token (not_le.1 hlt)).untouched tag.generation
  have hout := outstanding_dropWorker hfind tag.token
  rw [outstanding_cons_of_duty _ _ hduty rfl] at hout
  change (outstanding tag.token o.workers).Untouched tag.generation at huntouched
  rw [hout] at huntouched
  obtain ⟨h1, h2, h3, h4, h5, h6, h7, h8, h9, h10, h11, h12, h13, -, -⟩ := huntouched
  cases d <;> simp [Out.add] at *

/-- What the history says of a run that was found quiet. -/
lemma view_noteTermination (o : Orchestrator) (t handle termination) :
    (o.noteTermination t handle termination).view = o.view.update t fun v =>
      { v with past := { v.past with
        live := if termination = .confirmed then v.past.live.filter (· != handle)
          else v.past.live } } := by
  unfold noteTermination
  by_cases hconfirmed : termination = .confirmed
  · simp only [hconfirmed, if_true]
    exact view_note_update (t := t) (f := fun p => { p with live := p.live.filter (· != handle) })
      o (fun _ => rfl) (by rw [past_cons]; simp [past])
  · simp only [hconfirmed, if_false]
    exact (View.update_eq_self _ _ _ rfl).symm

/-- A probe or a stop comes back. -/
lemma keeps_terminated {d} {handle termination} (hfind : o.found serial = some (n, w))
    (hduty : w.duty = some (d, tag)) (hd : d ≠ .start)
    (hstray : ∀ id, w.strayRun id tag.token tag.generation = false → handle = tag.generation)
    (h : Good m o.view) {f : Orchestrator → Token → Orchestrator}
    (hf : ∀ o1 : Orchestrator, Sound m ((o1.tenure tag.token).sent d) →
      (termination = .confirmed → o1.Free tag.token) →
      Moves m tag.token o1.view (f o1 tag.token).view) :
    Keeps m o.view (((o.dropWorker serial).noteTermination tag.token handle termination).forRecord
      tag true f).view := by
  have hs := h.sound tag.token
  have hdrop : Keeps m o.view (o.dropWorker serial).view :=
    keeps_dropWorker hfind h fun tag' hw =>
      hd (Prod.mk.inj (Option.some.inj (hduty.symm.trans hw))).1
  have hview := view_noteTermination (o.dropWorker serial) tag.token handle termination
  have hsub : ∀ g ∈ (if termination = .confirmed then
      ((o.dropWorker serial).tenure tag.token).past.live.filter (· != handle)
      else ((o.dropWorker serial).tenure tag.token).past.live),
      g ∈ ((o.dropWorker serial).tenure tag.token).past.live := by
    split
    · exact fun g hg => mem_of_mem_filter hg
    · exact fun g hg => hg
  have hnoted := hdrop.trans (Moves.keeps (t := tag.token)
    (.of_set hview ((hdrop.good.sound tag.token).thin hsub) rfl id) hdrop.good
    (born_of_duty (o := o) hfind hduty h))
  have hsound := (sound_dropWorker_of_duty hfind hduty hs).thin hsub
  have htenure := tenure_of_update hview
  have hheap : (((o.dropWorker serial).noteTermination tag.token handle termination).heap
      tag.token).phase = (o.heap tag.token).phase := congrArg Tenure.phase htenure
  refine keeps_forRecord hnoted fun hhas hgen => hnoted.trans
    (keeps_of_moves hnoted.good (attached_of_has hnoted.good hhas) (hf _ ?_ ?_))
  · have hgen' : tag.generation =
        (((o.dropWorker serial).noteTermination tag.token handle termination).tenure
          tag.token).gen := hgen rfl
    rw [Tenure.sent, ← hgen', htenure]
    exact hsound
  · intro hconfirmed
    have hcurrent : (o.heap tag.token).generation = tag.generation :=
      (congrArg Phase.generation hheap).symm.trans (hgen rfl).symm
    have hhandle : handle = tag.generation := by
      have hrun := (not_stray_of_duty hfind hduty hs).2
      rw [hcurrent] at hrun
      exact hstray _ hrun
    change (((o.dropWorker serial).noteTermination tag.token handle termination).tenure
      tag.token).past.live = []
    rw [htenure]
    simp only [hconfirmed, if_true]
    refine filter_eq_nil_iff.2 fun g hg => ?_
    have hlive : g = (o.heap tag.token).generation := hs.liveGen g hg
    simp [hlive, hhandle, hcurrent]

end Orchestrator

end Ben
