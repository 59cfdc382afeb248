import Ben.Orchestrator.AnswersVerify

/-!
# Tenures beginning and ending

A tenure begins when its record is put into the table and ends when the table no longer has it.
A record may only be taken out, or pushed out by another of its issue, when nothing of it is
running; the answer to a claim and the claiming of candidates are the two simplest cases.
-/

namespace Ben

open List

variable [Platform]

/-! ## Coming and going in the table -/

section

variable {m : Mode} {v : Tenure}

/-- A tenure the table may no longer have keeps its invariant if it was idle then. -/
lemma Sound.reattach (h : Sound m v) {A : Prop} (hA : A → v.attached)
    (hidle : v.attached → ¬ A → v.Idle) : Sound m { v with attached := A } := by
  by_cases hlost : v.attached ∧ ¬ A
  · exact h.detach (hidle hlost.1 hlost.2) hA
  · have hsame : A = v.attached :=
      propext ⟨hA, fun hatt => not_not.1 fun hn => hlost ⟨hatt, hn⟩⟩
    rw [hsame]
    exact h

/-- What was not there before is not there when less is in the table. -/
lemma Tenure.Blank.reattach (h : v.Blank) {A : Prop} (hA : A → v.attached) :
    Tenure.Blank { v with attached := A } :=
  { h with attached := fun ha => h.attached (hA ha) }

/-- More may come to be certified. -/
lemma Sound.certify (h : Sound m v) {C : String → Workspace → Prop}
    (hC : ∀ id ws, v.past.certified id ws → C id ws) :
    Sound m { v with past := { v.past with certified := C } } :=
  { h with
    published := fun hp => ⟨hC _ _ (h.published hp).1, (h.published hp).2⟩ }

end

namespace Orchestrator

variable {m : Mode} {o : Orchestrator} {t : Token}

/-- Either way of a branch keeps the invariant of all. -/
lemma keeps_ite {V} {o1 o2 : Orchestrator} {c : Prop} [Decidable c] (hpos : c → Keeps m V o1.view)
    (hneg : ¬ c → Keeps m V o2.view) :
    Keeps m V (if c then o1 else o2).view := by
  split
  · exact hpos ‹_›
  · exact hneg ‹_›

lemma keeps_guard {o' : Orchestrator} {c : Prop} [Decidable c] (h : Good m o.view)
    (hneg : ¬ c → Keeps m o.view o'.view) : Keeps m o.view (if c then o else o').view :=
  keeps_ite (fun _ => .refl h) hneg

/-- The table has at most one tenure under an issue. -/
lemma Has.unique {id t'} (h : o.Has id t) (h' : o.Has id t') : t = t' :=
  Option.some.inj (h.symm.trans h')

lemma mem_entries_of_has {id} (h : o.Has id t) : ⟨id, t⟩ ∈ o.records.entries :=
  AList.mem_lookup_iff.1 h

/-- Under its own issue, a tenure the table has is attached. -/
lemma attached_of_has (hgood : Good m o.view) {id} (h : o.Has id t) : (o.tenure t).attached := by
  have hid : (o.heap t).issue.identifier = id := hgood.keyed _ (mem_entries_of_has h)
  change o.Has (o.heap t).issue.identifier t
  rw [hid]
  exact h

lemma has_forget {id id'} : (o.forget id).Has id' t ↔ o.Has id' t ∧ id' ≠ id := by
  by_cases hid : id' = id
  · subst hid
    simp [Has, forget]
  · simp [Has, forget, AList.lookup_erase_ne hid, hid]

lemma tenure_forget (o : Orchestrator) (id t) : (o.forget id).tenure t =
      { o.tenure t with
        attached := (o.tenure t).attached ∧ (o.heap t).issue.identifier ≠ id } :=
  Tenure.ext rfl rfl rfl (propext has_forget) rfl rfl rfl

/-- Taking a record out of the table takes no slot. -/
lemma slots_forget_le (o : Orchestrator) (id) : (o.forget id).view.slots ≤ o.view.slots := by
  have hphase : ∀ t, ((o.forget id).view.tenure t).phase = (o.view.tenure t).phase := fun t => by
    rw [view_tenure, tenure_forget]
    rfl
  unfold View.slots
  simp only [hphase]
  exact (kerase_sublist _ _).countP_le

/-- Taking an idle record out of the table. -/
lemma keeps_forget (h : Good m o.view) (id) (hidle : ∀ t, o.Has id t → (o.tenure t).Idle) :
    Keeps m o.view (o.forget id).view := by
  have hsub : (o.records.erase id).entries.Sublist o.records.entries := kerase_sublist _ _
  refine ⟨⟨fun t => ?_, fun t ht => ?_, fun e he => ?_, fun e he => h.named e (hsub.mem he)⟩,
    fun _ => (Int.ofNat_le.2 (slots_forget_le o id)).trans (le_max_left _ _)⟩
  · rw [view_tenure, tenure_forget]
    refine (h.sound t).reattach And.left fun hatt hn => hidle t ?_
    have hid : (o.heap t).issue.identifier = id := not_not.1 fun hne => hn ⟨hatt, hne⟩
    exact hid ▸ hatt
  · rw [view_tenure, tenure_forget]
    exact (h.blank t ht).reattach And.left
  · rw [view_tenure, tenure_forget]
    exact h.keyed e (hsub.mem he)

/-- An idle tenure gives up its own record. -/
lemma keeps_forget_own (h : Good m o.view) (hatt : (o.tenure t).attached)
    (hidle : (o.tenure t).Idle) {id} (hid : (o.heap t).issue.identifier = id) :
    Keeps m o.view (o.forget id).view :=
  keeps_forget h _ fun _ hhas => Has.unique (o := o) hatt (hid ▸ hhas) ▸ hidle

/-- The token the next record gets. -/
abbrev fresh (o : Orchestrator) : Token := o.nextToken + 1

lemma has_adopt {r : Record} {id} (hne : t ≠ o.fresh) :
    (o.adopt r).Has id t ↔ o.Has id t ∧ id ≠ r.issue.identifier := by
  by_cases hid : id = r.issue.identifier
  · subst hid
    simp [Has, adopt, Ne.symm hne]
  · simp [Has, adopt, AList.lookup_insert_ne hid, hid]

/-- The tenures that were there before another record was put into the table. -/
lemma tenure_adopt_of_ne (o : Orchestrator) (r : Record) (hne : t ≠ o.fresh) :
    (o.adopt r).tenure t =
      { o.tenure t with
        attached := (o.tenure t).attached ∧
          (o.heap t).issue.identifier ≠ r.issue.identifier } := by
  have hheap : (o.adopt r).heap t = o.heap t := Function.update_of_ne hne _ _
  refine Tenure.ext (congrArg Record.phase hheap) rfl rfl ?_ ?_ ?_ rfl
  · change (o.adopt r).Has ((o.adopt r).heap t).issue.identifier t = _
    rw [hheap]
    exact propext (has_adopt hne)
  · change (((o.adopt r).heap t).issue.identifier ∈ o.sweepDisposing) = _
    rw [hheap]
    rfl
  · change ((∃ eff ∈ ((o.adopt r).heap t).owed, _) ∨ _) = _
    rw [hheap]
    rfl

/-- The tenure of a record that was put into the table. -/
lemma tenure_adopt_new (o : Orchestrator) (r : Record) (howed : r.owed = [])
    (hexits : ¬ (o.tenure o.fresh).exits) :
    (o.adopt r).tenure o.fresh =
      { o.tenure o.fresh with
        phase := r.phase
        attached := True
        reserved := r.issue.identifier ∈ o.sweepDisposing
        exits := False } := by
  have hheap : (o.adopt r).heap o.fresh = { r with token := o.fresh } := Function.update_self _ _ _
  have hatt : (o.adopt r).Has r.issue.identifier o.fresh := by simp [Has, adopt]
  have hexit : ¬ (o.adopt r).ExitOwed o.fresh := by
    rintro (⟨eff, heff, -⟩ | hjobs)
    · rw [hheap] at heff
      simp [howed] at heff
    · exact hexits (.inr hjobs)
  simp only [tenure, hheap, eq_true hatt, eq_false hexit]
  rfl

/-- What the table has after a record was put into it. -/
lemma mem_adopt {r : Record} {e : Sigma fun _ : String => Token}
    (he : e ∈ (o.adopt r).records.entries) :
    e = ⟨r.issue.identifier, o.fresh⟩ ∨
      e ∈ o.records.entries ∧ e.1 ≠ r.issue.identifier := by
  have he' : e ∈ (⟨r.issue.identifier, o.fresh⟩ : Sigma fun _ : String => Token) ::
      o.records.entries.kerase r.issue.identifier := he
  rcases mem_cons.1 he' with he' | he'
  · exact .inl he'
  · refine .inr ⟨(kerase_sublist _ _).mem he', fun hid => ?_⟩
    have hmem := mem_keys_of_mem he'
    rw [hid] at hmem
    exact notMem_keys_kerase r.issue.identifier o.records.nodupKeys hmem

/-- The table has no tenure that has not begun. -/
lemma ne_next_of_mem (h : Good m o.view) {e : Sigma fun _ : String => Token}
    (he : e ∈ o.records.entries) : e.2 ≠ o.fresh := fun heq => by
  refine (h.blank o.fresh (Nat.lt_succ_self _)).attached ?_
  exact attached_of_has h (heq ▸ AList.mem_lookup_iff.2 he)

/-- A record that was put into the table takes a slot only if it is bound to have an agent. -/
lemma slots_adopt_le (h : Good m o.view) {r : Record} (howed : r.owed = []) :
    (o.adopt r).view.slots ≤ o.view.slots + if r.phase.bound then 1 else 0 := by
  have hnew := tenure_adopt_new o r howed (h.blank _ (Nat.lt_succ_self _)).exits
  have hrest : (o.records.entries.kerase r.issue.identifier).countP
      (fun e => ((o.adopt r).view.tenure e.2).phase.bound) ≤ o.view.slots := by
    refine le_trans (countP_mono_left fun e he hb => ?_) (kerase_sublist _ _).countP_le
    have hne := ne_next_of_mem h ((kerase_sublist _ _).mem he)
    rw [view_tenure, tenure_adopt_of_ne o r hne] at hb
    exact hb
  change List.countP _ ((⟨r.issue.identifier, o.fresh⟩ :
    Sigma fun _ : String => Token) :: o.records.entries.kerase r.issue.identifier) ≤ _
  rw [countP_cons]
  refine Nat.add_le_add hrest (le_of_eq ?_)
  simp only [view_tenure, hnew]

/-- Putting a record of a new tenure into the table. -/
lemma keeps_adopt (h : Good m o.view) {r : Record} (hinit : r.phase.Initial) (howed : r.owed = [])
    (hname : r.issue.identifier ≠ "") (hidle : ∀ t, o.Has r.issue.identifier t → (o.tenure t).Idle)
    (hreserved : r.issue.identifier ∈ o.sweepDisposing → r.unclassified)
    (hdone : r.state = .done → r.workspace.claimEpoch = r.claimEpoch ∧ 0 < r.claimEpoch)
    (hslot : m.capped → r.phase.bound → (o.view.slots : Int) < m.cap) :
    Keeps m o.view (o.adopt r).view := by
  have hblank : (o.tenure o.fresh).Blank := h.blank _ (Nat.lt_succ_self _)
  have hnew := tenure_adopt_new o r howed hblank.exits
  refine ⟨⟨fun t => ?_, fun t ht => ?_, fun e he => ?_, fun e he => ?_⟩, fun hc => ?_⟩
  · by_cases ht : t = o.fresh
    · subst ht
      rw [view_tenure, hnew]
      exact hblank.begin hinit nofun (fun _ => hreserved) hdone (h.sound _).limits
    · rw [view_tenure, tenure_adopt_of_ne o r ht]
      refine (h.sound t).reattach And.left fun hatt hn => hidle t ?_
      have hid : (o.heap t).issue.identifier = r.issue.identifier :=
        not_not.1 fun hne => hn ⟨hatt, hne⟩
      exact hid ▸ hatt
  · have ht' : o.fresh < t := ht
    rw [view_tenure, tenure_adopt_of_ne o r (Nat.ne_of_gt ht')]
    exact (h.blank t (Nat.lt_of_succ_lt ht')).reattach And.left
  · rcases mem_adopt he with rfl | ⟨he, -⟩
    · rw [view_tenure, hnew]
      rfl
    · rw [view_tenure, tenure_adopt_of_ne o r (ne_next_of_mem h he)]
      exact h.keyed e he
  · rcases mem_adopt he with rfl | ⟨he, -⟩
    · exact hname
    · exact h.named e he
  · have hcount := slots_adopt_le h howed
    by_cases hb : r.phase.bound
    · have hfree := hslot hc hb
      simp only [hb, if_true] at hcount
      exact le_trans (by omega) (le_max_right _ _)
    · simp only [hb, if_false, Bool.false_eq_true, Nat.add_zero] at hcount
      exact (Int.ofNat_le.2 hcount).trans (le_max_left _ _)

lemma tenure_note_verifier (o : Orchestrator) (id ws verdict t) :
    (o.note (.verifier id ws verdict)).tenure t =
      { o.tenure t with
        past := { (o.tenure t).past with
          certified := fun id' ws' => Act.verifier id ws verdict = .verifier id' ws' .published ∨
            (o.tenure t).past.certified id' ws' } } := by
  simp only [tenure, note]
  rw [past_cons]
  simp [past, ExitOwed, Has]
  rfl

/-- An answer of the verifier is seen by every tenure and disturbs none. -/
lemma keeps_note_verifier (h : Good m o.view) (id ws verdict) :
    Keeps m o.view (o.note (.verifier id ws verdict)).view := by
  refine ⟨⟨fun t => ?_, fun t ht => ?_, fun e he => ?_, h.named⟩, fun _ => le_trans (le_of_eq ?_)
    (le_max_left _ _)⟩
  · rw [view_tenure, tenure_note_verifier]
    exact (h.sound t).certify fun _ _ => .inr
  · rw [view_tenure, tenure_note_verifier]
    exact { h.blank t ht with }
  · rw [view_tenure, tenure_note_verifier]
    exact h.keyed e he
  · simp only [View.slots, view_tenure, tenure_note_verifier]
    rfl

/-! ## Claims -/

/-- The record of a new claim. -/
lemma beginClaim_eq (o : Orchestrator) (issue) (cur : Snapshot) : ∃ r : Record, r.phase = ({
        issue := issue, pending := 1, attempt := 1, definition := cur.definition } :
          Record).phase ∧ r.owed = [] ∧ r.issue = issue ∧ o.beginClaim issue cur =
        (o.adopt r).spawn (.claim ((o.adopt r).tag o.fresh) issue) :=
  ⟨{ issue := issue, state := .queued, definition := cur.definition, attempt := 1
     daemonInstance := o.daemonInstance, pending := 1 }, rfl, rfl, rfl, rfl⟩

/-- Claiming a candidate for which nothing is running, while a slot is free. -/
lemma keeps_beginClaim (h : Good m o.view) (issue : Issue) (cur) (hname : issue.identifier ≠ "")
    (hidle : ∀ t, o.Has issue.identifier t → (o.tenure t).Idle)
    (hreserved : issue.identifier ∉ o.sweepDisposing)
    (hslot : m.capped → (o.view.slots : Int) < m.cap) :
    Keeps m o.view (o.beginClaim issue cur).view := by
  obtain ⟨r, hphase, howed, rfl, heq⟩ := beginClaim_eq o issue cur
  have hinit : r.phase.Initial := by
    rw [hphase]
    exact ⟨rfl, rfl, rfl, rfl, rfl, rfl, rfl, by simp [Record.phase], rfl, .inl rfl, nofun,
      rfl, ⟨le_rfl, zero_le_one⟩, rfl, rfl⟩
  have hstate : r.state = .queued := congrArg Phase.state hphase
  have hadopt := keeps_adopt h hinit howed hname hidle
    (fun hr => absurd hr hreserved) (fun hd => by simp [hstate] at hd)
    fun hc _ => hslot hc
  have hblank : (o.tenure o.fresh).Blank := h.blank _ (Nat.lt_succ_self _)
  have hnew := tenure_adopt_new o r howed hblank.exits
  rw [heq]
  generalize o.adopt r = o1 at hadopt hnew ⊢
  have hs : Sound m (o1.tenure o.fresh) := hadopt.good.sound _
  refine hadopt.trans (Moves.keeps (t := o.fresh) (.of_set (view_spawn_plain rfl rfl
    (fun _ _ => rfl) fun _ _ => rfl) ?_ rfl id) hadopt.good (hadopt.good.born ?_))
  · rw [hphase] at hnew
    refine hs.sendClaim ?_ ?_ ?_ ?_ ?_ ?_ ?_ ?_ <;> rw [hnew] <;> try rfl
    · exact (hblank.untouched _).claims
    · simp [hblank.awaited, Record.phase]
    · intro hm
      have hlimit := (m.rations hm).1
      simpa [Tenure.Spare, hblank.starts, Record.phase] using hlimit
  · rw [view_tenure, hnew]
    trivial

/-- Releasing an idle record's claim. -/
lemma moves_release (hs : Sound m (o.tenure t)) (hidle : (o.tenure t).Idle) (why) :
    Moves m t o.view (o.release t why).view := by
  obtain ⟨E, hview⟩ := view_release o t why
  exact .of_set hview (hs.leave.oweExit hidle rfl E) rfl id

lemma keeps_onClaimed (hgood : Good m o.view) (hatt : (o.tenure t).attached)
    (h : Sound m ((o.tenure t).sent .claim)) (verified : Bool) (err) :
    Keeps m o.view (o.onClaimed t verified err).view := by
  obtain ⟨hclaims, hstate, -, hepoch, hrec, hun⟩ := h.came_claim
  obtain ⟨hmoves, htenure⟩ := moves_modify (f := fun r => { r with pending := r.pending - 1 })
    (fun p => { p with pending := p.pending - 1 }) (h.came_awaited (by decide) rfl) id rfl
  unfold onClaimed
  dsimp only
  generalize o.modify t _ = o1 at hmoves htenure ⊢
  have hkeeps := hmoves.keeps hgood (hgood.born hatt)
  have hs : Sound m (o1.tenure t) := hmoves.sound
  have hstate1 : (o1.tenure t).phase.state = .queued := by
    rw [htenure]
    exact hstate
  have hidle : (o1.tenure t).Idle := hs.idle_of_state hstate1 rfl
  have hatt1 : (o1.tenure t).attached := by
    rw [htenure]
    exact hatt
  have hborn := hkeeps.good.born hatt1
  have hforget : Keeps m o1.view (o1.forget (o1.heap t).issue.identifier).view :=
    keeps_forget_own hkeeps.good hatt1 hidle rfl
  refine hkeeps.trans (keeps_ite (fun _ => (moves_finishIfRequested hs).keeps hkeeps.good hborn)
    fun _ => ?_)
  cases err with
  | some e =>
    exact keeps_ite (fun _ => hforget) fun _ => (moves_release hs hidle _).keeps hkeeps.good hborn
  | none =>
    refine keeps_ite (fun _ => hforget) fun _ => Moves.keeps (t := t) ?_ hkeeps.good hborn
    obtain ⟨hver, htenure2⟩ := moves_modify (o := o1) (t := t) (m := m)
      (f := fun r => { r with claimVerified := true })
      (fun p => { p with claimVerified := true })
      (hs.verifyClaim (by rw [htenure]; exact hclaims) (by rw [htenure]; exact hun)
        (by rw [htenure]; exact hepoch) (by rw [htenure]; exact fun hm => h.spare_of_claim hm))
      (fun _ => by
        have hrec1 : (o1.tenure t).phase.recovered = false := by
          rw [htenure]
          exact hrec
        simp [Phase.bound, hstate1, hrec1]) rfl
    refine hver.trans (moves_beginApproval hver.sound ?_)
    simp

end Orchestrator

end Ben
