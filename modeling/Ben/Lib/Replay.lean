import Mathlib.Data.List.Basic

/-!
# Folds over a log, read at one of its entries

A reader of a log often wants the state a fold had reached at the one entry a test picks out.
`stateAt` computes it in one pass over the whole log and gives up where the test picks two;
`At` is the split of the log it stands for.  The split is unique (`At.eq_of_eq`), so it does not
depend on what is appended (`At.append`).  `best` keeps the entry no other one is better than.
-/

namespace Replay

open List

variable {α β : Type*} {test : α → Bool} {log before after : List α} {x : α}

/-- The entry `x` is the only one of the log that passes the test. -/
structure At (test : α → Bool) (log before : List α) (x : α) (after : List α) : Prop where
  eq : log = before ++ x :: after
  pass : test x = true
  unique : ∀ y ∈ before ++ after, test y = false

section

variable (h : At test log before x after)

include h

lemma At.mem : x ∈ log := by
  rw [h.eq]
  exact mem_append_right _ (.head _)

/-- There is one split only. -/
lemma At.eq_of_eq {b a : List α} {y : α} (heq : log = b ++ y :: a) (hy : test y) :
    b = before ∧ y = x ∧ a = after := by
  obtain ⟨hlog, -, hunique⟩ := h
  rw [hlog] at heq
  clear hlog
  induction before generalizing b with
  | nil =>
    cases b with
    | nil =>
      rw [nil_append, nil_append, List.cons.injEq] at heq
      exact ⟨rfl, heq.1.symm, heq.2.symm⟩
    | cons c b =>
      rw [nil_append, cons_append, List.cons.injEq] at heq
      have hmem : y ∈ [] ++ after := by
        rw [nil_append, heq.2]
        exact mem_append_right _ (.head _)
      rw [hunique y hmem] at hy
      cases hy
  | cons c before ih =>
    cases b with
    | nil =>
      rw [nil_append, cons_append, List.cons.injEq] at heq
      rw [← heq.1, hunique c (by simp)] at hy
      cases hy
    | cons d b =>
      rw [cons_append, cons_append, List.cons.injEq] at heq
      obtain ⟨rfl, rfl, rfl⟩ := ih heq.2 fun z hz => hunique z (.tail c hz)
      exact ⟨by rw [heq.1], rfl, rfl⟩

/-- Appending entries that fail the test keeps the split. -/
lemma At.append {more : List α} (hmore : ∀ y ∈ more, test y = false) :
    At test (log ++ more) before x (after ++ more) := by
  refine ⟨by rw [h.eq, append_assoc, cons_append], h.pass, fun y hy => ?_⟩
  rw [← append_assoc] at hy
  obtain hy | hy := mem_append.1 hy
  · exact h.unique y hy
  · exact hmore y hy

/-- An entry up to another one is followed by everything that follows that one. -/
lemma At.after_subset {test' : α → Bool} {before' after' : List α} {x' : α}
    (h' : At test' log before' x' after') (hmem : x ∈ before' ++ [x']) : after' ⊆ after := by
  obtain ⟨b, a, hsplit⟩ := append_of_mem hmem
  have heq : log = b ++ x :: (a ++ after') := by
    rw [h'.eq, append_cons, hsplit, append_assoc, cons_append]
  obtain ⟨-, -, rfl⟩ := h.eq_of_eq heq h.pass
  exact subset_append_right a after'

end

/-- In a log without repeated keys every entry is the only one of its key. -/
lemma at_of_nodup {key : α → β} [DecidableEq β] {n : β} (hnodup : (log.map key).Nodup)
    (heq : log = before ++ x :: after) (hx : key x = n) :
    At (fun y => decide (key y = n)) log before x after := by
  refine ⟨heq, decide_eq_true hx, fun y hy => decide_eq_false ?_⟩
  rintro rfl
  rw [heq, map_append, map_cons, hx] at hnodup
  have hperm : (before.map key ++ key y :: after.map key).Perm
      (key y :: (before.map key ++ after.map key)) := perm_middle
  rw [hperm.nodup_iff, nodup_cons, ← map_append] at hnodup
  exact hnodup.1 (mem_map_of_mem hy)

/-- The state of a fold right after the one entry that passes the test. -/
def stateAt (test : α → Bool) (step : β → α → β) : List α → β → Option β → Option β
  | [], _, found => found
  | x :: log, state, found =>
    let state := step state x
    if test x then
      if found.isSome then none else stateAt test step log state (some state)
    else stateAt test step log state found

variable {step : β → α → β}

/-- Once the entry was found, another one spoils it. -/
lemma stateAt_some (state found : β) :
    stateAt test step log state (some found) = if log.any test then none else some found := by
  induction log generalizing state with
  | nil => rfl
  | cons x log ih =>
    rw [stateAt, any_cons]
    cases hx : test x with
    | true => simp
    | false => simp [ih]

/-- Entries that fail the test change nothing at the end of a log. -/
lemma stateAt_append {more : List α} (hmore : ∀ y ∈ more, test y = false) (state : β)
    (found : Option β) :
    stateAt test step (log ++ more) state found = stateAt test step log state found := by
  induction log generalizing state found with
  | nil =>
    rw [nil_append, stateAt]
    induction more generalizing state with
    | nil => rfl
    | cons y more ih =>
      rw [stateAt, if_neg (by simp [hmore y mem_cons_self])]
      exact ih (fun z hz => hmore z (.tail y hz)) _
  | cons x log ih =>
    rw [cons_append, stateAt, stateAt, ih, ih]

/-- The state that is found is the one of the log up to the entry. -/
lemma stateAt_eq_some_iff {state found : β} : stateAt test step log state none = some found ↔
      ∃ before x after, At test log before x after ∧
        (before ++ [x]).foldl step state = found := by
  induction log generalizing state with
  | nil =>
    simp only [stateAt, reduceCtorEq, false_iff, not_exists, not_and]
    rintro before x after ⟨heq, -, -⟩
    simp at heq
  | cons y log ih =>
    rw [stateAt]
    cases hy : test y with
    | true =>
      simp only [if_true, Option.isSome_none, Bool.false_eq_true, if_false]
      rw [stateAt_some]
      constructor
      · intro h
        split at h
        · cases h
        · rename_i hany
          rw [Option.some.injEq] at h
          refine ⟨[], y, log, ⟨rfl, hy, fun z hz => ?_⟩, h⟩
          rw [any_eq_true, not_exists] at hany
          simpa using fun hz' => hany z ⟨hz, hz'⟩
      · rintro ⟨before, x, after, hat, hfold⟩
        obtain ⟨rfl, rfl, rfl⟩ := hat.eq_of_eq (b := []) rfl hy
        rw [if_neg]
        · rw [← hfold]
          rfl
        · rw [any_eq_true]
          rintro ⟨z, hz, hz'⟩
          rw [hat.unique z hz] at hz'
          cases hz'
    | false =>
      simp only [Bool.false_eq_true, if_false]
      rw [ih]
      constructor
      · rintro ⟨before, x, after, ⟨rfl, hx, hunique⟩, hfold⟩
        refine ⟨y :: before, x, after, ⟨rfl, hx, fun z hz => ?_⟩, hfold⟩
        obtain rfl | hz := mem_cons.1 hz
        · exact hy
        · exact hunique z hz
      · rintro ⟨before, x, after, ⟨heq, hx, hunique⟩, hfold⟩
        cases before with
        | nil =>
          rw [nil_append, List.cons.injEq] at heq
          rw [heq.1, hx] at hy
          cases hy
        | cons z before =>
          rw [cons_append, List.cons.injEq] at heq
          obtain ⟨rfl, rfl⟩ := heq
          exact ⟨before, x, after, ⟨rfl, hx, fun w hw => hunique w (.tail y hw)⟩, hfold⟩

/-! ## The best entry -/

/-- The better of an entry and the best one so far. -/
def pick (better : α → α → Bool) : Option α → α → Option α
  | none, x => some x
  | some l, x => if better x l then some x else some l

/-- The entry no other one is better than, the first of them if there are several. -/
def best (better : α → α → Bool) (log : List α) : Option α := log.foldl (pick better) none

/-- The relation is a strict order whose incomparability is transitive. -/
structure Better (better : α → α → Bool) : Prop where
  irrefl : ∀ x, better x x = false
  trans : ∀ x y z, better x y = true → better y z = true → better x z = true
  weak : ∀ x y z, better x y = false → better y z = false → better x z = false

variable {better : α → α → Bool} {q : α}

lemma Better.asymm (h : Better better) {x y : α} (hxy : better x y) : better y x = false := by
  by_contra hyx
  rw [Bool.not_eq_false] at hyx
  exact Bool.noConfusion ((h.irrefl x).symm.trans (h.trans x y x hxy hyx))

/-- What is kept was seen, and nothing that was seen is better. -/
lemma foldl_pick_spec (hbetter : Better better) {kept : Option α}
    (h : log.foldl (pick better) kept = some q) :
    (kept = some q ∨ q ∈ log) ∧ (∀ x ∈ log, better x q = false) ∧
      ∀ x, kept = some x → better x q = false := by
  induction log generalizing kept with
  | nil =>
    rw [foldl_nil] at h
    refine ⟨.inl h, by simp, fun x hx => ?_⟩
    obtain rfl := Option.some.inj (hx.symm.trans h)
    exact hbetter.irrefl x
  | cons y log ih =>
    rw [foldl_cons] at h
    obtain ⟨hfrom, hall, hkept⟩ := ih h
    -- whichever of the two was picked, neither is better than the result
    have hpicked : (pick better kept y = some y ∨ pick better kept y = kept) ∧
        better y q = false ∧ ∀ x, kept = some x → better x q = false := by
      cases kept with
      | none => exact ⟨.inl rfl, hkept y rfl, by simp⟩
      | some l =>
        rw [pick] at hkept ⊢
        by_cases hyl : better y l
        · rw [if_pos hyl] at hkept ⊢
          refine ⟨.inl rfl, hkept y rfl, fun x hx => ?_⟩
          obtain rfl := Option.some.inj hx
          exact hbetter.weak l y q (hbetter.asymm hyl) (hkept y rfl)
        · rw [if_neg hyl] at hkept ⊢
          refine ⟨.inr rfl, hbetter.weak y l q (eq_false_of_ne_true hyl) (hkept l rfl),
            fun x hx => ?_⟩
          obtain rfl := Option.some.inj hx
          exact hkept l rfl
    refine ⟨?_, fun x hx => ?_, hpicked.2.2⟩
    · obtain hfrom | hfrom := hfrom
      · obtain hy | hsame := hpicked.1
        · rw [hy, Option.some.injEq] at hfrom
          exact .inr (hfrom ▸ (.head _))
        · exact .inl (hsame ▸ hfrom)
      · exact .inr (.tail y hfrom)
    · obtain rfl | hx := mem_cons.1 hx
      · exact hpicked.2.1
      · exact hall x hx

lemma best_spec (hbetter : Better better) (h : best better log = some q) :
    q ∈ log ∧ ∀ x ∈ log, better x q = false := by
  obtain ⟨hfrom, hall, -⟩ := foldl_pick_spec hbetter h
  exact ⟨hfrom.resolve_left (by simp), hall⟩

/-- A log with an entry has a best one. -/
lemma best_isSome (hx : x ∈ log) : (best better log).isSome := by
  have hkept (y : α) (log : List α) : (log.foldl (pick better) (some y)).isSome := by
    induction log generalizing y with
    | nil => rfl
    | cons z log ih =>
      rw [foldl_cons, pick]
      split
      · exact ih z
      · exact ih y
  cases log with
  | nil => cases hx
  | cons y log => exact hkept y log

end Replay
