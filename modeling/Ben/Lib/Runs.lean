import Mathlib.Data.List.Induction
import Mathlib.Tactic.Lemma
import Mathlib.Tactic.TypeStar

/-!
# Runs of a transition system

A system takes one input at a time and may refuse it.  A run is a list of inputs that are all
taken; a condition on single steps is lifted to runs by asking it of every step taken.
-/

namespace Runs

variable {σ ι : Type*} (step : σ → ι → Option σ)

/-- The state a list of inputs leads to, if each of them is taken. -/
def run : σ → List ι → Option σ
  | s, [] => some s
  | s, i :: is => (step s i).bind fun s' => run s' is

/-- Every step of the run meets a condition on the state before it and its input. -/
def Along (C : σ → ι → Prop) : σ → List ι → Prop
  | _, [] => True
  | s, i :: is => C s i ∧ ∀ s', step s i = some s' → Along C s' is

/-- A check of every step taken. -/
def check (c : σ → ι → Bool) : σ → List ι → Bool
  | _, [] => true
  | s, i :: is => c s i && (step s i).all fun s' => check c s' is

variable {step} {C D : σ → ι → Prop}

/-- A weaker condition holds along the same run. -/
lemma Along.mono (h : ∀ s i, C s i → D s i) :
    ∀ {s : σ} {is : List ι}, Along step C s is → Along step D s is
  | _, [], _ => trivial
  | _, _ :: _, hC => ⟨h _ _ hC.1, fun s' hs => Along.mono h (hC.2 s' hs)⟩

/-- A condition on the inputs alone is asked of all of them at once. -/
lemma Along.and_all {Q : ι → Prop} : ∀ {s : σ} {is : List ι}, Along step C s is → (∀ i ∈ is, Q i) →
      Along step (fun s i => C s i ∧ Q i) s is
  | _, [], _, _ => trivial
  | _, i :: _, hC, hQ => ⟨⟨hC.1, hQ i (.head _)⟩,
      fun s' hs => (hC.2 s' hs).and_all fun j hj => hQ j (.tail _ hj)⟩

/-- The condition that asks nothing holds along every run. -/
lemma along_true : ∀ (s : σ) (is : List ι), Along step (fun _ _ => True) s is
  | _, [] => trivial
  | _, _ :: is => ⟨trivial, fun s' _ => along_true s' is⟩

/-- A run that passes a check of the condition meets it. -/
lemma along_of_check [∀ s i, Decidable (C s i)] :
    ∀ {s : σ} {is : List ι}, check step (fun s i => decide (C s i)) s is → Along step C s is
  | _, [], _ => trivial
  | s, i :: is, h => by
    rw [check, Bool.and_eq_true, decide_eq_true_eq] at h
    refine ⟨h.1, fun s' hs => along_of_check ?_⟩
    have hall := h.2
    rw [hs] at hall
    exact hall

/-- A property that every step meeting the condition preserves holds after every run whose steps
all meet it. -/
theorem invariant {P : σ → Prop} (hstep : ∀ s i s', P s → C s i → step s i = some s' → P s') :
    ∀ {s : σ} {is : List ι} {s' : σ}, P s → Along step C s is → run step s is = some s' → P s'
  | s, [], s', hP, _, hrun => by
    rw [run, Option.some.injEq] at hrun
    exact hrun ▸ hP
  | s, i :: is, s', hP, hC, hrun => by
    rw [run, Option.bind_eq_some_iff] at hrun
    obtain ⟨s1, hs1, hrun⟩ := hrun
    exact invariant hstep (hstep s i s1 hP hC.1 hs1) (hC.2 s1 hs1) hrun

/-- A run that goes on from where another one ended. -/
lemma run_append (s : σ) (is js : List ι) :
    run step s (is ++ js) = (run step s is).bind fun s' => run step s' js := by
  induction is generalizing s with
  | nil => rfl
  | cons i is ih => simp [run, ih, Option.bind_assoc]

/-- A condition holds along a run and at its next step. -/
lemma Along.concat {s : σ} {is : List ι} {i : ι} (h : Along step C s (is ++ [i])) :
    Along step C s is ∧ ∀ s', run step s is = some s' → C s' i := by
  induction is generalizing s with
  | nil =>
    refine ⟨trivial, fun s' hs => ?_⟩
    rw [run, Option.some.injEq] at hs
    exact hs ▸ h.1
  | cons j is ih =>
    refine ⟨⟨h.1, fun s' hs => (ih (h.2 s' hs)).1⟩, fun s' hs => ?_⟩
    rw [run, Option.bind_eq_some_iff] at hs
    obtain ⟨s1, hs1, hs⟩ := hs
    exact (ih (h.2 s1 hs1)).2 s' hs

/-- A condition holds along the rest of a run. -/
lemma Along.append_right {s s' : σ} {is js : List ι} (h : Along step C s (is ++ js))
    (hrun : run step s is = some s') : Along step C s' js := by
  induction is generalizing s with
  | nil =>
    rw [run, Option.some.injEq] at hrun
    exact hrun ▸ h
  | cons i is ih =>
    rw [run, Option.bind_eq_some_iff] at hrun
    obtain ⟨s1, hs1, hrun⟩ := hrun
    exact ih (h.2 s1 hs1) hrun

/-- A property of the inputs taken so far and the state they lead to, which every step meeting the
condition preserves, holds after every run whose steps all meet it. -/
theorem invariant_traced {P : List ι → σ → Prop} {s : σ} (hnil : P [] s)
    (hstep : ∀ is s1 i s2, run step s is = some s1 → P is s1 → C s1 i → step s1 i = some s2 →
      P (is ++ [i]) s2) {is : List ι} {s' : σ} (hC : Along step C s is)
    (hrun : run step s is = some s') : P is s' := by
  induction is using List.reverseRecOn generalizing s' with
  | nil =>
    rw [run, Option.some.injEq] at hrun
    exact hrun ▸ hnil
  | append_singleton is i ih =>
    obtain ⟨hCs, hCi⟩ := hC.concat
    rw [run_append, Option.bind_eq_some_iff] at hrun
    obtain ⟨s1, hs1, hrun⟩ := hrun
    rw [run, Option.bind_eq_some_iff] at hrun
    obtain ⟨s2, hs2, hrun⟩ := hrun
    rw [run, Option.some.injEq] at hrun
    exact hrun ▸ hstep is s1 i s2 hs1 (ih hCs hs1) (hCi s1 hs1) hs2

end Runs
