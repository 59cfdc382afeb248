import Mathlib.Tactic.Common

/-!
# Programs that ask their environment

A program is a tree of requests to an environment: a store, a backend, a clock.  It returns, fails
or asks, and what it asks is answered by a relation over worlds that says which answers are
possible and what they change.  Nothing bounds the environment but that relation, so one program
has many executions, and each of them may also stop anywhere: that is a crash.

`Meets` is the rule such a program is verified by.  It reads the tree once and demands that every
request is allowed in the world it is made in, that every answer leaves a world that keeps the
invariant, and that the outcome meets a postcondition.  What it proves is then true of every
execution, crashed ones included, and by induction of every history of calls.
-/

variable {Op : Type} {Ans : Op → Type} {ε α β γ W C : Type}

/-- A program over requests `Op`, each with its type of answers. -/
inductive Program (Ans : Op → Type) (ε α : Type) : Type
  | ret (a : α) : Program Ans ε α
  | fail (e : ε) : Program Ans ε α
  | ask (op : Op) (k : Ans op → Program Ans ε α) : Program Ans ε α

namespace Program

/-- Go on after a program that returns. -/
def bind : Program Ans ε α → (α → Program Ans ε β) → Program Ans ε β
  | ret a, f => f a
  | fail e, _ => fail e
  | ask op k, f => ask op fun ans => (k ans).bind f

instance : Monad (Program Ans ε) where
  pure := ret
  bind := bind

lemma pure_bind (a : α) (f : α → Program Ans ε β) : (pure a >>= f) = f a := rfl

/-- One request. -/
def call (op : Op) : Program Ans ε (Ans op) := ask op ret

/-- The outcome of a program, for a caller that looks at its error. -/
def attempt : Program Ans ε α → Program Ans γ (Except ε α)
  | ret a => ret (.ok a)
  | fail e => ret (.error e)
  | ask op k => ask op fun ans => (k ans).attempt

/-! ## Executions -/

/-- The executions of a program in an environment: the requests it made with the worlds it made
them in, the world it left and its outcome, which a stopped execution does not have. -/
inductive Exec (does : W → (op : Op) → Ans op → W → Prop) :
    Program Ans ε α → W → List (W × Op) → W → Option (Except ε α) → Prop
  | stop (p : Program Ans ε α) (w : W) : Exec does p w [] w none
  | ret (a : α) (w : W) : Exec does (.ret a) w [] w (some (.ok a))
  | fail (e : ε) (w : W) : Exec does (.fail e) w [] w (some (.error e))
  | ask {op : Op} {k : Ans op → Program Ans ε α} {ans : Ans op} {w w' w'' : W}
    {asked : List (W × Op)} {out : Option (Except ε α)} (hdoes : does w op ans w')
    (hrest : Exec does (k ans) w' asked w'' out) :
    Exec does (.ask op k) w ((w, op) :: asked) w'' out

/-- What happened to one call of a history. -/
structure Called (W Op C ε α : Type) where
  call : C
  before : W
  asked : List (W × Op)
  after : W
  outcome : Option (Except ε α)

/-- Histories of calls made one after the other, each executed to its end or stopped. -/
inductive History (does : W → (op : Op) → Ans op → W → Prop) (body : C → Program Ans ε α) :
    W → List (Called W Op C ε α) → W → Prop
  | nil (w : W) : History does body w [] w
  | snoc {w0 w : W} {calls : List (Called W Op C ε α)} {c : Called W Op C ε α}
    (h : History does body w0 calls w) (hbefore : c.before = w)
    (hexec : Exec does (body c.call) c.before c.asked c.after c.outcome) :
    History does body w0 (calls ++ [c]) c.after

variable {does : W → (op : Op) → Ans op → W → Prop} {body : C → Program Ans ε α}
  {calls : List (Called W Op C ε α)}

lemma History.exec_of_mem {w0 w} (h : History does body w0 calls w) {c : Called W Op C ε α}
    (hc : c ∈ calls) :
    Exec does (body c.call) c.before c.asked c.after c.outcome := by
  induction h with
  | nil => exact absurd hc List.not_mem_nil
  | snoc _ _ hexec ih =>
    obtain hc | hc := List.mem_append.1 hc
    · exact ih hc
    · rw [List.mem_singleton.1 hc]
      exact hexec

/-! ## Verification -/

section Meets

variable (does : W → (op : Op) → Ans op → W → Prop) (allowed : W → Op → Prop) (inv : W → Prop)

/-- Every request is allowed where it is made, every answer keeps the invariant and every outcome
is a wanted one. -/
def Meets : Program Ans ε α → W → (Except ε α → W → Prop) → Prop
  | ret a, w, post => post (.ok a) w
  | fail e, w, post => post (.error e) w
  | ask op k, w, post =>
    allowed w op ∧ ∀ ans w', does w op ans w' → inv w' ∧ (k ans).Meets w' post

variable {does allowed inv} {p : Program Ans ε α} {w : W} {post post' : Except ε α → W → Prop}

/-- A verified program keeps its promises in every execution. -/
theorem Meets.sound {asked : List (W × Op)} {w' : W} {out : Option (Except ε α)}
    (h : p.Meets does allowed inv w post) (hinv : inv w) (hexec : Exec does p w asked w' out) :
    (∀ a ∈ asked, allowed a.1 a.2) ∧ inv w' ∧ ∀ r, out = some r → post r w' := by
  induction hexec with
  | stop p w => exact ⟨by simp, hinv, by simp⟩
  | ret a w => exact ⟨by simp, hinv, fun r hr => Option.some.inj hr ▸ h⟩
  | fail e w => exact ⟨by simp, hinv, fun r hr => Option.some.inj hr ▸ h⟩
  | ask hdoes _ ih =>
    obtain ⟨hallowed, hnext⟩ := h
    obtain ⟨hinv', hrest⟩ := hnext _ _ hdoes
    obtain ⟨hasked, hafter⟩ := ih hrest hinv'
    exact ⟨List.forall_mem_cons.2 ⟨hallowed, hasked⟩, hafter⟩

/-- If every call is verified, against what it finds, the invariant holds after every history, and
every request of it was allowed. -/
theorem History.sound_calls {w0 : W} {allowed : C → W → W → Op → Prop}
    (hbody : ∀ c w, inv w → (body c).Meets does (allowed c w) inv w fun _ _ => True) (hinv : inv w0)
    (h : History does body w0 calls w) :
    inv w ∧ ∀ c ∈ calls, inv c.before ∧ ∀ a ∈ c.asked, allowed c.call c.before a.1 a.2 := by
  induction h with
  | nil => exact ⟨hinv, by simp⟩
  | snoc _ hbefore hexec ih =>
    obtain ⟨hbefore', hcalls⟩ := ih
    rw [← hbefore] at hbefore'
    obtain ⟨hasked, hafter, -⟩ := (hbody _ _ hbefore').sound hbefore' hexec
    exact ⟨hafter,
      List.forall_mem_append.2 ⟨hcalls, List.forall_mem_singleton.2 ⟨hbefore', hasked⟩⟩⟩

/-- The same for a rule that does not depend on the call. -/
theorem History.sound {w0 : W}
    (hbody : ∀ c w, inv w → (body c).Meets does allowed inv w fun _ _ => True)
    (hinv : inv w0) (h : History does body w0 calls w) :
    inv w ∧ ∀ c ∈ calls, inv c.before ∧ ∀ a ∈ c.asked, allowed a.1 a.2 :=
  History.sound_calls hbody hinv h

lemma Meets.mono (h : p.Meets does allowed inv w post) (hpost : ∀ r w', post r w' → post' r w') :
    p.Meets does allowed inv w post' := by
  induction p generalizing w with
  | ret a => exact hpost _ _ h
  | fail e => exact hpost _ _ h
  | ask op k ih =>
    obtain ⟨hallowed, hnext⟩ := h
    exact ⟨hallowed, fun ans w' hdoes => ⟨(hnext ans w' hdoes).1, ih ans (hnext ans w' hdoes).2⟩⟩

/-- The invariant may be used in the postcondition. -/
lemma Meets.mono_inv (h : p.Meets does allowed inv w post) (hinv : inv w)
    (hpost : ∀ r w', inv w' → post r w' → post' r w') : p.Meets does allowed inv w post' := by
  induction p generalizing w with
  | ret a => exact hpost _ _ hinv h
  | fail e => exact hpost _ _ hinv h
  | ask op k ih =>
    obtain ⟨hallowed, hnext⟩ := h
    exact ⟨hallowed, fun ans w' hdoes =>
      ⟨(hnext ans w' hdoes).1, ih ans (hnext ans w' hdoes).2 (hnext ans w' hdoes).1⟩⟩

/-- Sequencing: what the first program leaves is where the second begins. -/
lemma meets_bind {f : α → Program Ans ε β} {post : Except ε β → W → Prop}
    (h : p.Meets does allowed inv w fun r w' =>
      (∀ a, r = .ok a → (f a).Meets does allowed inv w' post) ∧
        ∀ e, r = .error e → post (.error e) w') :
    (p >>= f).Meets does allowed inv w post := by
  induction p generalizing w with
  | ret a => exact h.1 a rfl
  | fail e => exact h.2 e rfl
  | ask op k ih =>
    obtain ⟨hallowed, hnext⟩ := h
    exact ⟨hallowed, fun ans w' hdoes => ⟨(hnext ans w' hdoes).1, ih ans (hnext ans w' hdoes).2⟩⟩

lemma meets_call {op} {f : Ans op → Program Ans ε β} {post : Except ε β → W → Prop}
    (hallowed : allowed w op)
    (hnext : ∀ ans w', does w op ans w' → inv w' ∧ (f ans).Meets does allowed inv w' post) :
    (call op >>= f).Meets does allowed inv w post :=
  ⟨hallowed, hnext⟩

lemma meets_attempt {post : Except γ (Except ε α) → W → Prop}
    (h : p.Meets does allowed inv w fun r w' => post (.ok r) w') :
    p.attempt.Meets does allowed inv w post := by
  induction p generalizing w with
  | ret a => exact h
  | fail e => exact h
  | ask op k ih =>
    obtain ⟨hallowed, hnext⟩ := h
    exact ⟨hallowed, fun ans w' hdoes => ⟨(hnext ans w' hdoes).1, ih ans (hnext ans w' hdoes).2⟩⟩

/-- A second invariant that the allowed requests keep comes with the first, and both hold where a
request is made. -/
lemma Meets.strengthen {inv' : W → Prop} (h : p.Meets does allowed inv w post) (hinv : inv w)
    (hinv' : inv' w)
    (hstep : ∀ w op ans w', inv w → inv' w → allowed w op → does w op ans w' → inv' w') :
    p.Meets does (fun w op => (inv w ∧ inv' w) ∧ allowed w op) (fun w => inv w ∧ inv' w) w
      post := by
  induction p generalizing w with
  | ret a => exact h
  | fail e => exact h
  | ask op k ih =>
    obtain ⟨hallowed, hnext⟩ := h
    refine ⟨⟨⟨hinv, hinv'⟩, hallowed⟩, fun ans w' hdoes => ?_⟩
    obtain ⟨hkept, hrest⟩ := hnext ans w' hdoes
    have hkept' := hstep w op ans w' hinv hinv' hallowed hdoes
    exact ⟨⟨hkept, hkept'⟩, ih ans hrest hkept hkept'⟩

/-! ### Programs whose failures need no account -/

variable (does allowed inv) in
/-- The requests are allowed and, if the program returns, the world and the value are wanted. -/
def Gives (p : Program Ans ε α) (w : W) (post : α → W → Prop) : Prop :=
  p.Meets does allowed inv w fun out w' => ∀ a, out = .ok a → post a w'

lemma gives_pure {a : α} {post : α → W → Prop} (h : post a w) :
    (pure a : Program Ans ε α).Gives does allowed inv w post := by
  rintro _ ⟨⟩
  exact h

lemma gives_fail {e : ε} {post : α → W → Prop} :
    (fail e : Program Ans ε α).Gives does allowed inv w post := by
  rintro _ ⟨⟩

lemma Gives.mono {post post' : α → W → Prop} (h : p.Gives does allowed inv w post)
    (hpost : ∀ a w', post a w' → post' a w') : p.Gives does allowed inv w post' :=
  Meets.mono h fun _ w' hout a ha => hpost a w' (hout a ha)

lemma Gives.bind {mid : α → W → Prop} {f : α → Program Ans ε β} {post : β → W → Prop}
    (h : p.Gives does allowed inv w mid) (hinv : inv w)
    (hf : ∀ a w', inv w' → mid a w' → (f a).Gives does allowed inv w' post) :
    (p >>= f).Gives does allowed inv w post := by
  refine meets_bind (h.mono_inv hinv fun out w' hinv' hout => ⟨fun a ha => ?_, ?_⟩)
  · exact hf a w' hinv' (hout a ha)
  · rintro e - _ ⟨⟩

lemma gives_call {op} {f : Ans op → Program Ans ε β} {post : β → W → Prop} (hallowed : allowed w op)
    (hnext : ∀ ans w', does w op ans w' → inv w' ∧ (f ans).Gives does allowed inv w' post) :
    (call op >>= f).Gives does allowed inv w post :=
  meets_call hallowed hnext

end Meets

/-! ## Environments that are functions -/

/-- The outcome of a program in an environment whose answers are determined by the world. -/
def interpret (answer : W → (op : Op) → Ans op × W) : Program Ans ε α → W → Except ε α × W
  | ret a, w => (.ok a, w)
  | fail e, w => (.error e, w)
  | ask op k, w => (k (answer w op).1).interpret answer (answer w op).2

section Interpret

variable (answer : W → (op : Op) → Ans op × W) (w : W)

@[simp] lemma interpret_pure (a : α) :
    (pure a : Program Ans ε α).interpret answer w = (.ok a, w) := rfl

@[simp] lemma interpret_fail (e : ε) :
    (fail e : Program Ans ε α).interpret answer w = (.error e, w) := rfl

@[simp] lemma interpret_call (op) : (call op : Program Ans ε (Ans op)).interpret answer w =
      (.ok (answer w op).1, (answer w op).2) := rfl

lemma interpret_bind (p : Program Ans ε α) (f : α → Program Ans ε β) :
    (p >>= f).interpret answer w =
      match p.interpret answer w with
      | (.ok a, w') => (f a).interpret answer w'
      | (.error e, w') => (.error e, w') := by
  induction p generalizing w with
  | ret a => rfl
  | fail e => rfl
  | ask op k ih => exact ih _ _

@[simp] lemma interpret_attempt (p : Program Ans ε α) :
    (p.attempt : Program Ans γ (Except ε α)).interpret answer w =
      (.ok (p.interpret answer w).1, (p.interpret answer w).2) := by
  induction p generalizing w with
  | ret a => rfl
  | fail e => rfl
  | ask op k ih => exact ih _ _

end Interpret

/-! ## Executions of a scripted environment -/

/-- Run a program against an environment that always answers the same way, script and world
together being its state. -/
def simulate {S : Type} (answer : S → W → (op : Op) → Ans op × S × W) :
    Program Ans ε α → S → W → List (W × Op) × S × W × Except ε α
  | ret a, s, w => ([], s, w, .ok a)
  | fail e, s, w => ([], s, w, .error e)
  | ask op k, s, w =>
    let next := answer s w op
    let rest := (k next.1).simulate answer next.2.1 next.2.2
    ((w, op) :: rest.1, rest.2)

/-- What a scripted environment does is an execution, if its answers are possible ones as long as
script and world fit together, and keep them so. -/
theorem exec_simulate {S : Type} {answer : S → W → (op : Op) → Ans op × S × W}
    {fits : S → W → Prop}
    (hanswer : ∀ s w op, fits s w → does w op (answer s w op).1 (answer s w op).2.2 ∧
      fits (answer s w op).2.1 (answer s w op).2.2)
    (p : Program Ans ε α) {s : S} {w : W} (hfits : fits s w) :
    Exec does p w (p.simulate answer s w).1 (p.simulate answer s w).2.2.1
        (some (p.simulate answer s w).2.2.2) ∧
      fits (p.simulate answer s w).2.1 (p.simulate answer s w).2.2.1 := by
  induction p generalizing s w with
  | ret a => exact ⟨.ret a w, hfits⟩
  | fail e => exact ⟨.fail e w, hfits⟩
  | ask op k ih =>
    obtain ⟨hdoes, hfits'⟩ := hanswer s w op hfits
    obtain ⟨hexec, hfits''⟩ := ih _ hfits'
    exact ⟨.ask hdoes hexec, hfits''⟩

/-- Run calls one after the other against a scripted environment. -/
def simulateAll {S : Type} (answer : S → W → (op : Op) → Ans op × S × W)
    (body : C → Program Ans ε α) : List C → S → W → List (Called W Op C ε α) × W
  | [], _, w => ([], w)
  | c :: cs, s, w =>
    let out := (body c).simulate answer s w
    let rest := simulateAll answer body cs out.2.1 out.2.2.1
    ({ call := c, before := w, asked := out.1, after := out.2.2.1, outcome := some out.2.2.2 } ::
      rest.1, rest.2)

/-- A history that begins with one call and goes on. -/
lemma History.cons {c : Called W Op C ε α} {w}
    (hexec : Exec does (body c.call) c.before c.asked c.after c.outcome)
    (h : History does body c.after calls w) : History does body c.before (c :: calls) w := by
  induction h with
  | nil => exact .snoc (.nil _) rfl hexec
  | snoc _ hbefore hexec' ih => exact .snoc ih hbefore hexec'

theorem history_simulateAll {S : Type} {answer : S → W → (op : Op) → Ans op × S × W}
    {fits : S → W → Prop}
    (hanswer : ∀ s w op, fits s w → does w op (answer s w op).1 (answer s w op).2.2 ∧
      fits (answer s w op).2.1 (answer s w op).2.2)
    (body : C → Program Ans ε α) (cs : List C) {s : S} {w : W} (hfits : fits s w) :
    History does body w (simulateAll answer body cs s w).1 (simulateAll answer body cs s w).2 := by
  induction cs generalizing s w with
  | nil => exact .nil w
  | cons c cs ih =>
    obtain ⟨hexec, hfits'⟩ := exec_simulate hanswer (body c) hfits
    exact History.cons (c := ⟨c, w, _, _, _⟩) hexec (ih hfits')

end Program
