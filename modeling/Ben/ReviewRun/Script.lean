import Ben.ReviewRun.Moves

/-!
# A session whose surroundings answer by a script

Claims that something can happen need a history.  Here the store keeps what it is given and the
executor always reports one state and serves pages from a fixed function.  The histories this
makes are histories of the session, by the rule for scripted environments; they are computed.
-/

namespace Ben.ReviewRun

open List
open Ben.Review

/-- What the executor says whenever it is asked. -/
structure Script where
  request : Request
  state : State
  page : Ref → Int → List Chunk

/-- The answers of a script, with the records of the store as a list. -/
def Script.answer (x : Script) (rs : List Record) (w : World) :
    (op : Op) → Ans op × List Record × World
  | .compose _ => (some x.request, rs, w)
  | .checkRequest _ => (true, rs, w)
  | .placement _ => (none, rs, w)
  | .digest _ _ => (some (txt "sha256:digest"), rs, w)
  | .load run =>
    (match rs.find? fun r => r.run = run with
      | some r => .record r
      | none => .absent, rs, w)
  | .save r =>
    if r.valid then (true, r :: rs.filter (fun r' => r'.run ≠ r.run), w.put r) else (false, rs, w)
  | .delete run => (true, rs.filter (fun r => r.run ≠ run), w.drop run)
  | .records => (some rs, rs, w)
  | .start ref _ => (.ok x.state, rs, (w.start ref.run).look x.state)
  | .replayStart _ _ => (.error .other, rs, w)
  | .attach _ _ => (some x.state, rs, w.look x.state)
  | .status _ => (some x.state, rs, w.look x.state)
  | .events ref after => (some (x.page ref after), rs, w.read ref after (x.page ref after))
  | .sleep => (false, rs, w)

/-- The list holds the store's records, each run once. -/
structure Script.Fits (rs : List Record) (w : World) : Prop where
  stored : ∀ r ∈ rs, w.store r.run = some r
  listed : ∀ run r, w.store run = some r → r ∈ rs ∧ r.run = run
  nodup : (rs.map Record.run).Nodup

lemma Script.fits_empty : Script.Fits [] {} := ⟨by simp, by simp, by simp⟩

/-- The answers of a script are possible ones. -/
lemma Script.effect_answer (x : Script) {rs w} (op) (h : Script.Fits rs w) :
    Effect w op (x.answer rs w op).1 (x.answer rs w op).2.2 := by
  cases op with
  | load run =>
    rw [Script.answer]
    cases hfind : rs.find? fun r => r.run = run with
    | some r =>
      have hrun : r.run = run := by simpa using find?_some hfind
      exact .loaded (hrun ▸ h.stored r (mem_of_find?_eq_some hfind))
    | none =>
      refine .absent (Option.eq_none_iff_forall_ne_some.2 fun r hr => ?_)
      obtain ⟨hmem, hrun⟩ := h.listed run r hr
      have hnone := find?_eq_none.1 hfind r hmem
      simp [hrun] at hnone
  | save r =>
    rw [Script.answer]
    split_ifs with hvalid
    · exact .saved hvalid
    · exact .unsaved w r
  | records => exact .listed h.nodup h.stored fun run r hr => (h.listed run r hr).1
  | compose sub => exact .compose ..
  | checkRequest req => exact .checkRequest ..
  | placement sub => exact .placement ..
  | digest ref req => exact .digest ..
  | delete run => exact .deleted ..
  | start ref req => exact .started ..
  | replayStart ref req => exact .unreplayed ..
  | attach ref id => exact .attached ..
  | status ref => exact .observed ..
  | events ref after => exact .read ..
  | sleep => exact .slept ..

lemma Script.Fits.drop {rs : List Record} {w : World} (h : Script.Fits rs w) (run) :
    Script.Fits (rs.filter fun r => r.run ≠ run) (w.drop run) where
  stored r hr := by
    obtain ⟨hmem, hne⟩ := mem_filter.1 hr
    rw [World.drop_store_of_ne _ _ (by simpa using hne)]
    exact h.stored r hmem
  listed run' r hr := by
    obtain ⟨hne, hstored⟩ := drop_store_eq_some hr
    obtain ⟨hmem, hrun⟩ := h.listed run' r hstored
    exact ⟨mem_filter.2 ⟨hmem, by simpa [hrun] using hne⟩, hrun⟩
  nodup := h.nodup.sublist (filter_sublist.map _)

lemma Script.Fits.put {rs : List Record} {w : World} (h : Script.Fits rs w) (r : Record) :
    Script.Fits (r :: rs.filter fun r' => r'.run ≠ r.run) (w.put r) where
  stored r' hr' := by
    obtain rfl | hr' := mem_cons.1 hr'
    · exact World.put_store_self _ _
    · obtain ⟨hmem, hne⟩ := mem_filter.1 hr'
      rw [World.put_store_of_ne _ _ (by simpa using hne)]
      exact h.stored r' hmem
  listed run r' hr' := by
    obtain ⟨rfl, rfl⟩ | ⟨hne, hstored⟩ := put_store_eq_some hr'
    · exact ⟨.head _, rfl⟩
    · obtain ⟨hmem, hrun⟩ := h.listed run r' hstored
      exact ⟨.tail _ (mem_filter.2 ⟨hmem, by simpa [hrun] using hne⟩), hrun⟩
  nodup := by
    rw [map_cons, nodup_cons]
    refine ⟨fun hmem => ?_, h.nodup.sublist (filter_sublist.map _)⟩
    obtain ⟨r', hr', hrun⟩ := mem_map.1 hmem
    simp [hrun] at hr'

/-- A script answers as a store and an executor may, and goes on doing so. -/
lemma Script.does_answer {exec} (x : Script) (hexec : ∀ rs w op, exec w op (x.answer rs w op).1)
    (rs w op) (h : Script.Fits rs w) :
    Does exec w op (x.answer rs w op).1 (x.answer rs w op).2.2 ∧
      Script.Fits (x.answer rs w op).2.1 (x.answer rs w op).2.2 := by
  refine ⟨⟨hexec rs w op, x.effect_answer op h⟩, ?_⟩
  cases op with
  | save r =>
    rw [Script.answer]
    split_ifs with hvalid
    · exact h.put r
    · exact h
  | delete run => exact h.drop run
  | _ => exact ⟨h.stored, h.listed, h.nodup⟩

/-! ## Samples -/

namespace Sample

/-- A hash that can be computed by hand. -/
scoped instance hash : Sha256 := ⟨id⟩

def subject : Subject where
  repository := txt "r"
  issue := txt "1"
  cycle := 1
  occurrence := 2
  claim := 3
  pr := 4
  targetBranch := txt "main"
  base := List.replicate 40 0x61
  head := List.replicate 40 0x62
  diff := []
  reviewerProfile := []

/-- A session whose executor has no sandboxes. -/
def session : Session := { remote := false, replays := false, polls := 0 }

/-- A run that is over. -/
def ended : State := { backendRunID := txt "b", reachable := true, sealed := true, quiet := true }

/-- An envelope with a verdict. -/
def envelope (verdict : Review.Verdict) : Text :=
  verdictOpen ++ txt "\x7b\"verdict\":\"" ++ verdict.text ++ txt "\"\x7d" ++ verdictClose

/-- Some outputs as the events of one stream. -/
def stream (outputs : List Text) : List Chunk :=
  outputs.zipIdx.map fun p =>
    { seq := p.2 + 1, stream := .stdout, payload := p.1, truncated := false }

/-- An executor whose runs are over with a stream that is served some events at a time. -/
def script (events : List Chunk) (width : Nat) : Script where
  request := { argv := [], env := [], stdin := [] }
  state := ended
  page _ after := (events.drop after.toNat).take width

/-- The calls that some script answers. -/
def calls (x : Script) (cs : List Call) : List (Program.Called World Op Call Err Reply) :=
  (Program.simulateAll x.answer session.body cs [] {}).1

lemma history_calls {exec} (x : Script) (hexec : ∀ rs w op, exec w op (x.answer rs w op).1) (cs) :
    Program.History (Does exec) session.body {} (calls x cs)
      (Program.simulateAll x.answer session.body cs [] {}).2 :=
  Program.history_simulateAll (x.does_answer hexec) session.body cs Script.fits_empty

end Sample

end Ben.ReviewRun
