import Ben.ReviewRun.Script

/-!
# The output a verdict is taken from

The executor keeps one numbered stream of events for each address and serves contiguous pages of
it.  A record always holds the standard output up to its cursor.  Whether it holds all of it when
a verdict is taken depends on the page that was read last: `consume` reads one page and then stops
if the state it had before was over.  So the output is complete if a page that is asked for once
the run is over is the whole rest of the stream, and may be a part of it otherwise.
-/

namespace Ben.ReviewRun

open List
open Ben.Review

/-- The events of a stream are numbered from one. -/
def Numbered (events : List Chunk) : Prop :=
  ∀ (i : Nat) (c : Chunk), events[i]? = some c → c.seq = (i : Int) + 1

/-- Every page is a contiguous one that begins right after the cursor. -/
def Pages (L : Ref → List Chunk) : (op : Op) → Ans op → Prop
  | .events ref after, some chunks => chunks <+: (L ref).drop after.toNat
  | _, _ => True

/-- As long as there are events after the cursor, a page has some. -/
def Fills (L : Ref → List Chunk) : (op : Op) → Ans op → Prop
  | .events ref after, some chunks => chunks = [] → (L ref).drop after.toNat = []
  | _, _ => True

/-- A page that is asked for after the run was reported to be over is all that is left. -/
def Drains (L : Ref → List Chunk) (w : World) : (op : Op) → Ans op → Prop
  | .events ref after, some chunks => w.seen.over → chunks = (L ref).drop after.toNat
  | _, _ => True

section

variable [Sha256] {L : Ref → List Chunk} {w : World}

omit [Sha256] in
lemma stdout_append (a b) : stdout (a ++ b) = stdout a ++ stdout b := flatMap_append

lemma admitChunk_next {r r' : Record} {c : Chunk} (hseq : c.seq = r.cursor + 1)
    (h : admitChunk r c = .ok r') : r' = r.grow c := by
  rw [admitChunk, if_neg (by omega : ¬ c.seq ≤ r.cursor), if_neg (not_not.2 hseq)] at h
  split_ifs at h
  exact (Except.ok.inj h).symm

/-- A page that continues the stream is taken whole. -/
lemma admit_page {events chunks : List Chunk} {n : Nat} {r r' : Record}
    (hnumbered : Numbered events) (hpage : chunks <+: events.drop n) (hcursor : r.cursor = n)
    (h : admitChunks r chunks = .ok r') :
    r'.cursor = n + chunks.length ∧ r'.output = r.output ++ stdout chunks := by
  induction chunks generalizing n r with
  | nil =>
    cases h
    exact ⟨by simpa using hcursor, by simp [stdout]⟩
  | cons c chunks ih =>
    obtain ⟨rest, hrest⟩ := hpage
    have hc : events[n]? = some c := by
      have hhead := congrArg (fun l => l[0]?) hrest
      simpa using hhead.symm
    have hseq : c.seq = (n : Int) + 1 := hnumbered n c hc
    have htail : chunks <+: events.drop (n + 1) := by
      refine ⟨rest, ?_⟩
      have htail := congrArg List.tail hrest
      simpa using htail
    rw [admitChunks, foldlM_cons] at h
    cases hstep : admitChunk r c with
    | error e =>
      rw [hstep] at h
      cases h
    | ok r1 =>
      rw [hstep] at h
      obtain rfl := admitChunk_next (by omega) hstep
      obtain ⟨hcursor', houtput⟩ := ih htail hseq h
      refine ⟨?_, ?_⟩
      · rw [hcursor', length_cons]
        push_cast
        omega
      · rw [houtput, Record.grow, stdout, stdout, flatMap_cons]
        split_ifs <;> simp

/-- A record holds the standard output up to its cursor, and all of it if it holds a verdict. -/
def Retains (L : Ref → List Chunk) (r : Record) : Prop :=
  ∃ n : Nat, r.cursor = n ∧ n ≤ (L r.ref).length ∧ r.output = stdout ((L r.ref).take n) ∧
    (r.verdict ≠ [] → r.output = stdout (L r.ref) ∧
      ∃ report, extractVerdict r.output = .ok report ∧ r.verdict = report.verdict.text ∧
        r.findings = report.findings)

/-- The last page continues its stream, and ends it if the run was over. -/
def Continues (L : Ref → List Chunk) (page : Page) : Prop :=
  ∃ n : Nat, page.after = n ∧ page.chunks <+: (L page.ref).drop n ∧
    (page.final → page.chunks = (L page.ref).drop n)

/-- What the store and the last page have to do with the streams. -/
structure Faithful (L : Ref → List Chunk) (w : World) : Prop where
  records : ∀ run r, w.store run = some r → Retains L r
  page : ∀ page, w.page = some page → Continues L page

omit [Sha256] in
/-- A record that differs from a stored one in other things. -/
lemma Retains.of_same {r r' : Record} (h : Retains L r) (href : r'.ref = r.ref)
    (hcursor : r'.cursor = r.cursor) (houtput : r'.output = r.output) (hopen : r'.verdict = []) :
    Retains L r' := by
  obtain ⟨n, hn, hle, hout, -⟩ := h
  refine ⟨n, hcursor.trans hn, ?_, ?_, fun hne => absurd hopen hne⟩
  · rw [href]
    exact hle
  · rw [href, houtput, hout]

/-- What a session saves is true of the stream. -/
lemma Saves.retains {r} (hs : Saves w r) (h : Faithful L w) (hnumbered : ∀ ref, Numbered (L ref)) :
    Retains L r := by
  cases hs with
  | reserve sub run subject digest place =>
    exact ⟨0, rfl, Nat.zero_le _, by simp [reserved, stdout], fun hne => absurd rfl hne⟩
  | mark hstored hopen => exact (h.records _ _ hstored).of_same rfl rfl rfl hopen
  | quiet hstored hopen => exact (h.records _ _ hstored).of_same rfl rfl rfl hopen
  | refuse hstored hopen => exact (h.records _ _ hstored).of_same rfl rfl rfl hopen
  | resolve hstored hopen => exact (h.records _ _ hstored).of_same rfl rfl rfl hopen
  | @admitChunks r0 r' page hstored hopen hpage href hafter hadmitted st =>
    obtain ⟨n, hn, hle, hout, -⟩ := h.records _ _ hstored
    obtain ⟨m, hm, hchunks, -⟩ := h.page page hpage
    have hmn : m = n := by omega
    subst hmn
    rw [href] at hchunks
    obtain ⟨hcursor, houtput⟩ := admit_page (hnumbered _) hchunks hn hadmitted
    have hsame := (admit_spec hadmitted).1
    obtain ⟨rest, hrest⟩ := hchunks
    have hsplit : (L r0.ref) = (L r0.ref).take m ++ (page.chunks ++ rest) := by
      rw [hrest, take_append_drop]
    have hlength := congrArg List.length hsplit
    simp only [length_append, length_take, Nat.min_eq_left hle] at hlength
    refine ⟨m + page.chunks.length, ?_, ?_, ?_, fun hne => absurd (hsame.verdict.trans hopen) hne⟩
    · change r'.cursor = _
      rw [hcursor]
      push_cast
      rfl
    · change _ ≤ (L r'.ref).length
      rw [hsame.ref]
      omega
    · change r'.output = stdout ((L r'.ref).take _)
      have htake : (L r0.ref).take (m + page.chunks.length) = (L r0.ref).take m ++ page.chunks := by
        rw [take_add, ← hrest, take_left]
      rw [hsame.ref, houtput, hout, htake, stdout_append]
  | @conclude r r0 r1 page report hstored hopen hpage href hafter hadmitted hcursor hfinal
      hverdict =>
    obtain ⟨n, hn, hle, hout, -⟩ := h.records _ _ hstored
    obtain ⟨m, hm, hchunks, hall⟩ := h.page page hpage
    have hrest := hall hfinal
    obtain ⟨hcursor', -⟩ := admit_page (hnumbered _) hchunks (by omega) hadmitted
    -- the cursor is at the end of the stream
    rw [href] at hrest
    have hlength : page.chunks.length = (L r.ref).length - m := by rw [hrest, length_drop]
    have hend : (L r.ref).take n = L r.ref := take_of_length_le (by omega)
    have hcomplete : r.output = stdout (L r.ref) := by rw [hout, hend]
    exact ⟨n, hn, hle, hout, fun _ => ⟨hcomplete, report, hverdict, rfl, rfl⟩⟩

section

omit [Sha256]

lemma faithful_empty : Faithful L {} := ⟨by simp, by simp⟩

lemma Faithful.put {r} (h : Faithful L w) (hr : Retains L r) : Faithful L (w.put r) where
  records run r' hr' := by
    obtain ⟨-, rfl⟩ | ⟨-, hstored⟩ := put_store_eq_some hr'
    · exact hr
    · exact h.records run r' hstored
  page := h.page

lemma Faithful.drop (h : Faithful L w) (run) : Faithful L (w.drop run) where
  records run' r hr := h.records run' r (drop_store_eq_some hr).2
  page := h.page

end

/-- The store stays true to the streams, whatever is allowed and answered, as long as pages do. -/
lemma Faithful.step {exec} (hnumbered : ∀ ref, Numbered (L ref))
    (hpages : ∀ w op ans, exec w op ans → Pages L op ans)
    (hdrains : ∀ w op ans, exec w op ans → Drains L w op ans) {op} {ans : Ans op} {w'}
    (h : Faithful L w) (hallowed : Allowed w op) (hdoes : Does exec w op ans w') :
    Faithful L w' := by
  obtain ⟨hexec, heffect⟩ := hdoes
  cases heffect with
  | saved _ =>
    cases hallowed with
    | save hs => exact h.put (hs.retains h hnumbered)
  | lost _ =>
    cases hallowed with
    | save hs => exact h.put (hs.retains h hnumbered)
  | deleted run => exact h.drop run
  | gone run => exact h.drop run
  | read _ _ chunks =>
    cases hallowed with
    | events hstored =>
      refine ⟨h.records, ?_⟩
      rintro page ⟨⟩
      obtain ⟨n, hn, -⟩ := h.records _ _ hstored
      have hpage := hpages _ _ _ hexec
      have hdrain := hdrains _ _ _ hexec
      rw [Pages, hn, Int.toNat_natCast] at hpage
      rw [Drains, hn, Int.toNat_natCast] at hdrain
      exact ⟨n, hn, hpage, hdrain⟩
  | _ => exact ⟨h.records, h.page⟩

end

section

variable [Sha256] {L : Ref → List Chunk} {exec : Executor} {w : World}

/-- If every page that is asked for once a run is over is the whole rest of its stream, then every
verdict that is ever stored was taken from the whole standard output of the stream. -/
theorem verdict_from_whole_output (s : Session) (hnumbered : ∀ ref, Numbered (L ref))
    (hpages : ∀ w op ans, exec w op ans → Pages L op ans)
    (hdrains : ∀ w op ans, exec w op ans → Drains L w op ans)
    {calls : List (Program.Called World Op Call Err Reply)}
    (h : Program.History (Does exec) s.body {} calls w) {run : Text} {r : Record}
    (hstored : w.store run = some r) (hterminal : r.terminal) :
    r.output = stdout (L r.ref) ∧
      ∃ report, extractVerdict r.output = .ok report ∧ r.verdict = report.verdict.text ∧
        r.findings = report.findings := by
  have hbody : ∀ c w, Inv w ∧ Faithful L w → (s.body c).Meets (Does exec)
      (fun w op => (Inv w ∧ Faithful L w) ∧ Allowed w op) (fun w => Inv w ∧ Faithful L w) w
      fun _ _ => True := by
    intro c w hw
    refine (meets_body s c hw.1).strengthen hw.1 hw.2
      fun w op ans w' _ hfaithful hallowed hdoes => ?_
    exact hfaithful.step hnumbered hpages hdrains hallowed hdoes
  obtain ⟨⟨-, hfaithful⟩, -⟩ := h.sound hbody ⟨inv_empty, faithful_empty⟩
  obtain ⟨n, -, -, -, hverdict⟩ := hfaithful.records run r hstored
  exact hverdict (by simpa [Record.terminal] using hterminal)

end

open Ben.ReviewRun.Sample

/-- A stream whose verdict is split over two events. -/
def Sample.split : List Chunk := stream [(envelope .clean).take 30, (envelope .clean).drop 30]

lemma Sample.numbered_stream (outputs) : Numbered (stream outputs) := by
  intro i c hc
  rw [stream, getElem?_map, getElem?_zipIdx, Option.map_map] at hc
  obtain ⟨payload, -, rfl⟩ := Option.map_eq_some_iff.1 hc
  simp

lemma Sample.pages_script (events) (width : Nat) (rs w op) :
    Pages (fun _ => events) op ((script events width).answer rs w op).1 := by
  cases op with
  | events ref after => exact take_prefix width _
  | _ => trivial

/-- Executors that serve one stream, the whole rest of it once the run is over. -/
def Sample.whole (events : List Chunk) : Executor := fun w op ans =>
  Pages (fun _ => events) op ans ∧ Drains (fun _ => events) w op ans

/-- Served in one page, the verdict is read from both events. -/
theorem verdict_from_whole_output_split : ∃ calls w r, Program.History (Does (whole split))
      session.body {} calls w ∧ w.store subject.runID = some r ∧ r.terminal ∧
      r.output = stdout split := by
  have hexec : ∀ rs w op, whole split w op
      ((script split 2).answer rs w op).1 := by
    intro rs w op
    refine ⟨pages_script split 2 rs w op, ?_⟩
    cases op with
    | events ref after =>
      intro _
      refine take_of_length_le ?_
      rw [length_drop]
      exact Nat.sub_le 2 _
    | _ => trivial
  have hhistory := history_calls (script split 2) hexec [.review subject]
  have hstored : ((Program.simulateAll (script split 2).answer session.body
      [.review subject] [] {}).2.store subject.runID).any Record.terminal := by
    decide +kernel
  obtain ⟨r, hr, hterminal⟩ := (Option.any_eq_true _ _).1 hstored
  refine ⟨_, _, r, hhistory, hr, hterminal, ?_⟩
  exact (verdict_from_whole_output session (fun _ => numbered_stream _)
    (fun _ _ _ h => h.1) (fun _ _ _ h => h.2) hhistory hr hterminal).1

/-- A stream with one envelope and then the other. -/
def Sample.both : List Chunk := stream [envelope .clean, envelope .changesRequested]

/-- Executors that serve one stream in contiguous pages that are not empty. -/
def Sample.contiguous (events : List Chunk) : Executor := fun _ op ans =>
  Pages (fun _ => events) op ans ∧ Fills (fun _ => events) op ans

/-- An executor that serves one event at a time and reports the run over makes the session take
the verdict of the first event of two: the output it was taken from is not the whole one. -/
theorem verdict_from_part_of_output : ∃ calls w r, Program.History (Does (contiguous both))
      session.body {} calls w ∧ w.store subject.runID = some r ∧ r.terminal ∧
      r.output ≠ stdout both := by
  have hexec : ∀ rs w op, contiguous both w op
      ((script both 1).answer rs w op).1 := by
    intro rs w op
    refine ⟨pages_script both 1 rs w op, ?_⟩
    cases op with
    | events ref after =>
      intro hnil
      exact (take_eq_nil_iff.1 hnil).resolve_left (by decide)
    | _ => trivial
  have hstored : ((Program.simulateAll (script both 1).answer session.body
      [.review subject] [] {}).2.store subject.runID).any fun r =>
        r.terminal && decide (r.output ≠ stdout both) := by
    decide +kernel
  obtain ⟨r, hr, hpart⟩ := (Option.any_eq_true _ _).1 hstored
  rw [Bool.and_eq_true, decide_eq_true_eq] at hpart
  exact ⟨_, _, r, history_calls (script both 1) hexec _, hr, hpart.1, hpart.2⟩

end Ben.ReviewRun
