import Mathlib.Data.List.Chain
import Mathlib.Data.List.GetD
import Mathlib.Data.List.Range
import Mathlib.Data.Nat.ModEq
import Mathlib.Data.String.Basic
import Ben.Orchestrator.Rotate

/-!
# Nobody waits for a second turn

The cursor names an identifier and not a place, so that it keeps its meaning while candidates come
and go.  A turn falls to the first candidate after the cursor in the cyclic order of identifiers,
and as long as `x` is a candidate no turn passes it by.  In the order that ends in `x` the turns
therefore climb until `x` is reached, whatever the other candidates do.
-/

namespace Ben

open List

/-- Whose turn it is after `c`: the least identifier beyond it, or the least of all. -/
def Follows (items : List String) (c y : String) : Prop :=
  (c < y ∧ ∀ z ∈ items, c < z → y ≤ z) ∨ ((∀ z ∈ items, z ≤ c) ∧ ∀ z ∈ items, y ≤ z)

/-- In the cyclic order that ends in `x`, the identifier `y` comes after `c`. -/
def Nearer (x c y : String) : Prop := (x < c ∧ (c < y ∨ y ≤ x)) ∨ (c < y ∧ y ≤ x)

lemma Nearer.trans {x a b c} (hab : Nearer x a b) (hbc : Nearer x b c) : Nearer x a c := by
  rcases hab with ⟨hxa, hab | hbx⟩ | ⟨hab, hbx⟩
  · rcases hbc with ⟨-, hbc | hcx⟩ | ⟨-, hcx⟩
    · exact .inl ⟨hxa, .inl (hab.trans hbc)⟩
    · exact .inl ⟨hxa, .inr hcx⟩
    · exact .inl ⟨hxa, .inr hcx⟩
  · rcases hbc with ⟨hxb, -⟩ | ⟨-, hcx⟩
    · exact absurd hxb hbx.not_gt
    · exact .inl ⟨hxa, .inr hcx⟩
  · rcases hbc with ⟨hxb, -⟩ | ⟨hbc, hcx⟩
    · exact absurd hxb hbx.not_gt
    · exact .inr ⟨hab.trans hbc, hcx⟩

lemma Nearer.ne {x a b} (h : Nearer x a b) : a ≠ b := by
  rintro rfl
  rcases h with ⟨hxa, h | h⟩ | ⟨h, -⟩
  · exact lt_irrefl _ h
  · exact absurd hxa h.not_gt
  · exact lt_irrefl _ h

/-- A turn does not pass a candidate by. -/
lemma Follows.nearer {items c x y} (h : Follows items c y) (hx : x ∈ items) (hne : c ≠ x) :
    Nearer x c y := by
  rcases h with ⟨hlt, hleast⟩ | ⟨hall, hleast⟩
  · rcases lt_or_gt_of_ne hne with hcx | hxc
    · exact .inr ⟨hlt, hleast x hx hcx⟩
    · exact .inl ⟨hxc, .inl hlt⟩
  · exact .inl ⟨lt_of_le_of_ne (hall x hx) (Ne.symm hne), .inr (hleast x hx)⟩

/-- Turns that each follow the last and do not reach `x` are all different. -/
lemma nodup_of_chain {x} {picks : List String} (h : picks.IsChain fun c y => c ≠ x → Nearer x c y)
    (hx : x ∉ picks) : picks.Nodup := by
  have hnearer : picks.IsChain (Nearer x) := by
    refine h.imp_of_mem_imp fun c y hc _ hcy => hcy ?_
    rintro rfl
    exact hx hc
  have : Trans (Nearer x) (Nearer x) (Nearer x) := ⟨Nearer.trans⟩
  exact (isChain_iff_pairwise.1 hnearer).imp Nearer.ne

section Sorted

variable {sorted : List String} (hsorted : sorted.Pairwise (· < ·))

include hsorted

/-- The turn falls to the first entry beyond `c`, or to the first of all if there is none. -/
lemma follows_at {c} {s : Nat} (hs : s < sorted.length)
    (hat : (c < sorted[s] ∧ ∀ k (_ : k < s), sorted[k] ≤ c) ∨ (s = 0 ∧ ∀ z ∈ sorted, z ≤ c)) :
    Follows sorted c sorted[s] := by
  have hle : ∀ k (hk : k < sorted.length), s ≤ k → sorted[s] ≤ sorted[k] := by
    intro k hk hsk
    rcases hsk.lt_or_eq with hsk | rfl
    · exact (pairwise_iff_getElem.1 hsorted s k hs hk hsk).le
    · exact le_rfl
  rcases hat with ⟨hlt, hbefore⟩ | ⟨rfl, hall⟩
  · refine .inl ⟨hlt, fun z hz hcz => ?_⟩
    obtain ⟨k, hk, rfl⟩ := getElem_of_mem hz
    rcases Nat.lt_or_ge k s with hks | hsk
    · exact absurd hcz (hbefore k hks).not_gt
    · exact hle k hk hsk
  · refine .inr ⟨hall, fun z hz => ?_⟩
    obtain ⟨k, hk, rfl⟩ := getElem_of_mem hz
    exact hle k hk (Nat.zero_le k)

/-- Along a sorted list each entry is followed by the next one, and the last by the first. -/
lemma follows_next {j s : Nat} (hj : j < sorted.length) (hs : s < sorted.length)
    (hnext : s = (j + 1) % sorted.length) : Follows sorted sorted[j] sorted[s] := by
  have hlt := pairwise_iff_getElem.1 hsorted
  have hle : ∀ k (hk : k < sorted.length), k ≤ j → sorted[k] ≤ sorted[j] := by
    intro k hk hkj
    rcases hkj.lt_or_eq with hkj | rfl
    · exact (hlt k j hk hj hkj).le
    · exact le_rfl
  refine follows_at hsorted hs ?_
  rcases Nat.lt_or_ge (j + 1) sorted.length with hlast | hlast
  · rw [Nat.mod_eq_of_lt hlast] at hnext
    subst hnext
    exact .inl ⟨hlt j (j + 1) hj hs (by omega), fun k hk => hle k (by omega) (by omega)⟩
  · have hfull : j + 1 = sorted.length := by omega
    rw [hfull, Nat.mod_self] at hnext
    refine .inr ⟨hnext, fun z hz => ?_⟩
    obtain ⟨k, hk, rfl⟩ := getElem_of_mem hz
    exact hle k hk (by omega)

/-- The turn starts at the entry that follows the cursor. -/
lemma follows_start (cursor) (hlen : 0 < sorted.length) :
    ∃ h : turnStart cursor sorted < sorted.length,
      Follows sorted cursor sorted[turnStart cursor sorted] := by
  rcases hfind : sorted.findIdx? fun id => decide (cursor < id) with _ | s
  · have hstart : turnStart cursor sorted = 0 := by rw [turnStart, hfind]; rfl
    refine ⟨by omega, follows_at hsorted _ (.inr ⟨hstart, fun z hz => ?_⟩)⟩
    exact not_lt.1 (of_decide_eq_false (findIdx?_eq_none_iff.1 hfind z hz))
  · have hstart : turnStart cursor sorted = s := by rw [turnStart, hfind]; rfl
    obtain ⟨hs, hlt, hbefore⟩ := findIdx?_eq_some_iff_getElem.1 hfind
    simp only [hstart]
    refine ⟨hs, follows_at hsorted hs (.inl ⟨of_decide_eq_true hlt, fun k hk => ?_⟩)⟩
    exact not_lt.1 fun hlt => hbefore k hk (decide_eq_true hlt)

end Sorted

/-- The candidates in the order of their identifiers. -/
lemma pairwise_lt_sorted {items : List String} (h : items.Nodup) :
    (items.insertionSort fun a b => decide (a ≤ b)).Pairwise (· < ·) := by
  have hnodup := (perm_insertionSort (fun a b : String => decide (a ≤ b)) items).nodup_iff.2 h
  refine (List.Pairwise.and (pairwise_insertionSort _ items) hnodup).imp fun hab => ?_
  exact lt_of_le_of_ne (of_decide_eq_true hab.1) hab.2

/-- One call takes at most `n` different candidates, each following the one before. -/
lemma rotate_turn {items : List String} (hitems : items.Nodup) (cursor) (n : Nat) :
    (rotate items cursor n).1.length ≤ n ∧ (rotate items cursor n).1.Nodup ∧
      (cursor :: (rotate items cursor n).1).IsChain (Follows items) ∧
      (rotate items cursor n).2 = (rotate items cursor n).1.getLastD cursor := by
  unfold rotate
  split
  · exact ⟨Nat.zero_le n, nodup_nil, .singleton _, rfl⟩
  · rename_i hsome
    obtain ⟨hnil, -⟩ : items ≠ [] ∧ n ≠ 0 := by simpa using hsome
    have hsorted := pairwise_lt_sorted hitems
    have hmem : ∀ z, z ∈ items.insertionSort (fun a b => decide (a ≤ b)) ↔ z ∈ items :=
      fun z => (perm_insertionSort _ items).mem_iff
    have hlen : 0 < (items.insertionSort fun a b => decide (a ≤ b)).length := by
      rw [length_insertionSort]
      exact length_pos_iff.2 hnil
    have hfollows : ∀ {c y}, Follows (items.insertionSort fun a b => decide (a ≤ b)) c y →
        Follows items c y := by
      intro c y h
      simpa only [Follows, hmem] using h
    generalize items.insertionSort (fun a b => decide (a ≤ b)) = sorted at *
    obtain ⟨hstart, hfirst⟩ := follows_start hsorted cursor hlen
    have hget : ∀ i, sorted.getD (i % sorted.length) "" =
        sorted.get ⟨i % sorted.length, Nat.mod_lt i hlen⟩ :=
      fun i => getD_eq_getElem _ _ (Nat.mod_lt i hlen)
    simp only [hget]
    refine ⟨by simp, ?_, ?_, trivial⟩
    · refine List.Nodup.map_on (fun i hi j hj hij => ?_) nodup_range
      rw [mem_range, Nat.lt_min] at hi hj
      have hmod := congrArg Fin.val ((nodup_iff_injective_get.1 hsorted.nodup) hij)
      have hcancel := Nat.ModEq.add_left_cancel' (turnStart cursor sorted) hmod
      rwa [Nat.ModEq, Nat.mod_eq_of_lt hi.2, Nat.mod_eq_of_lt hj.2] at hcancel
    · rw [isChain_cons, isChain_map, isChain_range]
      refine ⟨fun y hy => ?_, fun i _ => ?_⟩
      · obtain ⟨i, hi, rfl⟩ : ∃ i, (List.range (min n sorted.length)).head? = some i ∧ _ := by
          simpa only [head?_map, Option.mem_def, Option.map_eq_some_iff] using hy
        obtain rfl : i = 0 := by
          rw [head?_range] at hi
          split at hi <;> simp_all
        simp only [Nat.add_zero, Nat.mod_eq_of_lt hstart, get_eq_getElem]
        exact hfollows hfirst
      · refine hfollows (follows_next hsorted (Nat.mod_lt _ hlen) (Nat.mod_lt _ hlen) ?_)
        rw [Nat.mod_add_mod, Nat.succ_eq_add_one, Nat.add_assoc]

/-- The turns of a sequence of calls, each starting where the last one stopped. -/
def takeTurns (n : Nat) : String → List (List String) → List (List String)
  | _, [] => []
  | cursor, items :: rest =>
    (rotate items cursor n).1 :: takeTurns n (rotate items cursor n).2 rest

/-- A sequence of calls that all offer `x` never passes it by. -/
lemma takeTurns_chain {x} (n : Nat) (sets cursor)
    (hsets : ∀ items ∈ sets, items.Nodup ∧ x ∈ items) :
    (cursor :: (takeTurns n cursor sets).flatten).IsChain fun c y => c ≠ x → Nearer x c y := by
  induction sets generalizing cursor with
  | nil => exact .singleton _
  | cons items rest ih =>
    obtain ⟨hnodup, hx⟩ := hsets items (.head _)
    obtain ⟨-, -, hchain, hcursor⟩ := rotate_turn hnodup cursor n
    have hhead := hchain.imp fun c y h => h.nearer hx
    have hrest := ih (rotate items cursor n).2 fun s hs => hsets s (.tail _ hs)
    rw [isChain_cons] at hrest
    refine hhead.append hrest.2 fun z hz y hy => ?_
    have hlast : z = (rotate items cursor n).2 := by
      rw [hcursor, getLastD_eq_getLast?]
      simpa [getLast?_cons, eq_comm] using hz
    exact hlast ▸ hrest.1 y hy

/-- Each call takes at most `n` different candidates, and wherever `x` is not taken, from the start
or after a turn of its own, no other identifier is taken twice. -/
theorem takeTurns_fair (n : Nat) (cursor x : String) (sets : List (List String))
    (hsets : ∀ items ∈ sets, items.Nodup ∧ x ∈ items) :
    List.Forall₂ (fun picked items => picked.length ≤ n ∧ picked.Nodup ∧ picked ⊆ items)
      (takeTurns n cursor sets) sets ∧
    ∀ segment, segment <:+: (takeTurns n cursor sets).flatten → x ∉ segment → segment.Nodup := by
  constructor
  · induction sets generalizing cursor with
    | nil => exact .nil
    | cons items rest ih =>
      obtain ⟨hlength, hnodup, -, -⟩ := rotate_turn (hsets items (.head _)).1 cursor n
      exact .cons ⟨hlength, hnodup, fun id hid => mem_of_mem_rotate hid⟩
        (ih _ fun s hs => hsets s (.tail _ hs))
  · intro segment hinfix hx
    have hchain := List.IsChain.infix (takeTurns_chain n sets cursor hsets).tail hinfix
    exact nodup_of_chain hchain hx

theorem takeTurns_fair_growing :
    takeTurns 1 "b" [["c", "a"], ["b", "c", "d"], ["c", "a", "e"], ["c"]] =
      [["c"], ["d"], ["e"], ["c"]] ∧ ["d", "e"].Nodup :=
  ⟨by decide, (takeTurns_fair 1 "b" "c" [["c", "a"], ["b", "c", "d"], ["c", "a", "e"], ["c"]]
    (by decide)).2 _ ⟨["c"], ["c"], by decide⟩ (by decide)⟩

end Ben
