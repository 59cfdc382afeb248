import Mathlib.Data.List.Sort

/-!
# Taking turns

Work that is paced over ticks is taken in the order of its identifiers, starting after the one
that was taken last and wrapping around.
-/

namespace Ben

/-- The index the turn starts at: the first identifier after the cursor, or the first of all. -/
def turnStart (cursor : String) (items : List String) : Nat :=
  (items.findIdx? fun id => decide (cursor < id)).getD 0

/-- The next `n` identifiers after the cursor, wrapping around, and where the cursor then is. -/
def rotate (items : List String) (cursor : String) (n : Nat) : List String × String :=
  if items.isEmpty || n == 0 then ([], cursor)
  else
    let sorted := items.insertionSort (fun a b => decide (a ≤ b))
    let start := turnStart cursor sorted
    let picked := (List.range (min n sorted.length)).map fun i =>
      sorted.getD ((start + i) % sorted.length) ""
    (picked, picked.getLastD cursor)

/-- Whose turn it is, is one of the identifiers. -/
lemma mem_of_mem_rotate {items cursor} {n : Nat} {id} (h : id ∈ (rotate items cursor n).1) :
    id ∈ items := by
  unfold rotate at h
  split at h
  · simp at h
  · rename_i hsome
    obtain ⟨hitems, -⟩ : items ≠ [] ∧ n ≠ 0 := by simpa using hsome
    obtain ⟨i, -, rfl⟩ := List.mem_map.1 h
    have hlength : 0 < (items.insertionSort fun a b => decide (a ≤ b)).length := by
      rw [List.length_insertionSort]
      exact List.length_pos_iff.2 hitems
    rw [List.getD_eq_getElem?_getD, List.getElem?_eq_getElem (Nat.mod_lt _ hlength),
      Option.getD_some]
    exact (List.perm_insertionSort _ items).mem_iff.1 (List.getElem_mem _)

/-- A turn of one is one of the identifiers, or nothing. -/
lemma rotate_one (items cursor) :
    (rotate items cursor 1).1 = [] ∨ ∃ id ∈ items, (rotate items cursor 1).1 = [id] := by
  have hlength : (rotate items cursor 1).1.length ≤ 1 := by
    unfold rotate
    split <;> simp
  cases hpicked : (rotate items cursor 1).1 with
  | nil => exact .inl rfl
  | cons id rest =>
    have hrest : rest = [] := by simpa [hpicked] using hlength
    exact .inr ⟨id, mem_of_mem_rotate (by rw [hpicked]; exact .head _), by rw [hrest]⟩

end Ben
