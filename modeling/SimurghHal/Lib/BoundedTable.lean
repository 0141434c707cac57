import Mathlib.Data.Vector.Basic

/-!
# Append-only tables of fixed capacity

A table is an array of fixed size together with a 32-bit count of the entries in
use. `slice` is the used part, undefined when the count exceeds the array, and
`push` appends one entry unless the array is full. `overwrite` starts a table over. A
`Buffer` carries the proof that its count is within the capacity.
-/

namespace BoundedTable

variable {α : Type*} {n : ℕ}

/-- The entries in use, or `none` when the count runs past the array. -/
def slice (v : Vector α n) (count : UInt32) : Option (List α) :=
  if count.toNat ≤ n then some (v.toList.take count.toNat) else none

/-- Append one entry. A full table is left alone. -/
def push (v : Vector α n) (count : UInt32) (x : α) : Option (Vector α n × UInt32) :=
  if h : count.toNat < n then some (v.set count.toNat x h, count + 1) else none

/-- Storing at the end of the used part appends to it. -/
theorem take_succ_set {v : Vector α n} {c : ℕ} (x : α) (h : c < n) :
    (v.set c x h).toList.take (c + 1) = v.toList.take c ++ [x] := by
  have hlen : c < v.toList.length := by simpa using h
  rw [Vector.toList_set, List.take_set, List.take_succ_eq_append_getElem hlen,
    List.set_append_right _ _ (by simp [h.le])]
  simp [h.le]

theorem slice_isSome_iff (v : Vector α n) (count : UInt32) :
    (slice v count).isSome ↔ count.toNat ≤ n := by
  rw [slice]
  split <;> simp_all

theorem slice_zero (v : Vector α n) : slice v 0 = some [] := by
  simp [slice]

theorem length_of_slice {v : Vector α n} {count : UInt32} {xs : List α}
    (h : slice v count = some xs) : xs.length = count.toNat := by
  rw [slice] at h
  split at h
  · next hle =>
    obtain rfl := Option.some.inj h
    simp [hle]
  · cases h

theorem push_eq_none_iff (v : Vector α n) (count : UInt32) (x : α) :
    push v count x = none ↔ n ≤ count.toNat := by
  rw [push]
  split <;> simp_all

/-- Appending to a table appends to its used part. -/
theorem slice_push {v v' : Vector α n} {count count' : UInt32} {x : α} {xs : List α}
    (hn : n < 2 ^ 32) (hs : slice v count = some xs) (hp : push v count x = some (v', count')) :
    slice v' count' = some (xs ++ [x]) := by
  rw [push] at hp
  split at hp
  · next hlt =>
    simp only [Option.some.injEq, Prod.mk.injEq] at hp
    obtain ⟨rfl, rfl⟩ := hp
    have hc : (count + 1).toNat = count.toNat + 1 := by
      rw [UInt32.toNat_add]
      exact Nat.mod_eq_of_lt (by simp; omega)
    rw [slice, if_pos hlt.le] at hs
    rw [slice, hc, if_pos (by omega), take_succ_set x hlt, Option.some.inj hs]
  · cases hp

/-- A table that holds the first `n` values pushed so far: a push is refused
exactly when `n` values have been pushed, and keeps the description either way. -/
theorem push_of_slice_take {v : Vector α n} {count : UInt32} {xs : List α} (x : α)
    (hn : n < 2 ^ 32) (hs : slice v count = some (xs.take n)) :
    (push v count x = none ∧ n ≤ xs.length ∧ slice v count = some ((xs ++ [x]).take n)) ∨
      ∃ v' count', push v count x = some (v', count') ∧ count.toNat = xs.length ∧
        slice v' count' = some ((xs ++ [x]).take n) := by
  have hcount : min n xs.length = count.toNat := by
    rw [← length_of_slice hs, List.length_take]
  by_cases hfull : n ≤ xs.length
  · refine .inl ⟨?_, hfull, ?_⟩
    · rw [push_eq_none_iff]
      omega
    · rw [hs, List.take_append_of_le_length hfull]
  · refine .inr ?_
    cases hp : push v count x with
    | none =>
      rw [push_eq_none_iff] at hp
      omega
    | some r =>
      refine ⟨r.1, r.2, rfl, by omega, ?_⟩
      rw [slice_push hn hs hp, List.take_of_length_le (by omega),
        List.take_of_length_le (by simp; omega)]

/-! ### Replacing the used part -/

/-- Copies a list over the first entries. The entries behind it stay. -/
def overwrite (v : Vector α n) (xs : List α) : Vector α n :=
  Vector.ofFn fun i => if h : i < xs.length then xs[i] else v[i]

/-- What is used afterwards is the list, whatever was there before. -/
theorem slice_overwrite (v : Vector α n) {xs : List α} {count : UInt32} (hlen : xs.length ≤ n)
    (hcount : count.toNat = xs.length) : slice (overwrite v xs) count = some xs := by
  rw [slice, hcount, if_pos hlen, Option.some.injEq]
  apply List.ext_getElem
  · simp [hlen]
  · intro i hi hi'
    simp [overwrite, hi']

/-! ### Buffers -/

/-- A table whose count is within its capacity by construction. -/
structure Buffer (α : Type*) (n : ℕ) where
  array : Vector α n
  count : ℕ
  count_le : count ≤ n

namespace Buffer

/-- The entries in use. -/
def entries (b : Buffer α n) : List α := b.array.toList.take b.count

/-- Stores one more entry. -/
def add (b : Buffer α n) (h : b.count < n) (x : α) : Buffer α n :=
  ⟨b.array.set b.count x h, b.count + 1, h⟩

@[simp] theorem length_entries (b : Buffer α n) : b.entries.length = b.count := by
  simp [entries, b.count_le]

@[simp] theorem entries_add (b : Buffer α n) (h : b.count < n) (x : α) :
    (b.add h x).entries = b.entries ++ [x] :=
  take_succ_set x h

/-- Changes the entries in use. -/
def mapEntries (f : α → α) (b : Buffer α n) : Buffer α n :=
  ⟨Vector.ofFn fun i => if i.val < b.count then f b.array[i] else b.array[i], b.count, b.count_le⟩

@[simp] theorem entries_mapEntries (f : α → α) (b : Buffer α n) :
    (b.mapEntries f).entries = b.entries.map f := by
  apply List.ext_getElem
  · simp [mapEntries]
  · intro i hi _
    have hcount : i < b.count := by simpa [mapEntries] using hi
    simp [entries, mapEntries, hcount]

end Buffer

end BoundedTable
