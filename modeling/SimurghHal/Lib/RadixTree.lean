import Mathlib.Data.List.Induction
import Mathlib.Data.Set.Basic
import Mathlib.Logic.Function.Basic

/-!
# Radix trees stored in a flat memory of tables

A multi-level table structure: a memory assigns to every table identifier and
every index an entry, and `decode` reads an entry as a link to a further table.
`descend` follows a path of indices from a root, `lookup` reads one entry of the
table a path leads to.

`IsTree` is the invariant under which such a memory behaves like a tree of
tables of one fixed depth: no table is reached by two paths, and a reserve of
fresh tables is empty and not reached at all. It is kept by the two operations
that build such a tree, linking a fresh table (`IsTree.link`) and overwriting an
entry of a table of the last level (`IsTree.setLeaf`). The lemmas on `descend`
and `lookup` say exactly what either operation changes.
-/

namespace RadixTree

variable {τ ι ε : Type*}

section Descend

variable (decode : ε → Option τ)

/-- The table reached from `t` along a path of indices. -/
def descend (m : τ → ι → ε) : τ → List ι → Option τ
  | t, [] => some t
  | t, i :: is => (decode (m t i)).bind fun u => descend m u is

/-- The entry at index `i` of the table reached along `p`. -/
def lookup (m : τ → ι → ε) (root : τ) (p : List ι) (i : ι) : Option ε :=
  (descend decode m root p).map fun t => m t i

variable {decode}

@[simp] theorem descend_nil (m : τ → ι → ε) (t : τ) : descend decode m t [] = some t := rfl

theorem descend_append (m : τ → ι → ε) (t : τ) (p q : List ι) :
    descend decode m t (p ++ q) =
      (descend decode m t p).bind fun u => descend decode m u q := by
  induction p generalizing t with
  | nil => rfl
  | cons i p ih =>
    simp only [List.cons_append, descend]
    cases decode (m t i) with
    | none => rfl
    | some u => exact ih u

theorem descend_concat (m : τ → ι → ε) (t : τ) (p : List ι) (i : ι) :
    descend decode m t (p ++ [i]) =
      (descend decode m t p).bind fun u => decode (m u i) := by
  rw [descend_append]
  congr 1
  funext u
  simp [descend]

theorem descend_concat_of_some {m : τ → ι → ε} {root t : τ} {p : List ι}
    (h : descend decode m root p = some t) (i : ι) :
    descend decode m root (p ++ [i]) = decode (m t i) := by
  rw [descend_concat, h]
  rfl

end Descend

/-- Overwrite one entry of one table. -/
def write [DecidableEq τ] [DecidableEq ι] (m : τ → ι → ε) (t : τ) (i : ι) (e : ε) : τ → ι → ε :=
  Function.update m t (Function.update (m t) i e)

section Write

variable [DecidableEq τ] [DecidableEq ι] {m : τ → ι → ε} {t u : τ} {i j : ι} {e : ε}

@[simp] theorem write_self : write m t i e t i = e := by
  simp [write]

theorem write_of_table_ne (h : u ≠ t) : write m t i e u j = m u j := by
  simp [write, Function.update_of_ne h]

theorem write_of_index_ne (h : j ≠ i) : write m t i e u j = m u j := by
  by_cases hu : u = t
  · subst hu
    simp [write, Function.update_of_ne h]
  · exact write_of_table_ne hu

end Write

/-- The tables of `m` below `root` form a tree with `depth` levels of links. The
tables in `fresh` are filled with `empty` and not part of the tree yet, and
every link of the tree is an entry made by `link`. -/
structure IsTree (decode : ε → Option τ) (link : τ → ε) (empty : ε)
    (m : τ → ι → ε) (root : τ) (depth : ℕ) (fresh : Set τ) : Prop where
  /-- No table is reached along two paths. -/
  inj : ∀ ⦃p q t⦄, p.length ≤ depth → q.length ≤ depth →
    descend decode m root p = some t → descend decode m root q = some t → p = q
  /-- Fresh tables are not reached. -/
  unreached : ∀ ⦃n p⦄, n ∈ fresh → p.length ≤ depth → descend decode m root p ≠ some n
  /-- Fresh tables are empty. -/
  blank : ∀ ⦃n⦄, n ∈ fresh → ∀ i, m n i = empty
  /-- Links have the one form `link` gives them. -/
  canonical : ∀ ⦃p t i u⦄, p.length < depth → descend decode m root p = some t →
    decode (m t i) = some u → m t i = link u

namespace IsTree

variable {decode : ε → Option τ} {link : τ → ε} {empty : ε} {m : τ → ι → ε}
  {root : τ} {depth : ℕ} {fresh : Set τ} {p q : List ι} {t n : τ} {i j : ι} {e : ε}

/-- A memory in which the root and all reserved tables are empty is a tree. -/
theorem of_empty (hempty : decode empty = none) (hroot : ∀ i, m root i = empty)
    (hfresh : ∀ n ∈ fresh, n ≠ root ∧ ∀ i, m n i = empty) :
    IsTree decode link empty m root depth fresh := by
  have hnone : ∀ p : List ι, p ≠ [] → descend decode m root p = none := by
    intro p hp
    cases p with
    | nil => exact absurd rfl hp
    | cons i is => simp [descend, hroot, hempty]
  refine ⟨?_, ?_, fun n hn => (hfresh n hn).2, ?_⟩
  · intro p q t _ _ hp hq
    by_cases hp0 : p = []
    · by_cases hq0 : q = []
      · rw [hp0, hq0]
      · rw [hnone q hq0] at hq
        cases hq
    · rw [hnone p hp0] at hp
      cases hp
  · intro n p hn _ hp
    by_cases hp0 : p = []
    · subst hp0
      exact (hfresh n hn).1 (Option.some.inj hp).symm
    · rw [hnone p hp0] at hp
      cases hp
  · intro p t i u _ hp hu
    by_cases hp0 : p = []
    · subst hp0
      obtain rfl := Option.some.inj hp
      rw [hroot, hempty] at hu
      cases hu
    · rw [hnone p hp0] at hp
      cases hp

/-- A fresh table differs from every table of the tree. -/
theorem ne_of_fresh (h : IsTree decode link empty m root depth fresh) (hn : n ∈ fresh)
    (hp : p.length ≤ depth) (ht : descend decode m root p = some t) : n ≠ t := by
  rintro rfl
  exact h.unreached hn hp ht

/-- Tables at the ends of paths of different lengths are different. -/
theorem ne_of_length_ne {u : τ} (h : IsTree decode link empty m root depth fresh)
    (hq : q.length ≤ depth) (hp : p.length ≤ depth) (hu : descend decode m root q = some u)
    (ht : descend decode m root p = some t) (hne : q.length ≠ p.length) : u ≠ t := by
  rintro rfl
  exact hne (congrArg List.length (h.inj hq hp hu ht))

variable [DecidableEq τ] [DecidableEq ι]

/-! ### Linking a fresh table -/

section Link

variable (h : IsTree decode link empty m root depth fresh) (hempty : decode empty = none)
  (hp : p.length < depth) (ht : descend decode m root p = some t)
  (habsent : decode (m t i) = none) (hn : n ∈ fresh) (hlink : decode (link n) = some n)

include h hempty hp ht habsent hn hlink

/-- Linking a fresh table below `p` at index `i` adds the path `p ++ [i]` and
leaves all other paths as they were. -/
theorem descend_link (hq : q.length ≤ depth) :
    descend decode (write m t i (link n)) root q =
      if q = p ++ [i] then some n else descend decode m root q := by
  -- from the end of the path: only its last index can use the new link
  induction q using List.reverseRecOn with
  | nil => simp
  | append_singleton q j ih =>
    have hq' : q.length ≤ depth := by
      rw [List.length_append, List.length_singleton] at hq
      omega
    rw [descend_concat, ih hq']
    by_cases hqp : q = p ++ [i]
    · -- below the new link there is only the empty fresh table
      have hold : descend decode m root q = none := by
        rw [hqp, descend_concat_of_some ht, habsent]
      have hne : q ++ [j] ≠ p ++ [i] := by
        intro he
        have hlen := congrArg List.length he
        simp [hqp] at hlen
      have hnt : n ≠ t := h.ne_of_fresh hn hp.le ht
      rw [if_pos hqp, if_neg hne, descend_concat, hold]
      simp [write_of_table_ne hnt, h.blank hn, hempty]
    · rw [if_neg hqp, descend_concat]
      cases hu : descend decode m root q with
      | none =>
        have hne : q ++ [j] ≠ p ++ [i] := by
          intro he
          obtain ⟨rfl, -⟩ := List.append_inj' he rfl
          rw [ht] at hu
          cases hu
        simp [hne]
      | some u =>
        by_cases hut : u = t
        · -- the table written to is reached along `p` only
          subst hut
          obtain rfl := h.inj hq' hp.le hu ht
          by_cases hji : j = i
          · subst hji
            simp [hlink]
          · simp [hji, write_of_index_ne hji]
        · have hne : q ++ [j] ≠ p ++ [i] := by
            intro he
            obtain ⟨rfl, -⟩ := List.append_inj' he rfl
            rw [ht] at hu
            exact hut (Option.some.inj hu).symm
          simp [hne, write_of_table_ne hut]

/-- Linking a fresh table keeps the tree and uses that table up. -/
theorem link_fresh :
    IsTree decode link empty (write m t i (link n)) root depth (fresh \ {n}) := by
  have hdesc : ∀ {q : List ι}, q.length ≤ depth → descend decode (write m t i (link n)) root q =
      if q = p ++ [i] then some n else descend decode m root q :=
    fun hq => h.descend_link hempty hp ht habsent hn hlink hq
  refine ⟨?_, ?_, ?_, ?_⟩
  · intro q₁ q₂ u hq₁ hq₂ hu₁ hu₂
    rw [hdesc hq₁] at hu₁
    rw [hdesc hq₂] at hu₂
    split at hu₁
    · next he₁ =>
      obtain rfl := Option.some.inj hu₁
      split at hu₂
      · next he₂ => rw [he₁, he₂]
      · exact absurd hu₂ (h.unreached hn hq₂)
    · split at hu₂
      · obtain rfl := Option.some.inj hu₂
        exact absurd hu₁ (h.unreached hn hq₁)
      · exact h.inj hq₁ hq₂ hu₁ hu₂
  · intro k q hk hq
    rw [hdesc hq]
    split
    · intro he
      exact hk.2 (Option.some.inj he).symm
    · exact h.unreached hk.1 hq
  · intro k hk j
    rw [write_of_table_ne (h.ne_of_fresh hk.1 hp.le ht)]
    exact h.blank hk.1 j
  · intro q u j v hq hu hv
    rw [hdesc hq.le] at hu
    split at hu
    · -- the new table has no links yet
      obtain rfl := Option.some.inj hu
      rw [write_of_table_ne (h.ne_of_fresh hn hp.le ht), h.blank hn, hempty] at hv
      cases hv
    · by_cases hut : u = t
      · subst hut
        by_cases hji : j = i
        · subst hji
          rw [write_self, hlink] at hv
          rw [write_self, Option.some.inj hv]
        · rw [write_of_index_ne hji] at hv ⊢
          exact h.canonical hq hu hv
      · rw [write_of_table_ne hut] at hv ⊢
        exact h.canonical hq hu hv

/-- Entries of the last level after linking a fresh table: only the entries of
the new table are added, and these are empty. -/
theorem lookup_link (hq : q.length = depth) (j : ι) :
    lookup decode (write m t i (link n)) root q j =
      if q = p ++ [i] then some empty else lookup decode m root q j := by
  rw [lookup, lookup, h.descend_link hempty hp ht habsent hn hlink hq.le]
  split
  · simp [write_of_table_ne (h.ne_of_fresh hn hp.le ht), h.blank hn]
  · cases hu : descend decode m root q with
    | none => rfl
    | some u =>
      have hut : u ≠ t := h.ne_of_length_ne hq.le hp.le hu ht (by omega)
      simp [write_of_table_ne hut]

end Link

/-! ### Overwriting an entry of the last level -/

section SetLeaf

variable (h : IsTree decode link empty m root depth fresh)
  (hp : p.length = depth) (ht : descend decode m root p = some t)

include h hp ht

/-- Entries of the last level are not followed by any path of the tree. -/
theorem descend_setLeaf (hq : q.length ≤ depth) :
    descend decode (write m t i e) root q = descend decode m root q := by
  induction q using List.reverseRecOn with
  | nil => rfl
  | append_singleton q j ih =>
    have hlt : q.length < depth := by
      rw [List.length_append, List.length_singleton] at hq
      omega
    rw [descend_concat, descend_concat, ih hlt.le]
    cases hu : descend decode m root q with
    | none => rfl
    | some u =>
      have hut : u ≠ t := h.ne_of_length_ne hlt.le hp.le hu ht (by omega)
      simp [write_of_table_ne hut]

/-- Overwriting an entry of the last level keeps the tree. -/
theorem setLeaf : IsTree decode link empty (write m t i e) root depth fresh := by
  have hdesc : ∀ {q : List ι}, q.length ≤ depth →
      descend decode (write m t i e) root q = descend decode m root q :=
    fun hq => h.descend_setLeaf hp ht hq
  refine ⟨?_, ?_, ?_, ?_⟩
  · intro q₁ q₂ u hq₁ hq₂ hu₁ hu₂
    rw [hdesc hq₁] at hu₁
    rw [hdesc hq₂] at hu₂
    exact h.inj hq₁ hq₂ hu₁ hu₂
  · intro k q hk hq
    rw [hdesc hq]
    exact h.unreached hk hq
  · intro k hk j
    rw [write_of_table_ne (h.ne_of_fresh hk hp.le ht)]
    exact h.blank hk j
  · intro q u j v hq hu hv
    rw [hdesc hq.le] at hu
    have hut : u ≠ t := h.ne_of_length_ne hq.le hp.le hu ht (by omega)
    rw [write_of_table_ne hut] at hv ⊢
    exact h.canonical hq hu hv

/-- Overwriting an entry of the last level changes the lookup of that entry only. -/
theorem lookup_setLeaf (hq : q.length = depth) :
    lookup decode (write m t i e) root q j =
      if q = p ∧ j = i then some e else lookup decode m root q j := by
  rw [lookup, lookup, h.descend_setLeaf hp ht hq.le]
  cases hu : descend decode m root q with
  | none =>
    have hne : q ≠ p := by
      rintro rfl
      rw [ht] at hu
      cases hu
    simp [hne]
  | some u =>
    by_cases hut : u = t
    · subst hut
      obtain rfl := h.inj hq.le hp.le hu ht
      by_cases hji : j = i
      · subst hji
        simp
      · simp [hji, write_of_index_ne hji]
    · have hne : q ≠ p := by
        rintro rfl
        rw [ht] at hu
        exact hut (Option.some.inj hu).symm
      simp [hne, write_of_table_ne hut]

end SetLeaf

end IsTree

end RadixTree
