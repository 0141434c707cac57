import SimurghHal.Lib.ByteMemory
import SimurghHal.Lib.Loop
import Mathlib.Logic.Function.Basic

/-!
# Loops that clear memory

`cleared` is memory with zeros from one address up to another. A loop that puts zeros at a
position and moves it on, byte by byte or word by word, clears the memory up to an end that the
position meets (`exists_reaches_cleared`).
-/

namespace ByteMemory

variable {mem : Bytes}

/-- Memory in which these bytes are zero and all others as before. -/
def cleared (mem : Bytes) (start stop : UInt64) : Bytes := fun a =>
  if start ≤ a ∧ a < stop then 0 else mem a

section Cleared

variable {start pos next : UInt64}

theorem cleared_self (mem : Bytes) (start : UInt64) : cleared mem start start = mem := by
  funext a
  refine if_neg fun h => ?_
  exact absurd (UInt64.lt_of_le_of_lt h.1 h.2) (UInt64.lt_irrefl start)

/-- A position that is not past some address has not gone around. -/
theorem toNat_add_of_le {step stop : UInt64} (h : pos.toNat + step.toNat ≤ stop.toNat) :
    (pos + step).toNat = pos.toNat + step.toNat := by
  rw [UInt64.toNat_add, Nat.mod_eq_of_lt (h.trans_lt stop.toNat_lt)]

/-- An address is below the next position when it is below this one or one of the bytes
between. -/
theorem lt_next_iff {n : ℕ} (hnext : next.toNat = pos.toNat + n) (a : UInt64) :
    a < next ↔ a < pos ∨ (a - pos).toNat < n := by
  rw [UInt64.lt_iff_toNat_lt, UInt64.lt_iff_toNat_lt, UInt64.toNat_sub]
  have ha := a.toNat_lt
  have hlt := next.toNat_lt
  omega

theorem le_of_sub_lt {n : ℕ} {a : UInt64} (hstart : start ≤ pos)
    (hnext : next.toNat = pos.toNat + n) (h : (a - pos).toNat < n) : start ≤ a := by
  rw [UInt64.le_iff_toNat_le] at hstart ⊢
  rw [UInt64.toNat_sub] at h
  have ha := a.toNat_lt
  have hlt := next.toNat_lt
  omega

/-- Zeros in the next bytes, and nothing else, clear the memory up to behind them. -/
theorem cleared_next {n : ℕ} {mem' : Bytes} (hstart : start ≤ pos)
    (hnext : next.toNat = pos.toNat + n)
    (h : ∀ a, mem' a = if (a - pos).toNat < n then 0 else cleared mem start pos a) :
    mem' = cleared mem start next := by
  funext a
  have hiff := lt_next_iff hnext a
  rw [h, cleared, cleared]
  by_cases hin : (a - pos).toNat < n
  · have hle := le_of_sub_lt hstart hnext hin
    rw [if_pos hin, if_pos ⟨hle, hiff.mpr (.inr hin)⟩]
  · rw [if_neg hin]
    simp only [hiff, hin, or_false]

theorem update_zero (mem : Bytes) (pos a : UInt64) :
    Function.update mem pos 0 a = if (a - pos).toNat < 1 then 0 else mem a := by
  have hiff : a = pos ↔ (a - pos).toNat < 1 := by
    rw [← UInt64.toNat_inj, UInt64.toNat_sub]
    have ha := a.toNat_lt
    have hpos := pos.toNat_lt
    omega
  rw [Function.update_apply]
  simp only [hiff]

theorem store64_zero (mem : Bytes) (pos a : UInt64) :
    store64 mem pos 0 a = if (a - pos).toNat < 8 then 0 else mem a := by
  rw [store64, UInt64.toNat_zero, Nat.zero_shiftRight]
  rfl

/-- A loop that clears the bytes up to the next position in each iteration gets to the end. -/
theorem exists_reaches_cleared {σ ρ : Type*} {body : σ → Option (Except ρ σ)} {Head : σ → Prop}
    {pos : σ → UInt64} {contents : σ → Bytes} {stop step : UInt64} (hpositive : 0 < step.toNat)
    (hstep : ∀ s, Head s → start ≤ pos s → pos s < stop → ∃ s', Loop.Reaches body s s' ∧
      Head s' ∧ pos s' = pos s + step ∧
        ∀ a, contents s' a = if (a - pos s).toNat < step.toNat then 0 else contents s a)
    (n : ℕ) {s : σ} (hs : Head s) (hstart : start ≤ pos s)
    (hstop : stop.toNat = (pos s).toNat + step.toNat * n)
    (hmem : contents s = cleared mem start (pos s)) :
    ∃ s', Loop.Reaches body s s' ∧ Head s' ∧ pos s' = stop ∧
      contents s' = cleared mem start stop := by
  induction n generalizing s with
  | zero =>
    have hend : pos s = stop := UInt64.toNat_inj.mp hstop.symm
    exact ⟨s, .refl, hs, hend, by rw [← hend]; exact hmem⟩
  | succ n ih =>
    rw [Nat.mul_succ] at hstop
    have hlt : pos s < stop := UInt64.lt_iff_toNat_lt.mpr (by omega)
    obtain ⟨s', hreach, hs', hpos, hcontents⟩ := hstep s hs hstart hlt
    have hnext : (pos s + step).toNat = (pos s).toNat + step.toNat :=
      toNat_add_of_le (show _ ≤ stop.toNat by omega)
    have hmem' : contents s' = cleared mem start (pos s + step) := by
      refine cleared_next hstart hnext fun a => ?_
      rw [hcontents, hmem]
    have hstart' : start ≤ pos s + step := by
      rw [UInt64.le_iff_toNat_le] at hstart ⊢
      omega
    rw [← hpos] at hnext hmem' hstart'
    obtain ⟨s'', hreach', hs'', hend⟩ := ih hs' hstart' (by omega) hmem'
    exact ⟨s'', hreach.trans hreach', hs'', hend⟩

/-- Entered at the start, such a loop clears the memory from there up to the end. -/
theorem exists_reaches_cleared_of_start {σ ρ : Type*} {body : σ → Option (Except ρ σ)}
    {Head : σ → Prop} {pos : σ → UInt64} {contents : σ → Bytes} {stop step : UInt64}
    (hpositive : 0 < step.toNat)
    (hstep : ∀ s, Head s → start ≤ pos s → pos s < stop → ∃ s', Loop.Reaches body s s' ∧
      Head s' ∧ pos s' = pos s + step ∧
        ∀ a, contents s' a = if (a - pos s).toNat < step.toNat then 0 else contents s a)
    {n : ℕ} (hstop : stop.toNat = start.toNat + step.toNat * n) {s : σ} (hs : Head s)
    (hpos : pos s = start) :
    ∃ s', Loop.Reaches body s s' ∧ Head s' ∧ pos s' = stop ∧
      contents s' = cleared (contents s) start stop := by
  refine exists_reaches_cleared hpositive hstep n hs (UInt64.le_of_eq hpos.symm) ?_ ?_
  · rw [hpos]
    exact hstop
  · rw [hpos, cleared_self]

end Cleared

end ByteMemory
