import Mathlib.Data.List.Basic
import Mathlib.Order.Monotone.Basic

/-!
# Polled output

A driver puts items into a device one by one. It reads a flag until the device is ready and
then writes, while the device takes items off its queue at times of its own choice. A write to
a full queue loses the item.

Driver and device run in any order. What has left the device, what is in its queue and what is
still to be written are always the same sequence together (`content_trajectory`), and under a
fair schedule all of it leaves the device (`exists_delivered`). The second result rests on two
rules for fair runs: what everyone keeps and one of the agents ends, does end
(`exists_of_ensures`), and a machine whose steps either change nothing or make a measure smaller
comes to rest (`exists_resting`).
-/

/-! ### Fair runs -/

namespace FairRun

variable {σ ι : Type*}

/-- The state after the first steps of an infinite schedule. -/
def trajectory (step : σ → ι → σ) (schedule : ℕ → ι) (s : σ) : ℕ → σ
  | 0 => s
  | n + 1 => step (trajectory step schedule s n) (schedule n)

/-- Everyone has a turn again and again. -/
def Fair (schedule : ℕ → ι) : Prop := ∀ i n, ∃ m, n ≤ m ∧ schedule m = i

/-- No step changes the state. -/
def Resting (step : σ → ι → σ) (s : σ) : Prop := ∀ i, step s i = s

variable {step : σ → ι → σ} {schedule : ℕ → ι} {s : σ}

theorem trajectory_add (n k : ℕ) :
    trajectory step schedule s (n + k) =
      trajectory step (fun m => schedule (n + m)) (trajectory step schedule s n) k := by
  induction k with
  | zero => rfl
  | succ k ih => rw [← Nat.add_assoc, trajectory, ih, trajectory]

/-- What a step keeps holds along a run. -/
theorem trajectory_invariant {I : σ → Prop} (hstep : ∀ s i, I s → I (step s i))
    (hs : I s) (n : ℕ) : I (trajectory step schedule s n) := by
  induction n with
  | zero => exact hs
  | succ n ih => exact hstep _ _ ih

/-- Machines related step by step stay related. -/
theorem trajectory_simulation {τ : Type*} {step' : τ → ι → τ} {R : σ → τ → Prop} {t : τ}
    (hstep : ∀ s t i, R s t → R (step s i) (step' t i)) (h : R s t) (schedule : ℕ → ι) (n : ℕ) :
    R (trajectory step schedule s n) (trajectory step' schedule t n) := by
  induction n with
  | zero => exact h
  | succ n ih => exact hstep _ _ _ ih

theorem Fair.shift (h : Fair schedule) (n : ℕ) : Fair fun m => schedule (n + m) := by
  intro i k
  obtain ⟨m, hm, hi⟩ := h i (n + k)
  refine ⟨m - n, by omega, ?_⟩
  show schedule (n + (m - n)) = i
  rw [Nat.add_sub_cancel' (by omega)]
  exact hi

/-- Every step keeps `P` or reaches `Q`, and the step of `i` reaches `Q`. Then `Q` is reached. -/
theorem Fair.exists_of_ensures (hfair : Fair schedule) {P Q : σ → Prop}
    (hstep : ∀ s i, P s → P (step s i) ∨ Q (step s i)) {i : ι} (hi : ∀ s, P s → Q (step s i))
    (hs : P s) : ∃ n, Q (trajectory step schedule s n) := by
  obtain ⟨m, -, hm⟩ := hfair i 0
  -- `P` lasts up to the turn of `i`, or `Q` was reached before it
  have hlast : ∀ k, P (trajectory step schedule s k) ∨
      ∃ n, Q (trajectory step schedule s n) := by
    intro k
    induction k with
    | zero => exact .inl hs
    | succ k ih =>
      obtain hP | hQ := ih
      · exact (hstep _ (schedule k) hP).imp_right fun hQ => ⟨k + 1, hQ⟩
      · exact .inr hQ
  obtain hP | hQ := hlast m
  · refine ⟨m + 1, ?_⟩
    rw [trajectory, hm]
    exact hi _ hP
  · exact hQ

/-- A fair run comes to rest. -/
theorem exists_resting (measure : σ → ℕ)
    (hstep : ∀ s i, step s i = s ∨ measure (step s i) < measure s) (hfair : Fair schedule)
    (s : σ) : ∃ n, Resting step (trajectory step schedule s n) := by
  induction hmeasure : measure s using Nat.strong_induction_on generalizing s schedule with
  | _ k ih =>
    by_cases hrest : Resting step s
    · exact ⟨0, hrest⟩
    · obtain ⟨i, hi⟩ := not_forall.mp hrest
      obtain ⟨n, hlt⟩ : ∃ n, measure (trajectory step schedule s n) < measure s := by
        refine hfair.exists_of_ensures (P := (· = s)) (Q := fun t => measure t < measure s) (i := i)
          ?_ ?_ rfl
        · rintro _ j rfl
          exact hstep _ j
        · rintro _ rfl
          exact (hstep _ i).resolve_left hi
      obtain ⟨n', hrest'⟩ := ih _ (hmeasure ▸ hlt) (hfair.shift n) _ rfl
      exact ⟨n + n', by rw [trajectory_add]; exact hrest'⟩

theorem Resting.trajectory (h : Resting step s) (n : ℕ) :
    FairRun.trajectory step schedule s n = s := by
  induction n with
  | zero => rfl
  | succ n ih => rw [FairRun.trajectory, ih, h]

end FairRun

/-! ### The driver and the device -/

namespace Polling

variable {α : Type*}

/-- A device with a queue, and the flag that is polled. -/
structure Port (α : Type*) where
  capacity : ℕ
  /-- As many items are in the queue at most when it is polled. -/
  window : ℕ
  window_le : window ≤ capacity
  ready : List α → Bool
  room : ∀ queue, ready queue = true → queue.length < window
  ready_nil : ready [] = true

/-- Who takes the next step. -/
inductive Agent where
  | driver
  | device
  deriving DecidableEq, Repr

structure State (α : Type*) where
  /-- What has left the device. -/
  passed : List α
  queue : List α
  /-- What is still to be written. -/
  rest : List α
  /-- The flag was seen for the next item. -/
  polled : Bool

namespace State

variable (port : Port α) (s : State α)

/-- A write. -/
def write (item : α) : List α :=
  if s.queue.length < port.capacity then s.queue ++ [item] else s.queue

/-- One access of the driver: it reads the flag, or writes when it has seen it. -/
def drive : State α :=
  match s.rest with
  | [] => s
  | item :: rest =>
    if s.polled then { s with queue := s.write port item, rest, polled := false }
    else { s with polled := port.ready s.queue }

/-- The device takes an item off its queue. -/
def drain : State α :=
  match s.queue with
  | [] => s
  | item :: queue => { s with passed := s.passed ++ [item], queue }

def step : Agent → State α
  | .driver => s.drive port
  | .device => s.drain

/-- All items, in order. -/
def content : List α := s.passed ++ s.queue ++ s.rest

/-- There is room when the flag was seen. -/
structure Inv : Prop where
  queue_le : s.queue.length ≤ port.window
  polled : s.polled = true → s.queue.length < port.window

/-- What is left to do. An item counts for its poll, its write and its way through the queue. -/
def remaining : ℕ := 3 * s.rest.length + s.queue.length + if s.polled then 0 else 1

end State

variable {port : Port α} {s : State α}

theorem State.write_of_lt {item : α} (h : s.queue.length < port.window) :
    s.write port item = s.queue ++ [item] := if_pos (h.trans_le port.window_le)

theorem State.Inv.step (h : s.Inv port) (agent : Agent) : (s.step port agent).Inv port := by
  cases agent with
  | driver =>
    rw [State.step, State.drive]
    split
    · exact h
    · split
      · next hpolled =>
        refine ⟨?_, fun hfalse => absurd hfalse Bool.false_ne_true⟩
        show (s.write port _).length ≤ port.window
        rw [State.write_of_lt (h.polled hpolled), List.length_append, List.length_singleton]
        exact h.polled hpolled
      · exact ⟨h.queue_le, fun hready => port.room _ hready⟩
  | device =>
    rw [State.step, State.drain]
    split
    · exact h
    · next item queue hqueue =>
      have hlength : s.queue.length = queue.length + 1 := by rw [hqueue, List.length_cons]
      refine ⟨?_, fun hpolled => ?_⟩
      · have hle := h.queue_le
        show queue.length ≤ port.window
        omega
      · have hlt := h.polled hpolled
        show queue.length < port.window
        omega

/-- Items are written from the front. -/
theorem rest_step (s : State α) (agent : Agent) : (s.step port agent).rest <:+ s.rest := by
  cases agent with
  | driver =>
    rw [State.step, State.drive]
    split
    · exact List.suffix_rfl
    · next item rest hrest =>
      split
      · rw [hrest]
        exact List.suffix_cons item rest
      · exact List.suffix_rfl
  | device =>
    rw [State.step, State.drain]
    split <;> exact List.suffix_rfl

/-- No step loses, doubles or reorders an item. -/
theorem content_step (h : s.Inv port) (agent : Agent) :
    (s.step port agent).content = s.content := by
  cases agent with
  | driver =>
    rw [State.step, State.drive]
    split
    · rfl
    · next item rest hrest =>
      split
      · next hpolled =>
        simp only [State.content, State.write_of_lt (h.polled hpolled), hrest, List.append_assoc,
          List.singleton_append]
      · rfl
  | device =>
    rw [State.step, State.drain]
    split
    · rfl
    · next item queue hqueue =>
      simp only [State.content, hqueue, List.append_assoc, List.cons_append, List.nil_append]

/-- In any order of steps. -/
theorem content_trajectory (h : s.Inv port) (schedule : ℕ → Agent) (n : ℕ) :
    (FairRun.trajectory (State.step port) schedule s n).Inv port ∧
      (FairRun.trajectory (State.step port) schedule s n).content = s.content := by
  refine FairRun.trajectory_invariant
    (I := fun t : State α => t.Inv port ∧ t.content = s.content) ?_ ⟨h, rfl⟩ n
  rintro t agent ⟨hinv, hcontent⟩
  exact ⟨hinv.step agent, (content_step hinv agent).trans hcontent⟩

/-- A step changes nothing or leaves less to do. -/
theorem step_eq_or_lt (s : State α) (agent : Agent) :
    s.step port agent = s ∨ (s.step port agent).remaining < s.remaining := by
  cases agent with
  | driver =>
    rw [State.step, State.drive]
    split
    · exact .inl rfl
    · next item rest hrest =>
      split
      · next hpolled =>
        refine .inr ?_
        have hwrite : (s.write port item).length ≤ s.queue.length + 1 := by
          rw [State.write]
          split
          · rw [List.length_append, List.length_singleton]
          · exact Nat.le_succ _
        simp only [State.remaining, hrest, hpolled, List.length_cons, if_true,
          Bool.false_eq_true, if_false]
        omega
      · next hpolled =>
        rw [Bool.not_eq_true] at hpolled
        cases hready : port.ready s.queue with
        | false => exact .inl (by rw [← hpolled])
        | true => exact .inr (by simp [State.remaining, hpolled])
  | device =>
    rw [State.step, State.drain]
    split
    · exact .inl rfl
    · next item queue hqueue =>
      refine .inr ?_
      simp only [State.remaining, hqueue, List.length_cons]
      omega

/-- At rest, everything has left the device. -/
theorem passed_of_resting (h : FairRun.Resting (State.step port) s) :
    s.queue = [] ∧ s.rest = [] := by
  have hqueue : s.queue = [] := by
    have hdrain := h .device
    rw [State.step, State.drain] at hdrain
    split at hdrain
    · assumption
    · next item queue hqueue =>
      have hpassed := congrArg (fun t => t.passed.length) hdrain
      simp at hpassed
  refine ⟨hqueue, ?_⟩
  have hdrive := h .driver
  rw [State.step, State.drive] at hdrive
  split at hdrive
  · assumption
  · next item rest hrest =>
    -- the flag is seen for an empty queue, and then there is a write
    split at hdrive
    · have hlength := congrArg (fun t => t.rest.length) hdrive
      simp [hrest] at hlength
    · next hpolled =>
      have hseen := congrArg State.polled hdrive
      rw [hqueue] at hseen
      exact absurd (hseen.symm.trans port.ready_nil) hpolled

/-- Under a fair schedule all items leave the device in order, and then nothing more
happens. -/
theorem exists_delivered (h : s.Inv port) {schedule : ℕ → Agent} (hfair : FairRun.Fair schedule) :
    ∃ n, ∀ m, n ≤ m →
      (FairRun.trajectory (State.step port) schedule s m).passed = s.content ∧
        (FairRun.trajectory (State.step port) schedule s m).queue = [] ∧
        (FairRun.trajectory (State.step port) schedule s m).rest = [] := by
  obtain ⟨n, hrest⟩ := FairRun.exists_resting State.remaining step_eq_or_lt hfair s
  refine ⟨n, fun m hm => ?_⟩
  obtain ⟨k, rfl⟩ := Nat.exists_eq_add_of_le hm
  rw [FairRun.trajectory_add, hrest.trajectory]
  obtain ⟨hqueue, hdone⟩ := passed_of_resting hrest
  have hall := (content_trajectory h schedule n).2
  rw [State.content, hqueue, hdone, List.append_nil, List.append_nil] at hall
  exact ⟨hall, hqueue, hdone⟩

end Polling
