import SimurghHal.Devices.Timer
import SimurghHal.Lib.Simulation

/-!
# One-shot deadlines and the timer interrupt

The timer of the crate with its hardware. On x86_64 a deadline that is reached disarms itself
and leaves an interrupt pending. On ARM64 and RISC-V the interrupt is asserted for as long as
the counter has reached the comparator. The dispatch functions call the registered callback
and do nothing to the timer themselves.

Successful calls of `set_oneshot` are numbered from 1 on. A call of the callback belongs to
the one whose deadline has raised the interrupt.
-/

namespace SimurghHal.Oneshot

variable {C : Type} {arch : Arch}

/-- The interrupt is level-sensitive. -/
def level : Arch → Bool
  | .x86_64 => false
  | .arm64 => true
  | .riscv64 => true

/-- The comparator that stands for no deadline. -/
def disarmed : Arch → UInt64
  | .x86_64 => 0
  | .arm64 => 0xFFFFFFFFFFFFFFFF
  | .riscv64 => 0xFFFFFFFFFFFFFFFF

/-- The timer hardware and the callback. The last three fields record what has happened: the
number of successful calls of `set_oneshot`, whether there was none since the last
`cancel_oneshot`, and the numbers for which the callback has been called. -/
structure Clock (C : Type) where
  counter : UInt64
  comparator : UInt64
  pending : Option ℕ
  callback : Option C
  sets : ℕ
  idle : Bool
  invoked : List ℕ

inductive TimerOp (C : Type) where
  /-- The counter reaches a value. -/
  | tick (counter : UInt64)
  | setOneshot (deadlineNs : UInt64) (mode : TimerMode)
  | cancelOneshot
  | setTimerCallback (callback : C)

/-- An operation, or a dispatch of the timer interrupt with what the callback does in it. -/
inductive TimerEvent (C : Type) where
  | op (op : TimerOp C)
  | interrupt (body : List (TimerOp C))

/-- A deadline of x86_64 that has been reached. -/
def settle (arch : Arch) (s : Clock C) : Clock C :=
  if level arch = false ∧ s.comparator ≠ 0 ∧ s.comparator ≤ s.counter then
    { s with comparator := 0, pending := s.pending.or (some s.sets) }
  else s

/-- The number of the deadline for which the interrupt is asserted. -/
def asserted (arch : Arch) (s : Clock C) : Option ℕ :=
  if level arch then if s.comparator ≤ s.counter then some s.sets else none
  else s.pending

section Machine

variable (timer : Timer arch)

def perform (s : Clock C) : TimerOp C → Clock C
  | .tick counter => if s.counter ≤ counter then settle arch { s with counter } else s
  | .setOneshot deadlineNs mode =>
    match timer.setOneshot s.counter s.comparator deadlineNs mode with
    | (.ok _, comparator) =>
      settle arch { s with comparator, sets := s.sets + 1, idle := false }
    | (.error _, comparator) => { s with comparator }
  | .cancelOneshot => { s with comparator := timer.cancelOneshot s.comparator, idle := true }
  | .setTimerCallback callback => { s with callback := some callback }

/-- The state in which `on_timer_interrupt` calls the callback for this deadline. -/
def called (s : Clock C) (id : ℕ) : Clock C :=
  { s with pending := none, invoked := id :: s.invoked }

/-- One event. There is no dispatch when the interrupt is not asserted. -/
def next (s : Clock C) : TimerEvent C → Clock C
  | .op op => perform timer s op
  | .interrupt body =>
    match asserted arch s with
    | none => s
    | some id =>
      if s.callback.isSome then body.foldl (perform timer) (called s id)
      else { s with pending := none }

/-- The callback is called for a successful `set_oneshot`, for the first time, and not between
a `cancel_oneshot` and the next successful `set_oneshot`. -/
def InvokesOnce (arch : Arch) (s : Clock C) : TimerEvent C → Prop
  | .op _ => True
  | .interrupt _ => ∀ id, asserted arch s = some id → s.callback.isSome = true →
      1 ≤ id ∧ id ≤ s.sets ∧ id ∉ s.invoked ∧ s.idle = false

/-! ### When this holds -/

/-- No cancelling while an interrupt is pending on x86_64, and no counter at its limit on the
other two. -/
def OpMeets (arch : Arch) (s : Clock C) : TimerOp C → Prop
  | .tick counter => level arch = true → counter ≠ 0xFFFFFFFFFFFFFFFF
  | .cancelOneshot => s.pending = none
  | _ => True

/-- The operation takes the deadline that has been reached away: it cancels, or it sets one
that lies in the future. -/
def Replaces (s : Clock C) : TimerOp C → Prop
  | .cancelOneshot => True
  | .setOneshot deadlineNs _ =>
    timer.supportsTickless = true ∧ nowNs timer.frequencyHz s.counter < deadlineNs
  | _ => False

/-- One of the operations does. -/
def ReplacesIn (s : Clock C) : List (TimerOp C) → Prop
  | [] => False
  | op :: body => Replaces timer s op ∨ ReplacesIn (perform timer s op) body

/-- The operations up to the next dispatch, if there is one. -/
def untilDispatch : List (TimerEvent C) → Option (List (TimerOp C))
  | [] => none
  | .op op :: events => (untilDispatch events).map (op :: ·)
  | .interrupt _ :: _ => some []

/-- The callback meets the conditions on operations too. Where the interrupt is level-sensitive,
the callback or what runs after it replaces the deadline before the next dispatch. -/
def Meets (s : Clock C) (events : List (TimerEvent C)) : TimerEvent C → Prop
  | .op op => OpMeets arch s op
  | .interrupt body => ∀ id, asserted arch s = some id → s.callback.isSome = true →
      Simulation.Every (perform timer) (OpMeets arch) (called s id) body ∧
        (level arch = true → ∀ after, untilDispatch events = some after →
          ReplacesIn timer (called s id) (body ++ after))

/-- Every event of the run does, with the events behind it. -/
def RunMeets : Clock C → List (TimerEvent C) → Prop
  | _, [] => True
  | s, event :: events => Meets timer s events event ∧ RunMeets (next timer s event) events

end Machine

theorem cancelOneshot_disarmed (timer : Timer arch) :
    timer.cancelOneshot (disarmed arch) = disarmed arch := by
  cases arch with
  | x86_64 => rfl
  | arm64 => rfl
  | riscv64 =>
    simp only [Timer.cancelOneshot, Riscv64.Timer.cancelOneshot, disarmed, ite_self]

/-- A timer that takes deadlines can cancel them. -/
theorem cancelOneshot_of_supportsTickless {timer : Timer arch}
    (h : timer.supportsTickless = true) (comparator : UInt64) :
    timer.cancelOneshot comparator = disarmed arch := by
  cases arch with
  | x86_64 => rfl
  | arm64 => rfl
  | riscv64 =>
    simp only [Timer.supportsTickless] at h
    simp only [Timer.cancelOneshot, Riscv64.Timer.cancelOneshot, h, if_true, disarmed]

theorem perform_setOneshot_of_replaces {timer : Timer arch} {s : Clock C} {deadlineNs : UInt64}
    {mode : TimerMode} (h : Replaces timer s (.setOneshot deadlineNs mode)) :
    perform timer s (.setOneshot deadlineNs mode) =
      settle arch { s with
        comparator := deadlineNsToTicks timer.frequencyHz deadlineNs
        sets := s.sets + 1
        idle := false } := by
  obtain ⟨hcapable, hfuture⟩ := h
  rw [perform, Timer.setOneshot_eq, if_neg, if_neg]
  · exact UInt64.not_le.mpr hfuture
  · rw [hcapable]
    exact Bool.false_ne_true.symm

/-- A refused call changes nothing. -/
theorem perform_setOneshot_of_not_replaces {timer : Timer arch} {s : Clock C}
    {deadlineNs : UInt64} {mode : TimerMode}
    (h : ¬ Replaces timer s (.setOneshot deadlineNs mode)) :
    perform timer s (.setOneshot deadlineNs mode) = s := by
  rw [perform, Timer.setOneshot_eq]
  by_cases hcapable : timer.supportsTickless = false
  · rw [if_pos hcapable]
  · have hlate : deadlineNs ≤ nowNs timer.frequencyHz s.counter :=
      UInt64.not_lt.mp fun hfuture => h ⟨Bool.not_eq_false _ ▸ hcapable, hfuture⟩
    rw [if_neg hcapable, if_pos hlate]

/-- The last deadline set can still raise an interrupt. -/
def Live (arch : Arch) (s : Clock C) : Prop :=
  if level arch then s.idle = false else s.comparator ≠ 0

/-- What holds between events. While a callback runs whose own deadline is still there, it
does not hold in the strict form. -/
structure Inv (timer : Timer arch) (strict : Prop) (s : Clock C) : Prop where
  invoked : ∀ id ∈ s.invoked, id ≤ s.sets ∧ (strict → Live arch s → id < s.sets)
  pending : ∀ id, s.pending = some id →
    1 ≤ id ∧ id ≤ s.sets ∧ id ∉ s.invoked ∧ (Live arch s → id < s.sets)
  idle : s.idle = true → s.pending = none ∧ s.comparator = disarmed arch
  counted : s.idle = false → 1 ≤ s.sets
  cancelled : timer.cancelOneshot s.comparator = disarmed arch
  level : level arch = true → s.pending = none ∧ s.counter ≠ 0xFFFFFFFFFFFFFFFF
  strict : Oneshot.level arch = false → strict

section Steps

variable {timer : Timer arch} {strict : Prop} {s : Clock C}

/-- A deadline of x86_64 that is reached becomes pending under its own number. -/
theorem Inv.settle (hs : Inv timer strict s) : Inv timer strict (settle arch s) := by
  rw [Oneshot.settle]
  split
  · next h =>
    obtain ⟨hlevel, harmed, -⟩ := h
    have hlive : Live arch s := by
      rw [Live, hlevel, if_neg Bool.false_ne_true]
      exact harmed
    have hx86 : arch = .x86_64 := by
      cases arch with
      | x86_64 => rfl
      | arm64 => cases hlevel
      | riscv64 => cases hlevel
    have hbusy : s.idle = false := by
      by_contra hidle
      apply harmed
      rw [(hs.idle (Bool.not_eq_false _ ▸ hidle)).2, hx86]
      rfl
    have hdead : ¬ Live arch
        { s with comparator := 0, pending := s.pending.or (some s.sets) } := by
      rw [Live, hlevel, if_neg Bool.false_ne_true]
      exact not_not.mpr rfl
    refine ⟨fun id hid => ⟨(hs.invoked id hid).1, fun _ h => absurd h hdead⟩, ?_,
      fun hidle => absurd (hbusy.symm.trans hidle) Bool.false_ne_true, hs.counted, ?_,
      fun h => absurd (hlevel.symm.trans h) Bool.false_ne_true, hs.strict⟩
    · intro id hid
      cases hpending : s.pending with
      | some i =>
        rw [hpending] at hid
        obtain rfl : i = id := Option.some.inj hid
        obtain ⟨hone, hle, hnew, -⟩ := hs.pending i hpending
        exact ⟨hone, hle, hnew, fun h => absurd h hdead⟩
      | none =>
        rw [hpending] at hid
        cases hid
        refine ⟨hs.counted hbusy, le_rfl, fun hmem => ?_, fun h => absurd h hdead⟩
        exact lt_irrefl _ ((hs.invoked _ hmem).2 (hs.strict hlevel) hlive)
    · subst hx86
      rfl
  · exact hs

theorem Inv.strengthen (hs : Inv timer strict s) (h : strict) : Inv timer True s :=
  ⟨fun id hid => ⟨(hs.invoked id hid).1, fun _ => (hs.invoked id hid).2 h⟩, hs.pending, hs.idle,
    hs.counted, hs.cancelled, hs.level, fun _ => trivial⟩

theorem Inv.weaken (hs : Inv timer True s) (h : Oneshot.level arch = false → strict) :
    Inv timer strict s :=
  ⟨fun id hid => ⟨(hs.invoked id hid).1, fun _ => (hs.invoked id hid).2 trivial⟩, hs.pending,
    hs.idle, hs.counted, hs.cancelled, hs.level, h⟩

theorem Inv.cancelOneshot (hs : Inv timer strict s) (hpending : s.pending = none) :
    Inv timer True (perform timer s .cancelOneshot) := by
  have hdead : ¬ Live arch (perform timer s .cancelOneshot) := by
    rw [Live]
    cases arch with
    | x86_64 => exact not_not.mpr rfl
    | arm64 => exact fun h : true = false => Bool.false_ne_true h.symm
    | riscv64 => exact fun h : true = false => Bool.false_ne_true h.symm
  refine ⟨fun id hid => ⟨(hs.invoked id hid).1, fun _ h => absurd h hdead⟩, ?_,
    fun _ => ⟨hpending, hs.cancelled⟩, fun h => absurd h.symm Bool.false_ne_true, ?_,
    hs.level, fun _ => trivial⟩
  · intro id hid
    cases hpending.symm.trans hid
  · show timer.cancelOneshot (timer.cancelOneshot s.comparator) = _
    rw [hs.cancelled, cancelOneshot_disarmed]

/-- A successful `set_oneshot` has a number of its own. -/
theorem Inv.setOneshot (hs : Inv timer strict s) {deadlineNs : UInt64} {mode : TimerMode}
    (h : Replaces timer s (.setOneshot deadlineNs mode)) :
    Inv timer True (perform timer s (.setOneshot deadlineNs mode)) := by
  rw [perform_setOneshot_of_replaces h]
  apply Inv.settle
  refine ⟨fun id hid => ⟨?_, fun _ _ => ?_⟩, fun id hid => ?_,
    fun h => absurd h Bool.false_ne_true, fun _ => Nat.le_add_left 1 _,
    cancelOneshot_of_supportsTickless h.1 _, hs.level, fun _ => trivial⟩
  · exact (hs.invoked id hid).1.trans (Nat.le_succ _)
  · exact Nat.lt_succ_of_le (hs.invoked id hid).1
  · obtain ⟨hone, hle, hnew, -⟩ := hs.pending id hid
    exact ⟨hone, hle.trans (Nat.le_succ _), hnew, fun _ => Nat.lt_succ_of_le hle⟩

theorem Inv.perform (hs : Inv timer strict s) {op : TimerOp C} (h : OpMeets arch s op) :
    Inv timer strict (perform timer s op) := by
  cases op with
  | tick counter =>
    rw [Oneshot.perform]
    split
    · apply Inv.settle
      exact ⟨hs.invoked, hs.pending, hs.idle, hs.counted, hs.cancelled,
        fun hlevel => ⟨(hs.level hlevel).1, h hlevel⟩, hs.strict⟩
    · exact hs
  | setOneshot deadlineNs mode =>
    by_cases hreplaces : Replaces timer s (.setOneshot deadlineNs mode)
    · exact (hs.setOneshot hreplaces).weaken hs.strict
    · rw [perform_setOneshot_of_not_replaces hreplaces]
      exact hs
  | cancelOneshot => exact (hs.cancelOneshot h).weaken hs.strict
  | setTimerCallback callback =>
    exact ⟨hs.invoked, hs.pending, hs.idle, hs.counted, hs.cancelled, hs.level, hs.strict⟩

theorem Inv.of_replaces (hs : Inv timer strict s) {op : TimerOp C} (h : OpMeets arch s op)
    (hreplaces : Replaces timer s op) : Inv timer True (Oneshot.perform timer s op) := by
  cases op with
  | tick counter => exact hreplaces.elim
  | setOneshot deadlineNs mode => exact hs.setOneshot hreplaces
  | cancelOneshot => exact hs.cancelOneshot h
  | setTimerCallback callback => exact hreplaces.elim

theorem Inv.body (hs : Inv timer strict s) {body : List (TimerOp C)}
    (hmeets : Simulation.Every (Oneshot.perform timer) (OpMeets arch) s body) :
    Inv timer strict (body.foldl (Oneshot.perform timer) s) := by
  induction body generalizing s with
  | nil => exact hs
  | cons op body ih =>
    obtain ⟨hop, hrest⟩ := hmeets
    exact ih (hs.perform hop) hrest

/-- The strict form is back once the deadline has been replaced, and until then it is still to be
replaced. -/
theorem Inv.body_replacing (hs : Inv timer strict s) {body after : List (TimerOp C)}
    (hmeets : Simulation.Every (Oneshot.perform timer) (OpMeets arch) s body)
    (h : ReplacesIn timer s (body ++ after)) :
    Inv timer True (body.foldl (Oneshot.perform timer) s) ∨
      ReplacesIn timer (body.foldl (Oneshot.perform timer) s) after := by
  induction body generalizing s strict with
  | nil => exact .inr h
  | cons op body ih =>
    obtain ⟨hop, hrest⟩ := hmeets
    rcases h with hreplaces | h
    · exact .inl ((hs.of_replaces hop hreplaces).body hrest)
    · exact ih (hs.perform hop) hrest h

/-- The number for which the interrupt is asserted has not been used. -/
theorem Inv.of_asserted (hs : Inv timer True s) {id : ℕ} (h : asserted arch s = some id) :
    1 ≤ id ∧ id ≤ s.sets ∧ id ∉ s.invoked ∧ s.idle = false := by
  have hbusy : s.idle = false := by
    by_contra hidle
    obtain ⟨hpending, hcomparator⟩ := hs.idle (Bool.not_eq_false _ ▸ hidle)
    rw [asserted, hpending, hcomparator] at h
    cases hlevel : Oneshot.level arch with
    | false =>
      rw [hlevel, if_neg Bool.false_ne_true] at h
      cases h
    | true =>
      rw [hlevel, if_pos rfl, if_neg] at h
      · cases h
      · -- a comparator at the limit is not reached
        intro hle
        have hlimit : disarmed arch = 0xFFFFFFFFFFFFFFFF := by
          cases arch with
          | x86_64 => cases hlevel
          | arm64 => rfl
          | riscv64 => rfl
        rw [hlimit, UInt64.le_iff_toNat_le] at hle
        have hcounter := s.counter.toNat_lt
        apply (hs.level hlevel).2
        apply UInt64.toNat_inj.mp
        simp only [UInt64.reduceToNat] at hle ⊢
        omega
  rw [asserted] at h
  cases hlevel : Oneshot.level arch with
  | false =>
    rw [hlevel, if_neg Bool.false_ne_true] at h
    obtain ⟨hone, hle, hnew, -⟩ := hs.pending id h
    exact ⟨hone, hle, hnew, hbusy⟩
  | true =>
    rw [hlevel, if_pos rfl] at h
    split at h
    · obtain rfl : s.sets = id := Option.some.inj h
      have hlive : Live arch s := by
        rw [Live, hlevel, if_pos rfl]
        exact hbusy
      exact ⟨hs.counted hbusy, le_rfl,
        fun hmem => lt_irrefl _ ((hs.invoked _ hmem).2 trivial hlive), hbusy⟩
    · cases h

theorem Inv.called (hs : Inv timer True s) {id : ℕ} (h : asserted arch s = some id) :
    Inv timer (Oneshot.level arch = false) (called s id) := by
  obtain ⟨-, hle, -, -⟩ := hs.of_asserted h
  refine ⟨?_, fun i hi => ?_, fun hidle => ⟨rfl, (hs.idle hidle).2⟩, hs.counted, hs.cancelled,
    fun hlevel => ⟨rfl, (hs.level hlevel).2⟩, fun hlevel => hlevel⟩
  · intro i hi
    rcases List.mem_cons.mp hi with rfl | hi
    · refine ⟨hle, fun hlevel hlive => ?_⟩
      rw [asserted, hlevel, if_neg Bool.false_ne_true] at h
      exact (hs.pending i h).2.2.2 hlive
    · exact ⟨(hs.invoked i hi).1, fun _ => (hs.invoked i hi).2 trivial⟩
  · cases hi

/-- A dispatch. Where the interrupt is level-sensitive, its deadline may still have to be replaced
before the next one. -/
theorem Inv.interrupt (hs : Inv timer True s) {body : List (TimerOp C)}
    {events : List (TimerEvent C)} (h : Meets timer s events (.interrupt body)) :
    Inv timer True (next timer s (.interrupt body)) ∨
      Inv timer (Oneshot.level arch = false) (next timer s (.interrupt body)) ∧
        ∀ after, untilDispatch events = some after →
          ReplacesIn timer (next timer s (.interrupt body)) after := by
  rw [Oneshot.next]
  split
  · exact .inl hs
  · next id hasserted =>
    split
    · next hcallback =>
      obtain ⟨hmeets, hreplaces⟩ := h id hasserted hcallback
      have hcalled := hs.called hasserted
      have hbody := hcalled.body hmeets
      cases hlevel : Oneshot.level arch with
      | false => exact .inl (hbody.strengthen hlevel)
      | true =>
        rw [← hlevel]
        cases huntil : untilDispatch events with
        | none => exact .inr ⟨hbody, fun after hafter => by cases hafter⟩
        | some after =>
          rcases hcalled.body_replacing hmeets (hreplaces hlevel after huntil) with hback | hstill
          · exact .inl hback
          · refine .inr ⟨hbody, fun after' hafter => ?_⟩
            obtain rfl := Option.some.inj hafter
            exact hstill
    · refine .inl ⟨hs.invoked, fun i hi => ?_, fun hidle => ⟨rfl, (hs.idle hidle).2⟩, hs.counted,
        hs.cancelled, fun hlevel => ⟨rfl, (hs.level hlevel).2⟩, hs.strict⟩
      cases hi

/-- What holds before the remaining events: the strict form, or the deadline will be replaced before
the next dispatch. -/
theorem Inv.every_invokesOnce {events : List (TimerEvent C)}
    (hs : Inv timer True s ∨ Inv timer (Oneshot.level arch = false) s ∧
      ∀ after, untilDispatch events = some after → ReplacesIn timer s after)
    (h : RunMeets timer s events) :
    Simulation.Every (next timer) (InvokesOnce arch) s events := by
  induction events generalizing s with
  | nil => trivial
  | cons event events ih =>
    obtain ⟨hmeets, hrest⟩ := h
    cases event with
    | op op =>
      refine ⟨trivial, ih ?_ hrest⟩
      rcases hs with hs | ⟨hs, hreplaced⟩
      · exact .inl (hs.perform hmeets)
      · by_cases hreplaces : Replaces timer s op
        · exact .inl (hs.of_replaces hmeets hreplaces)
        · refine .inr ⟨hs.perform hmeets, fun after hafter => ?_⟩
          have hlater := hreplaced (op :: after) (by rw [untilDispatch, hafter]; rfl)
          exact hlater.resolve_left hreplaces
    | interrupt body =>
      have hstrict : Inv timer True s := by
        rcases hs with hs | ⟨-, hreplaced⟩
        · exact hs
        · exact (hreplaced [] rfl).elim
      refine ⟨fun id hasserted _ => hstrict.of_asserted hasserted, ?_⟩
      exact ih (hstrict.interrupt hmeets) hrest

end Steps

/-! ### Runs -/

/-- After `Timer::new`, at a value of the counter. On x86_64 and RISC-V the constructor writes
nothing, and there is no deadline after a reset. -/
def start (arch : Arch) (counter : UInt64) : Clock C :=
  { counter
    comparator := disarmed arch
    pending := none
    callback := none
    sets := 0
    idle := true
    invoked := [] }

theorem inv_start (timer : Timer arch) {counter : UInt64}
    (hcounter : level arch = true → counter ≠ 0xFFFFFFFFFFFFFFFF) :
    Inv timer True (start arch counter : Clock C) := by
  refine ⟨fun id hid => ?_, fun id hid => ?_, fun _ => ⟨rfl, rfl⟩, fun h => ?_,
    cancelOneshot_disarmed timer, fun hlevel => ⟨rfl, hcounter hlevel⟩, fun _ => trivial⟩
  · cases hid
  · cases hid
  · cases h

/-- Where no reached deadline is cancelled on x86_64, and on the other two the deadline is replaced
between a call of the callback and the next dispatch, each deadline calls the callback at most once
and a cancelled one does not call it. -/
theorem callback_invokesOnce (timer : Timer arch) (counter : UInt64)
    (hcounter : level arch = true → counter ≠ 0xFFFFFFFFFFFFFFFF)
    (events : List (TimerEvent C)) (h : RunMeets timer (start arch counter) events) :
    Simulation.Every (next timer) (InvokesOnce arch) (start arch counter) events :=
  Inv.every_invokesOnce (.inl (inv_start timer hcounter)) h

/-- A timer for each architecture, two of 1 GHz and the one of the QEMU machine. -/
def sampleTimer : (arch : Arch) → Timer arch
  | .x86_64 => X86_64.Timer.mk 1000000000 true false
  | .arm64 => Arm64.Timer.mk 1000000000
  | .riscv64 => qemuTimer

/-- A deadline that has been reached, with a callback. -/
def reached : List (TimerEvent Unit) :=
  [.op (.setTimerCallback ()), .op (.setOneshot 1000 .interactive), .op (.tick 5000)]

/-- The next deadline is set by the callback, and then by the code that runs after it. -/
theorem callback_invokesOnce_rearmed :
    Simulation.Every (next (sampleTimer .arm64)) (InvokesOnce .arm64) (start .arm64 0)
      (reached ++ [.interrupt [.setOneshot 6000 .interactive], .op (.tick 7000), .interrupt [],
        .op (.setOneshot 8000 .interactive), .interrupt []]) := by
  refine callback_invokesOnce (sampleTimer .arm64) 0 (by decide) _
    ⟨trivial, trivial, fun _ => by decide, ?_, fun _ => by decide, ?_, trivial, ?_, trivial⟩
  · intro id _ _
    have hfuture : nowNs 1000000000 5000 < 6000 := by decide
    exact ⟨⟨trivial, trivial⟩, fun _ _ _ => .inl ⟨rfl, hfuture⟩⟩
  · intro id _ _
    have hfuture : nowNs 1000000000 7000 < 8000 := by decide
    refine ⟨trivial, fun _ after hafter => ?_⟩
    obtain rfl : [.setOneshot 8000 .interactive] = after := Option.some.inj hafter
    exact .inl ⟨rfl, hfuture⟩
  · intro id hasserted
    cases (show none = some id from hasserted)

/-- A callback that leaves the timer alone is called again for the same deadline on ARM64 and
RISC-V, and a deadline cancelled after it was reached still calls it on x86_64. -/
theorem callback_invoked_twice_or_cancelled :
    ¬ Simulation.Every (next (sampleTimer .arm64)) (InvokesOnce .arm64)
        (start .arm64 0) (reached ++ [.interrupt [], .interrupt []]) ∧
      ¬ Simulation.Every (next (sampleTimer .riscv64)) (InvokesOnce .riscv64)
        (start .riscv64 0) (reached ++ [.interrupt [], .interrupt []]) ∧
      ¬ Simulation.Every (next (sampleTimer .x86_64)) (InvokesOnce .x86_64)
        (start .x86_64 0) (reached ++ [.op .cancelOneshot, .interrupt []]) := by
  refine ⟨?_, ?_, ?_⟩
  · rintro ⟨-, -, -, -, hagain, -⟩
    exact (hagain 1 (by decide) rfl).2.2.1 (by decide)
  · rintro ⟨-, -, -, -, hagain, -⟩
    exact (hagain 1 (by decide) rfl).2.2.1 (by decide)
  · rintro ⟨-, -, -, -, hcancelled, -⟩
    exact absurd (hcancelled 1 (by decide) rfl).2.2.2 (by decide)

end SimurghHal.Oneshot
