import SimurghHal.Lib.Simulation
import SimurghHal.Lib.Switching
import Mathlib.Data.List.Nodup

/-!
# Threads preempted by interrupts

An interrupt saves the registers of the running thread in a frame on its stack. Its handler
switches to another thread, which goes on in the handler of the interrupt that it was preempted
by, and returns from that. A `Platform` puts the code of an interrupt and the block of a switch
together. As long as threads leave each other's stacks alone, every thread gets its registers back
(`Platform.everyResumes`). Where it goes on is another question: the hardware may find that on
the stack of the thread, or in a register that the next interrupt writes over.
-/

namespace Preempting

variable {M R V I P S T : Type*}

/-- What an interrupt does to machines `M` with registers `R` and words or bytes `V` in memory.
There is an `I` to each interrupt, and the hardware saves a `P` of the interrupted code. -/
structure Interruption (M R V I P : Type*) where
  regs : M → R → UInt64
  mem : M → UInt64 → V
  sp : R
  /-- The interrupts that the code is made for, and the points where they may come. -/
  Takes : I → P → Prop
  /-- Up to the handler. -/
  enter : I → P → M → M
  /-- From the return of the handler on. -/
  leave : M → M
  /-- Where it returns to, by what the hardware has saved last and by what the handler returned
  with. -/
  resume : P → M → P
  /-- The part of the stack that it needs. -/
  Room : M → UInt64 → Prop

namespace Interruption

variable (x : Interruption M R V I P)

/-- The frame is between the two stack pointers. -/
def InFrame (interrupted entered : M) (a : UInt64) : Prop :=
  (a - x.regs entered x.sp).toNat < (x.regs interrupted x.sp - x.regs entered x.sp).toNat

/-- The handler keeps the stack pointer and the frame. -/
structure Returned (interrupted entered returned : M) : Prop where
  sp_eq : x.regs returned x.sp = x.regs entered x.sp
  frame_eq : ∀ a, x.InFrame interrupted entered a → x.mem returned a = x.mem entered a

/-- Then the registers are as they were. Nothing but this part of the stack is written to. -/
structure Transparent : Prop where
  mem_enter : ∀ i point m a, x.Takes i point → ¬ x.Room m a →
    x.mem (x.enter i point m) a = x.mem m a
  regs_leave : ∀ i point m returned, x.Takes i point →
    x.Returned m (x.enter i point m) returned → x.regs (x.leave returned) = x.regs m
  mem_leave : ∀ i point m returned, x.Takes i point →
    x.Returned m (x.enter i point m) returned → ∀ a, ¬ x.Room m a →
      x.mem (x.leave returned) a = x.mem returned a

/-- The hardware finds where to go on in the frame. -/
def FromFrame : Prop :=
  ∀ i point m latched returned, x.Takes i point → x.Returned m (x.enter i point m) returned →
    x.resume latched returned = point

/-- The hardware goes on where the last interrupt was. -/
def FromLatch : Prop := ∀ latched returned, x.resume latched returned = latched

end Interruption

/-- An interruption with a block that switches threads. -/
structure Platform (M R V I P S : Type*) extends Interruption M R V I P where
  code : Switching.Code S
  layout : Switching.Layout S
  /-- The registers that the block names too, with their names there. -/
  shared : List (R × S)
  withRegs : M → (R → UInt64) → M
  /-- The memory that the block pushes to. -/
  stack : M → UInt64 → UInt64
  withStack : M → (UInt64 → UInt64) → M

/-- A thread that was preempted: when it was interrupted, when its handler was entered, and when
that handler switched to another thread. -/
structure Parked (M P : Type*) where
  interrupted : M
  entered : M
  atSwitch : M
  point : P

/-- The hardware saves the interrupted `point` in `latched`. What is `parked` is a record of what
has happened. -/
structure Core (M P S T : Type*) where
  machine : M
  system : Switching.System S T
  point : P
  latched : P
  parked : T → Option (Parked M P)

/-- The running thread computes, or it is interrupted. What its handler does `before` the switch
and what the other handler does `after` it is any code. -/
inductive Event (M I P S T : Type*) where
  | program (next : M → M) (point : P)
  /-- `others` are the registers of the block that are not shared. -/
  | preempt (i : I) (before : M → M) (others : S → UInt64) (behind : UInt64) (dst : T)
      (after : M → M)
  /-- The switch is to a new thread. -/
  | start (i : I) (before : M → M) (others : S → UInt64) (behind : UInt64) (dst : T) (point : P)

/-- The point that the code of a thread comes to. -/
def Event.point? : Event M I P S T → Option P
  | .program _ point => some point
  | .preempt .. => none
  | .start _ _ _ _ _ point => some point

/-- Nothing has happened yet. -/
def Core.initial (machine : M) (registers : Switching.Machine S T) (running : T) (point : P) :
    Core M P S T :=
  ⟨machine, .start registers running 0, point, point, fun _ => none⟩

namespace Platform

variable [DecidableEq R] [DecidableEq S] [DecidableEq T] (p : Platform M R V I P S)

/-- The registers that the block finds. -/
def gather (m : M) (others : S → UInt64) (s : S) : UInt64 :=
  ((p.shared.find? fun q => q.2 = s).map fun q => p.regs m q.1).getD (others s)

/-- The registers that the block leaves. -/
def scatter (m : M) (regs : S → UInt64) (r : R) : UInt64 :=
  ((p.shared.find? fun q => q.1 = r).map fun q => regs q.2).getD (p.regs m r)

/-- The two parts fit together. -/
structure Lawful (T : Type*) [DecidableEq T] : Prop where
  transparent : p.Transparent
  implements : Switching.Implements T p.code p.layout
  fst_nodup : (p.shared.map Prod.fst).Nodup
  snd_nodup : (p.shared.map Prod.snd).Nodup
  sp_shared : (p.sp, p.code.sp) ∈ p.shared
  sp_saved : p.code.sp ∈ p.layout.saved
  regs_withRegs : ∀ m regs, p.regs (p.withRegs m regs) = regs
  mem_withRegs : ∀ m regs, p.mem (p.withRegs m regs) = p.mem m
  stack_withRegs : ∀ m regs, p.stack (p.withRegs m regs) = p.stack m
  regs_withStack : ∀ m stack, p.regs (p.withStack m stack) = p.regs m
  mem_stack : ∀ m, p.mem (p.withStack m (p.stack m)) = p.mem m
  /-- The block may push a word. -/
  mem_withStack : ∀ m (registers : Switching.Machine S T) src dst behind,
    registers.stack = p.stack m → ∀ a, a ≠ registers.regs p.code.sp - 8 →
      p.mem (p.withStack m
        (Switching.exec p.code.sp src dst behind p.code.block registers).1.stack) a = p.mem m a

variable (c : Core M P S T)

/-- The running thread at the switch. -/
def preempted (i : I) (before : M → M) : Parked M P :=
  let entered := p.enter i c.point c.machine
  ⟨c.machine, entered, before entered, c.point⟩

/-- The interrupt and its handler up to where the other thread goes on. -/
def switchTo (i : I) (before : M → M) (others : S → UInt64) (behind : UInt64) (dst : T) :
    Core M P S T :=
  let q := p.preempted c i before
  let m := q.atSwitch
  let ready := c.system.step p.code (.work (p.gather m others) (p.stack m))
  let system := ready.step p.code (.switch dst behind)
  { machine := p.withStack (p.withRegs m (p.scatter m system.machine.regs)) system.machine.stack
    system
    point := c.point
    latched := c.point
    parked := Function.update c.parked c.system.running (some q) }

def step : Event M I P S T → Core M P S T
  | .program next point => { c with machine := next c.machine, point }
  | .preempt i before others behind dst after =>
    let c' := p.switchTo c i before others behind dst
    let returned := after c'.machine
    { c' with machine := p.leave returned, point := p.resume c'.latched returned }
  | .start i before others behind dst point =>
    { p.switchTo c i before others behind dst with point }

section Stacks

variable (owner : UInt64 → Option T)

/-- Nothing is written to the stacks of other threads. -/
def Leaves (t : T) (m m' : M) : Prop :=
  ∀ a u, owner a = some u → u ≠ t → p.mem m' a = p.mem m a

/-- A handler goes on after a switch with the registers that the block saves, and with its stack,
of which the word below the stack pointer is not in use. -/
structure Continues (t : T) (q : Parked M P) (m : M) : Prop where
  regs_eq : ∀ r s, (r, s) ∈ p.shared → s ∈ p.layout.saved → p.regs m r = p.regs q.atSwitch r
  mem_eq : ∀ a, owner a = some t → a ≠ p.regs q.atSwitch p.sp - 8 →
    p.mem m a = p.mem q.atSwitch a

/-- The code is made for the interrupt, and what it and the switch need is on the stack of the
thread. Its handler leaves the other stacks alone. -/
structure InterruptObeys (i : I) (q : Parked M P) : Prop where
  takes : p.Takes i q.point
  room : ∀ a, p.Room q.interrupted a → owner a = some c.system.running
  below : owner (p.regs q.atSwitch p.sp - 8) = some c.system.running
  leaves : p.Leaves owner c.system.running q.entered q.atSwitch

/-- The handler of a parked thread leaves the other stacks alone. It relies on nothing else to
return to where it was called. -/
structure ReturnObeys (t : T) (q : Parked M P) (m returned : M) : Prop where
  leaves : p.Leaves owner t m returned
  returned : p.Continues owner t q m → p.Returned q.interrupted q.entered returned

def ObeysAt : Event M I P S T → Prop
  | .program next _ => p.Leaves owner c.system.running c.machine (next c.machine)
  | .preempt i before others behind dst after =>
    let c' := p.switchTo c i before others behind dst
    p.InterruptObeys c owner i (p.preempted c i before) ∧
      ∃ q, c'.parked dst = some q ∧ p.ReturnObeys owner dst q c'.machine (after c'.machine)
  | .start i before _ _ _ _ => p.InterruptObeys c owner i (p.preempted c i before)

/-- The thread that was preempted before goes on with its stack and its registers. -/
structure Resumes (dst : T) (q : Parked M P) (switched c' : Core M P S T) : Prop where
  running_eq : c'.system.running = dst
  continues : p.Continues owner dst q switched.machine
  regs_eq : p.regs c'.machine = p.regs q.interrupted

/-- Whenever a thread is resumed, `Q` holds of the point where it was interrupted, of that where
the thread before it was, and of that where the core goes on. -/
def ResumesAt (Q : P → P → P → Prop) : Event M I P S T → Prop
  | .preempt i before others behind dst after =>
    let switched := p.switchTo c i before others behind dst
    let c' := p.step c (.preempt i before others behind dst after)
    ∃ q, switched.parked dst = some q ∧ p.Resumes owner dst q switched c' ∧
      Q q.point c.point c'.point
  | .program .. | .start .. => True

def EveryObeys (events : List (Event M I P S T)) : Prop :=
  Simulation.Every p.step (fun c event => p.ObeysAt c owner event) c events

def EveryResumes (Q : P → P → P → Prop) (events : List (Event M I P S T)) : Prop :=
  Simulation.Every p.step (fun c event => p.ResumesAt c owner Q event) c events

/-- The thread has been preempted by an interrupt that had room on its stack. -/
structure Preempted (t : T) (q : Parked M P) : Prop where
  enter_eq : ∃ i, p.Takes i q.point ∧ q.entered = p.enter i q.point q.interrupted
  room : ∀ a, p.Room q.interrupted a → owner a = some t

/-- What a thread has parked is in its context and on its stack. -/
structure Holds (t : T) (q : Parked M P) : Prop where
  preempted : p.Preempted owner t q
  saved : ∃ snap, c.system.snapshots t = some snap ∧
    ∀ r s, (r, s) ∈ p.shared → s ∈ p.layout.saved → snap.regs s = p.regs q.atSwitch r
  mem_eq : ∀ a, owner a = some t → a ≠ p.regs q.atSwitch p.sp - 8 →
    p.mem c.machine a = p.mem q.atSwitch a

structure Inv : Prop where
  system : Switching.Inv p.layout c.system
  parked : ∀ t q, t ≠ c.system.running → c.parked t = some q → p.Holds c owner t q

end Stacks

/-! ### The registers of the block -/

theorem find?_eq_of_nodup {α β : Type*} [DecidableEq β] {f : α → β} {l : List α}
    (hnodup : (l.map f).Nodup) {q : α} (hq : q ∈ l) : l.find? (fun q' => f q' = f q) = some q := by
  have hsome : (l.find? fun q' => f q' = f q).isSome :=
    List.find?_isSome.mpr ⟨q, hq, decide_eq_true rfl⟩
  obtain ⟨q', hq'⟩ := Option.isSome_iff_exists.mp hsome
  have heq : f q' = f q := by simpa using List.find?_some hq'
  have hmem := List.mem_of_find?_eq_some hq'
  rw [hq', List.inj_on_of_nodup_map hnodup hmem hq heq]

variable {p c}

omit [DecidableEq R] in
theorem gather_shared (hp : p.Lawful T) {r : R} {s : S} (hshared : (r, s) ∈ p.shared) (m : M)
    (others : S → UInt64) : p.gather m others s = p.regs m r := by
  have hfind := find?_eq_of_nodup hp.snd_nodup hshared
  rw [gather, hfind]
  rfl

theorem scatter_shared (hp : p.Lawful T) {r : R} {s : S} (hshared : (r, s) ∈ p.shared) (m : M)
    (regs : S → UInt64) : p.scatter m regs r = regs s := by
  have hfind := find?_eq_of_nodup hp.fst_nodup hshared
  rw [scatter, hfind]
  rfl

/-! ### The switch -/

section Switch

variable {owner : UInt64 → Option T} {i : I} {before : M → M} {others : S → UInt64}
  {behind : UInt64} {dst : T}

variable (p c i before others) in
/-- The threads when the handler comes to the switch. -/
def ready : Switching.System S T :=
  let m := (p.preempted c i before).atSwitch
  c.system.step p.code (.work (p.gather m others) (p.stack m))

theorem system_switchTo : (p.switchTo c i before others behind dst).system =
    (p.ready c i before others).step p.code (.switch dst behind) := rfl

theorem system_switchTo_self (hdst : dst = c.system.running) :
    (p.switchTo c i before others behind dst).system = p.ready c i before others :=
  if_pos hdst

theorem system_switchTo_of_ne (hdst : dst ≠ c.system.running) :
    (p.switchTo c i before others behind dst).system =
      (p.ready c i before others).switch p.code dst behind :=
  if_neg hdst

theorem running_switchTo : (p.switchTo c i before others behind dst).system.running = dst := by
  by_cases hdst : dst = c.system.running
  · rw [system_switchTo_self hdst, hdst]
    rfl
  · rw [system_switchTo_of_ne hdst]
    rfl

omit [DecidableEq R] in
theorem inv_ready (hinv : Switching.Inv p.layout c.system) :
    Switching.Inv p.layout (p.ready c i before others) := hinv

theorem inv_system_switchTo (hp : p.Lawful T) (hinv : Switching.Inv p.layout c.system) :
    Switching.Inv p.layout (p.switchTo c i before others behind dst).system :=
  hp.implements.inv_step (inv_ready hinv) _

theorem machine_switchTo : (p.switchTo c i before others behind dst).machine =
    p.withStack (p.withRegs (p.preempted c i before).atSwitch
        (p.scatter (p.preempted c i before).atSwitch
          (p.switchTo c i before others behind dst).system.machine.regs))
      (p.switchTo c i before others behind dst).system.machine.stack := rfl

theorem regs_switchTo (hp : p.Lawful T) {r : R} {s : S} (hshared : (r, s) ∈ p.shared) :
    p.regs (p.switchTo c i before others behind dst).machine r =
      (p.switchTo c i before others behind dst).system.machine.regs s := by
  rw [switchTo, hp.regs_withStack, hp.regs_withRegs, scatter_shared hp hshared]

/-- Of the memory only the word that is pushed may change. -/
theorem mem_switchTo (hp : p.Lawful T) {a : UInt64}
    (ha : a ≠ p.regs (p.preempted c i before).atSwitch p.sp - 8) :
    p.mem (p.switchTo c i before others behind dst).machine a =
      p.mem (p.preempted c i before).atSwitch a := by
  have hstack : ∀ regs, (p.ready c i before others).machine.stack =
      p.stack (p.withRegs (p.preempted c i before).atSwitch regs) :=
    fun regs => (hp.stack_withRegs _ regs).symm
  by_cases hdst : dst = c.system.running
  · rw [machine_switchTo, system_switchTo_self hdst, hstack, hp.mem_stack, hp.mem_withRegs]
  · have hsp : (p.ready c i before others).machine.regs p.code.sp =
        p.regs (p.preempted c i before).atSwitch p.sp := gather_shared hp hp.sp_shared _ others
    have hpushed : a ≠ (p.ready c i before others).machine.regs p.code.sp - 8 := hsp ▸ ha
    rw [machine_switchTo, system_switchTo_of_ne hdst]
    exact (hp.mem_withStack _ _ _ _ _ (hstack _) a hpushed).trans
      (congrFun (hp.mem_withRegs _ _) a)

/-- The thread that gives up the processor is parked. -/
theorem holds_switchTo_running (hp : p.Lawful T) (hdst : dst ≠ c.system.running)
    (hobeys : p.InterruptObeys c owner i (p.preempted c i before)) :
    p.Holds (p.switchTo c i before others behind dst) owner c.system.running
      (p.preempted c i before) where
  preempted := ⟨⟨i, hobeys.takes, rfl⟩, hobeys.room⟩
  saved := by
    refine ⟨⟨(p.ready c i before others).machine.regs, behind⟩, ?_, fun r s hshared _ => ?_⟩
    · rw [system_switchTo_of_ne hdst]
      exact Function.update_self _ _ _
    · exact gather_shared hp hshared _ others
  mem_eq a _ ha := mem_switchTo hp ha

/-- The others stay parked. -/
theorem Holds.switchTo {t : T} {q : Parked M P} (h : p.Holds c owner t q) (hp : p.Lawful T)
    (ht : t ≠ c.system.running) (hobeys : p.InterruptObeys c owner i (p.preempted c i before)) :
    p.Holds (p.switchTo c i before others behind dst) owner t q where
  preempted := h.preempted
  saved := by
    obtain ⟨snap, hsnap, hregs⟩ := h.saved
    refine ⟨snap, ?_, hregs⟩
    rw [system_switchTo, Switching.System.step]
    split
    · exact hsnap
    · exact (Function.update_of_ne ht _ _).trans hsnap
  mem_eq a howner ha := by
    have hrunning : owner a ≠ some c.system.running :=
      fun heq => ht (Option.some.inj (howner.symm.trans heq))
    have hbelow : a ≠ p.regs (p.preempted c i before).atSwitch p.sp - 8 :=
      fun heq => hrunning (heq ▸ hobeys.below)
    rw [mem_switchTo hp hbelow, hobeys.leaves a t howner ht]
    refine Eq.trans ?_ (h.mem_eq a howner ha)
    exact hp.transparent.mem_enter i c.point c.machine a hobeys.takes fun hroom =>
      hrunning (hobeys.room a hroom)

/-- The thread that is switched to can continue. -/
theorem Holds.continues {q : Parked M P} (h : p.Holds c owner dst q) (hp : p.Lawful T)
    (hinv : p.Inv c owner) (hdst : dst ≠ c.system.running)
    (hobeys : p.InterruptObeys c owner i (p.preempted c i before)) :
    p.Continues owner dst q (p.switchTo c i before others behind dst).machine where
  regs_eq r s hshared hs := by
    obtain ⟨snap, hsnap, hregs⟩ := h.saved
    have hready : dst ≠ (p.ready c i before others).running := hdst
    obtain ⟨hresumed, -⟩ := hp.implements.resumed (inv_ready hinv.system) hready behind hsnap
    rw [regs_switchTo hp hshared, system_switchTo_of_ne hdst, hresumed s hs, hregs r s hshared hs]
  mem_eq := (h.switchTo hp hdst hobeys).mem_eq

/-- So can the thread itself, if it is not switched at all. -/
theorem continues_self (hp : p.Lawful T) (hdst : dst = c.system.running) :
    p.Continues owner dst (p.preempted c i before)
      (p.switchTo c i before others behind dst).machine where
  regs_eq r s hshared _ := by
    rw [regs_switchTo hp hshared, system_switchTo_self hdst]
    exact gather_shared hp hshared _ others
  mem_eq a _ ha := mem_switchTo hp ha

/-- Whichever thread is switched to, it has been preempted and can continue. -/
theorem preempted_continues (hp : p.Lawful T) (hinv : p.Inv c owner)
    (hobeys : p.InterruptObeys c owner i (p.preempted c i before)) {q : Parked M P}
    (hq : (p.switchTo c i before others behind dst).parked dst = some q) :
    p.Preempted owner dst q ∧
      p.Continues owner dst q (p.switchTo c i before others behind dst).machine := by
  by_cases hdst : dst = c.system.running
  · have hself : (p.switchTo c i before others behind dst).parked dst =
        some (p.preempted c i before) := by
      rw [hdst]
      exact Function.update_self _ _ _
    obtain rfl := Option.some.inj (hq.symm.trans hself)
    exact ⟨⟨⟨i, hobeys.takes, rfl⟩, fun a ha => hdst ▸ hobeys.room a ha⟩,
      continues_self hp hdst⟩
  · have hholds := hinv.parked dst q hdst ((Function.update_of_ne hdst _ _).symm.trans hq)
    exact ⟨hholds.preempted, hholds.continues hp hinv hdst hobeys⟩

theorem inv_switchTo (hp : p.Lawful T) (hinv : p.Inv c owner)
    (hobeys : p.InterruptObeys c owner i (p.preempted c i before)) :
    p.Inv (p.switchTo c i before others behind dst) owner where
  system := inv_system_switchTo hp hinv.system
  parked t q ht hq := by
    rw [running_switchTo] at ht
    by_cases hrunning : t = c.system.running
    · subst hrunning
      have hself : (p.switchTo c i before others behind dst).parked c.system.running =
          some (p.preempted c i before) := Function.update_self _ _ _
      obtain rfl := Option.some.inj (hq.symm.trans hself)
      exact holds_switchTo_running hp (Ne.symm ht) hobeys
    · have hholds := hinv.parked t q hrunning ((Function.update_of_ne hrunning _ _).symm.trans hq)
      exact hholds.switchTo hp hrunning hobeys

end Switch

/-! ### Runs -/

section Runs

variable {owner : UInt64 → Option T}

omit [DecidableEq R] [DecidableEq S] [DecidableEq T] in
/-- What is written to the stack of the running thread does not matter to the others. -/
theorem Inv.work (hinv : p.Inv c owner) {m : M} (point : P)
    (hleaves : p.Leaves owner c.system.running c.machine m) :
    p.Inv { c with machine := m, point } owner where
  system := hinv.system
  parked t q ht hq := by
    obtain ⟨hpreempted, hsaved, hmem⟩ := hinv.parked t q ht hq
    exact ⟨hpreempted, hsaved, fun a howner ha =>
      (hleaves a t howner ht).trans (hmem a howner ha)⟩

/-- One step. -/
theorem inv_step (hp : p.Lawful T) (hinv : p.Inv c owner) (event : Event M I P S T)
    (hobeys : p.ObeysAt c owner event) : p.Inv (p.step c event) owner := by
  cases event with
  | program next point => exact hinv.work point hobeys
  | preempt i before others behind dst after =>
    obtain ⟨hinterrupt, q, hq, hreturn⟩ := hobeys
    obtain ⟨⟨⟨i', htakes, henter⟩, hroom⟩, hcontinues⟩ := preempted_continues hp hinv hinterrupt hq
    have hreturned := hreturn.returned hcontinues
    rw [henter] at hreturned
    refine (inv_switchTo hp hinv hinterrupt).work _ fun a t howner ht => ?_
    rw [running_switchTo] at ht
    have houtside : ¬ p.Room q.interrupted a := fun hinside =>
      ht (Option.some.inj (howner.symm.trans (hroom a hinside)))
    exact (hp.transparent.mem_leave i' q.point _ _ htakes hreturned a houtside).trans
      (hreturn.leaves a t howner ht)
  | start i before others behind dst point =>
    exact (inv_switchTo hp hinv hobeys).work point fun _ _ _ _ => rfl

/-- One step resumes a thread as it was. -/
theorem resumesAt_step (hp : p.Lawful T) (hinv : p.Inv c owner) (event : Event M I P S T)
    (hobeys : p.ObeysAt c owner event) {Q : P → P → P → Prop}
    (hQ : ∀ i point m latched returned, p.Takes i point →
      p.Returned m (p.enter i point m) returned →
        Q point latched (p.resume latched returned)) : p.ResumesAt c owner Q event := by
  cases event with
  | program next point => trivial
  | start i before others behind dst point => trivial
  | preempt i before others behind dst after =>
    obtain ⟨hinterrupt, q, hq, hreturn⟩ := hobeys
    obtain ⟨⟨⟨i', htakes, henter⟩, -⟩, hcontinues⟩ := preempted_continues hp hinv hinterrupt hq
    have hreturned := hreturn.returned hcontinues
    rw [henter] at hreturned
    have hregs := hp.transparent.regs_leave i' q.point _ _ htakes hreturned
    exact ⟨q, hq, ⟨running_switchTo, hcontinues, hregs⟩, hQ i' q.point _ _ _ htakes hreturned⟩

omit [DecidableEq R] [DecidableEq S] [DecidableEq T] in
theorem inv_initial (machine : M) (registers : Switching.Machine S T) (running : T) (point : P) :
    p.Inv (Core.initial machine registers running point) owner where
  system := Switching.inv_start registers running 0
  parked _ _ _ hq := absurd hq (Option.some_ne_none _).symm

theorem everyResumes (hp : p.Lawful T) {Q : P → P → P → Prop}
    (hQ : ∀ i point m latched returned, p.Takes i point →
      p.Returned m (p.enter i point m) returned →
        Q point latched (p.resume latched returned)) (hinv : p.Inv c owner)
    {events : List (Event M I P S T)} (h : p.EveryObeys c owner events) :
    p.EveryResumes c owner Q events :=
  Simulation.every_imp
    (fun _ event hinv hobeys =>
      ⟨resumesAt_step hp hinv event hobeys hQ, inv_step hp hinv event hobeys⟩)
    events c hinv h

/-- Where the hardware finds the point in the frame, all threads go on where they were. -/
theorem everyResumes_own (hp : p.Lawful T) (hframe : p.FromFrame) (hinv : p.Inv c owner)
    {events : List (Event M I P S T)} (h : p.EveryObeys c owner events) :
    p.EveryResumes c owner (fun own _ next => next = own) events :=
  everyResumes hp (fun i point m latched returned => hframe i point m latched returned) hinv h

/-- Where it finds the point in a register, they go on where the thread before them was. -/
theorem everyResumes_latched (hp : p.Lawful T) (hlatch : p.FromLatch) (hinv : p.Inv c owner)
    {events : List (Event M I P S T)} (h : p.EveryObeys c owner events) :
    p.EveryResumes c owner (fun _ previous next => next = previous) events :=
  everyResumes hp (fun _ _ _ latched returned _ _ => hlatch latched returned) hinv h

/-- There the core is always where some thread has come to last, whichever it was. -/
theorem point_foldl (hlatch : p.FromLatch) (events : List (Event M I P S T)) :
    (events.foldl p.step c).point = (events.filterMap Event.point?).getLastD c.point := by
  induction events generalizing c with
  | nil => rfl
  | cons event events ih =>
    rw [List.foldl_cons, ih]
    cases event with
    | program next point => exact List.getLastD_cons.symm
    | preempt i before others behind dst after =>
      have hpoint : (p.step c (.preempt i before others behind dst after)).point = c.point :=
        hlatch _ _
      rw [hpoint]
      rfl
    | start i before others behind dst point => exact List.getLastD_cons.symm

/-! ### Handlers that only switch -/

omit [DecidableEq R] [DecidableEq S] [DecidableEq T] in
theorem interruptObeys_id {i : I} (htakes : p.Takes i c.point)
    (hroom : ∀ a, p.Room c.machine a → owner a = some c.system.running)
    (hbelow : owner (p.regs (p.enter i c.point c.machine) p.sp - 8) = some c.system.running) :
    p.InterruptObeys c owner i (p.preempted c i id) :=
  ⟨htakes, hroom, hbelow, fun _ _ _ _ => rfl⟩

omit [DecidableEq R] in
theorem returnObeys_id (hp : p.Lawful T) {t : T} {q : Parked M P} (hquiet : q.atSwitch = q.entered)
    (hframe : ∀ a, p.InFrame q.interrupted q.entered a →
      owner a = some t ∧ a ≠ p.regs q.entered p.sp - 8) (m : M) :
    p.ReturnObeys owner t q m m where
  leaves _ _ _ _ := rfl
  returned hcontinues := by
    obtain ⟨hregs, hmem⟩ := hcontinues
    rw [hquiet] at hregs hmem
    exact ⟨hregs p.sp p.code.sp hp.sp_shared hp.sp_saved, fun a ha =>
      hmem a (hframe a ha).1 (hframe a ha).2⟩

end Runs

end Platform

end Preempting
