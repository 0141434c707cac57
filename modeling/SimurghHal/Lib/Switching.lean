import Mathlib.Data.Nat.Notation
import Mathlib.Logic.Function.Basic

/-!
# Threads switched by straight-line code

A block of instructions stores registers into the save area of the thread that gives up
the processor, loads registers from the save area of another thread and jumps there. A
`Layout` says which register has which slot of the save area. When a block implements
its layout, every thread resumes with the registers and the address it was switched out
with, over runs of any length and for any number of threads (`Implements.inv_run`).
-/

namespace Switching

variable {R T : Type*}

/-- Instructions over registers `R`. Offsets are bytes into the save area that is
stored to or loaded from. -/
inductive Instr (R : Type*) where
  | store (offset : ℕ) (src : R)
  | load (dst : R) (offset : ℕ)
  | move (dst src : R)
  /-- The address behind the block. -/
  | label (dst : R)
  | push (src : R)
  | pop (dst : R)
  | fence
  | jump (target : R)
  deriving DecidableEq, Repr

/-- Registers, save areas and stack memory. -/
structure Machine (R T : Type*) where
  regs : R → UInt64
  areas : T → ℕ → UInt64
  stack : UInt64 → UInt64

namespace Machine

section Registers

variable [DecidableEq R] (m : Machine R T) (r : R) (value : UInt64)

def setReg : Machine R T := { m with regs := Function.update m.regs r value }

@[simp] theorem regs_setReg : (m.setReg r value).regs = Function.update m.regs r value := rfl

@[simp] theorem areas_setReg : (m.setReg r value).areas = m.areas := rfl

@[simp] theorem stack_setReg : (m.setReg r value).stack = m.stack := rfl

end Registers

section Slots

variable [DecidableEq T] (m : Machine R T) (t : T) (offset : ℕ) (value : UInt64)

def setSlot : Machine R T :=
  { m with areas := Function.update m.areas t (Function.update (m.areas t) offset value) }

@[simp] theorem regs_setSlot : (m.setSlot t offset value).regs = m.regs := rfl

@[simp] theorem stack_setSlot : (m.setSlot t offset value).stack = m.stack := rfl

@[simp] theorem areas_setSlot_self :
    (m.setSlot t offset value).areas t = Function.update (m.areas t) offset value :=
  Function.update_self _ _ _

theorem areas_setSlot_of_ne {u : T} (h : u ≠ t) :
    (m.setSlot t offset value).areas u = m.areas u :=
  Function.update_of_ne h _ _

end Slots

end Machine

section Exec

variable [DecidableEq R] [DecidableEq T]

/-- One instruction. `sp` is the stack pointer, which `push` lowers by a word first. -/
def Instr.apply (sp : R) (src dst : T) (behind : UInt64) (m : Machine R T) :
    Instr R → Machine R T
  | .store offset r => m.setSlot src offset (m.regs r)
  | .load r offset => m.setReg r (m.areas dst offset)
  | .move r r' => m.setReg r (m.regs r')
  | .label r => m.setReg r behind
  | .push r =>
    let top := m.regs sp - 8
    { m.setReg sp top with stack := Function.update m.stack top (m.regs r) }
  | .pop r =>
    let top := m.regs sp
    (m.setReg sp (top + 8)).setReg r (m.stack top)
  | .fence => m
  | .jump _ => m

/-- Runs a block that gives up thread `src` for thread `dst`, up to its first jump. The
second component is the address execution goes on at. -/
def exec (sp : R) (src dst : T) (behind : UInt64) :
    List (Instr R) → Machine R T → Machine R T × UInt64
  | [], m => (m, behind)
  | .jump r :: _, m => (m, m.regs r)
  | i :: is, m => exec sp src dst behind is (i.apply sp src dst behind m)

end Exec

/-! ### Systems of threads -/

/-- What a thread was doing when it was switched out: its registers, and the address
it goes on at. -/
structure Snapshot (R : Type*) where
  regs : R → UInt64
  resume : UInt64

/-- A machine with the thread that runs on it. The snapshots are a record of what has
happened; no instruction reads them. -/
structure System (R T : Type*) where
  machine : Machine R T
  running : T
  pc : UInt64
  snapshots : T → Option (Snapshot R)

/-- The running thread computes, or gives up the processor for another thread. -/
inductive Event (R T : Type*) where
  | work (regs : R → UInt64) (stack : UInt64 → UInt64)
  | switch (dst : T) (behind : UInt64)

/-- What distinguishes one architecture: its block and its stack pointer. -/
structure Code (R : Type*) where
  sp : R
  block : List (Instr R)

namespace System

variable [DecidableEq R] [DecidableEq T] (code : Code R)

def start (machine : Machine R T) (running : T) (pc : UInt64) : System R T :=
  ⟨machine, running, pc, fun _ => none⟩

/-- The block run by the running thread. -/
def switch (s : System R T) (dst : T) (behind : UInt64) : System R T :=
  let r := exec code.sp s.running dst behind code.block s.machine
  { machine := r.1
    running := dst
    pc := r.2
    snapshots := Function.update s.snapshots s.running (some ⟨s.machine.regs, behind⟩) }

/-- One event. A thread does not switch to itself. -/
def step (s : System R T) : Event R T → System R T
  | .work regs stack => { s with machine := { s.machine with regs, stack } }
  | .switch dst behind => if dst = s.running then s else s.switch code dst behind

/-- A whole run. -/
def run (s : System R T) (events : List (Event R T)) : System R T :=
  events.foldl (step code) s

/-- `P` holds of every switch in the run that resumes a thread switched out before: of
the system at that point, the resumed thread, the address behind the block and the
snapshot of the resumed thread. -/
def EveryResumption (P : System R T → T → UInt64 → Snapshot R → Prop) (s : System R T)
    (events : List (Event R T)) : Prop :=
  ∀ before dst behind after, events = before ++ .switch dst behind :: after →
    dst ≠ (s.run code before).running →
      ∀ snap, (s.run code before).snapshots dst = some snap →
        P (s.run code before) dst behind snap

end System

/-! ### Layouts -/

/-- Slots of the save area, and what becomes of each register. -/
structure Layout (R : Type*) where
  /-- Registers with a slot of their own. -/
  saved : List R
  /-- Registers the block leaves alone. -/
  kept : List R
  /-- Registers that get the address to resume at. -/
  links : List R
  offset : R → ℕ
  /-- The slot of the address to resume at. -/
  resume : ℕ

/-- What a run of the block from `m`, giving up `src` for `dst`, does by the layout. -/
structure Switched (layout : Layout R) (m : Machine R T) (src dst : T) (behind : UInt64)
    (r : Machine R T × UInt64) : Prop where
  saves : ∀ reg ∈ layout.saved, r.1.areas src (layout.offset reg) = m.regs reg
  savesResume : r.1.areas src layout.resume = behind
  frame : ∀ t, t ≠ src → r.1.areas t = m.areas t
  loads : ∀ reg ∈ layout.saved, r.1.regs reg = m.areas dst (layout.offset reg)
  jumps : r.2 = m.areas dst layout.resume
  links : ∀ reg ∈ layout.links, r.1.regs reg = m.areas dst layout.resume
  keeps : ∀ reg ∈ layout.kept, r.1.regs reg = m.regs reg

variable [DecidableEq R] [DecidableEq T]

/-- The block does what the layout says, whichever two threads it switches. -/
def Implements (T : Type*) [DecidableEq T] (code : Code R) (layout : Layout R) : Prop :=
  ∀ (m : Machine R T) (src dst : T) (behind : UInt64), dst ≠ src →
    Switched layout m src dst behind (exec code.sp src dst behind code.block m)

/-- The save areas of the threads that do not run hold their snapshots. -/
def Inv (layout : Layout R) (s : System R T) : Prop :=
  ∀ t snap, t ≠ s.running → s.snapshots t = some snap →
    (∀ reg ∈ layout.saved, s.machine.areas t (layout.offset reg) = snap.regs reg) ∧
      s.machine.areas t layout.resume = snap.resume

section Runs

variable {code : Code R} {layout : Layout R}

omit [DecidableEq R] [DecidableEq T] in
theorem inv_start (machine : Machine R T) (running : T) (pc : UInt64) :
    Inv layout (System.start machine running pc) := by
  intro t snap _ hsnap
  cases hsnap

theorem Implements.inv_switch (hcode : Implements T code layout) {s : System R T}
    (hinv : Inv layout s) {dst : T} (hdst : dst ≠ s.running) (behind : UInt64) :
    Inv layout (s.switch code dst behind) := by
  have hsw := hcode s.machine s.running dst behind hdst
  intro t snap ht hsnap
  by_cases hrun : t = s.running
  · -- the thread that has just been switched out
    subst hrun
    simp only [System.switch, Function.update_self, Option.some.injEq] at hsnap
    subst hsnap
    exact ⟨hsw.saves, hsw.savesResume⟩
  · simp only [System.switch, Function.update_of_ne hrun] at hsnap
    simp only [System.switch, hsw.frame t hrun]
    exact hinv t snap hrun hsnap

theorem Implements.inv_step (hcode : Implements T code layout) {s : System R T}
    (hinv : Inv layout s) (e : Event R T) : Inv layout (s.step code e) := by
  cases e with
  | work regs stack => exact hinv
  | switch dst behind =>
    rw [System.step]
    split
    · exact hinv
    · next hdst => exact hcode.inv_switch hinv hdst behind

/-- The invariant holds along every run. -/
theorem Implements.inv_run (hcode : Implements T code layout)
    (events : List (Event R T)) : ∀ {s : System R T}, Inv layout s →
      Inv layout (s.run code events) := by
  induction events with
  | nil => exact fun hinv => hinv
  | cons e events ih => exact fun hinv => ih (hcode.inv_step hinv e)

/-- A resumed thread finds its saved registers and its address as they were, and this
address in the link registers. -/
theorem Implements.resumed (hcode : Implements T code layout) {s : System R T}
    (hinv : Inv layout s) {dst : T} (hdst : dst ≠ s.running) (behind : UInt64)
    {snap : Snapshot R} (hsnap : s.snapshots dst = some snap) :
    (∀ reg ∈ layout.saved, (s.switch code dst behind).machine.regs reg = snap.regs reg) ∧
      (s.switch code dst behind).pc = snap.resume ∧
      ∀ reg ∈ layout.links, (s.switch code dst behind).machine.regs reg = snap.resume := by
  have hsw := hcode s.machine s.running dst behind hdst
  obtain ⟨hregs, hresume⟩ := hinv dst snap hdst hsnap
  refine ⟨fun reg hreg => ?_, ?_, fun reg hreg => ?_⟩
  · exact (hsw.loads reg hreg).trans (hregs reg hreg)
  · exact hsw.jumps.trans hresume
  · exact (hsw.links reg hreg).trans hresume

/-- Conditions that agree on every resumption agree on whole runs. -/
theorem Implements.everyResumption_iff (hcode : Implements T code layout)
    {P Q : System R T → T → UInt64 → Snapshot R → Prop} {s : System R T} (hinv : Inv layout s)
    (hPQ : ∀ s dst behind snap, Inv layout s → dst ≠ s.running →
      s.snapshots dst = some snap → (P s dst behind snap ↔ Q s dst behind snap))
    (events : List (Event R T)) :
    s.EveryResumption code P events ↔ s.EveryResumption code Q events := by
  constructor
  · intro h before dst behind after hevents hdst snap hsnap
    exact (hPQ _ dst behind snap (hcode.inv_run before hinv) hdst hsnap).mp
      (h before dst behind after hevents hdst snap hsnap)
  · intro h before dst behind after hevents hdst snap hsnap
    exact (hPQ _ dst behind snap (hcode.inv_run before hinv) hdst hsnap).mpr
      (h before dst behind after hevents hdst snap hsnap)

end Runs

end Switching
