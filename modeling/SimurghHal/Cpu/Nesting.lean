import SimurghHal.Lib.Words
import SimurghHal.Cpu.Trampoline

/-!
# Nested interrupts on x86_64

The gates of the IDT do not switch stacks, so that a handler that is interrupted goes on with its
own stack, and everything that is in progress on a core stands on one stack. Code is any change
of the machine that leaves alone the stack above the point where its function was entered. It may
be interrupted at every point, since it is compiled without a red zone.

An interrupt goes unnoticed when what runs in it does (`resumes_of_keeps`), so by induction on the
nesting all do (`nested_resume`). The vectors with an error code are left out, and the stack has
to have room for the frames.
-/

namespace SimurghHal.Cpu.X86_64

open Stack

/-- Code that runs, or an interrupt with what `common_interrupt_entry` does before it returns. -/
inductive Activity where
  | run (code : Machine Gpr → Machine Gpr)
  | interrupt (vector : UInt8) (d : Delivery) (returnAddress : UInt64) (body : List Activity)

/-- The CPU pushes its frame on the stack of the interrupted code, at a multiple of 16. -/
def Delivery.onStack (d : Delivery) (m : Machine Gpr) : Delivery :=
  { d with top := m.regs .rsp &&& ~~~0xF }

/-- `ret`. -/
def ret (m : Machine Gpr) : Machine Gpr :=
  { m with regs := Function.update m.regs .rsp (m.regs .rsp + 8) }

@[simp] theorem regs_rsp_ret (m : Machine Gpr) : (ret m).regs .rsp = m.regs .rsp + 8 := by
  simp [ret]

/-- What `iretq` finds on the stack. -/
structure Frame where
  rip : UInt64
  cs : UInt64
  rflags : UInt64
  rsp : UInt64
  ss : UInt64
  deriving DecidableEq, Repr

def frameAt (m : Machine Gpr) : Frame where
  rip := m.mem (m.regs .rsp)
  cs := m.mem (m.regs .rsp + 8)
  rflags := m.mem (m.regs .rsp + 16)
  rsp := m.mem (m.regs .rsp + 24)
  ss := m.mem (m.regs .rsp + 32)

def iretq (m : Machine Gpr) : Machine Gpr :=
  { m with regs := Function.update m.regs .rsp (frameAt m).rsp }

@[simp] theorem regs_rsp_iretq (m : Machine Gpr) : (iretq m).regs .rsp = (frameAt m).rsp := by
  simp [iretq]

theorem regs_iretq_of_ne (m : Machine Gpr) {r : Gpr} (hr : r ≠ .rsp) :
    (iretq m).regs r = m.regs r := by
  simp [iretq, hr]

@[simp] theorem mem_iretq (m : Machine Gpr) : (iretq m).mem = m.mem := rfl

theorem frameAt_eq {m : Machine Gpr} {f : Frame}
    (h : OnTop .rsp m [f.rip, f.cs, f.rflags, f.rsp, f.ss]) : frameAt m = f := by
  obtain ⟨hrip, hcs, hrflags, hrsp, hss, -⟩ := h
  rw [UInt64.add_assoc] at hrflags
  rw [UInt64.add_assoc, UInt64.add_assoc] at hrsp
  rw [UInt64.add_assoc, UInt64.add_assoc, UInt64.add_assoc] at hss
  have hrflags' : m.mem (m.regs .rsp + 16) = f.rflags := hrflags
  have hrsp' : m.mem (m.regs .rsp + 24) = f.rsp := hrsp
  have hss' : m.mem (m.regs .rsp + 32) = f.ss := hss
  rw [frameAt, hrip, hcs, hrflags', hrsp', hss']

/-- The memory that the stack has. -/
structure StackArea where
  bottom : UInt64
  size : ℕ
  size_lt : size < UInt64.size

/-- The stack is as it was from a height on, and the stack pointer is not above it. -/
structure Keeps (s : StackArea) (floor : ℕ) (m m' : Machine Gpr) : Prop where
  mem_eq : ∀ a, floor ≤ height s.bottom a → height s.bottom a < s.size → m'.mem a = m.mem a
  rsp_le : height s.bottom (m'.regs .rsp) ≤ floor

/-- The registers and the stack in use are the same. -/
structure Agree (s : StackArea) (m m' : Machine Gpr) : Prop where
  regs_eq : m.regs = m'.regs
  mem_eq : ∀ a, height s.bottom (m.regs .rsp) ≤ height s.bottom a → height s.bottom a < s.size →
    m.mem a = m'.mem a

/-- The interrupt is dispatched by its number, `common_interrupt_entry` returns to the trampoline,
`iretq` finds the frame of the CPU, and the interrupted code goes on with the registers and the
stack that it had. -/
structure Resumes (s : StackArea) (m : Machine Gpr) (vector : UInt8) (d : Delivery)
    (returnAddress : UInt64) (returning : Machine Gpr) : Prop where
  vector_eq : vectorRead (atEntry m vector (d.onStack m) returnAddress) = vector
  return_eq : returning.mem (returning.regs .rsp) = returnAddress
  frame_eq : frameAt (atIretq (ret returning)) = ⟨d.rip, d.cs, d.rflags, m.regs .rsp, d.ss⟩
  regs_eq : (iretq (atIretq (ret returning))).regs = m.regs
  mem_eq : ∀ a, height s.bottom (m.regs .rsp) ≤ height s.bottom a → height s.bottom a < s.size →
    (iretq (atIretq (ret returning))).mem a = m.mem a

namespace Activity

mutual

def exec (m : Machine Gpr) : Activity → Machine Gpr
  | .run code => code m
  | .interrupt vector d returnAddress body =>
    iretq (atIretq (ret (execAll (atEntry m vector (d.onStack m) returnAddress) body)))

def execAll (m : Machine Gpr) : List Activity → Machine Gpr
  | [] => m
  | activity :: rest => execAll (exec m activity) rest

end

mutual

/-- Code keeps the stack from `floor` on. An interrupt finds room for its frames, and what runs
in it keeps them and returns with the stack pointer it was entered with. -/
def Obeys (s : StackArea) (floor : ℕ) (m : Machine Gpr) : Activity → Prop
  | .run code => Keeps s floor m (code m)
  | .interrupt vector d returnAddress body =>
    let entered := atEntry m vector (d.onStack m) returnAddress
    ¬ HasErrorCode vector ∧ 192 ≤ height s.bottom (m.regs .rsp) ∧
      ObeysAll s (height s.bottom (entered.regs .rsp)) entered body ∧
      (execAll entered body).regs .rsp = entered.regs .rsp

def ObeysAll (s : StackArea) (floor : ℕ) (m : Machine Gpr) : List Activity → Prop
  | [] => True
  | activity :: rest => Obeys s floor m activity ∧ ObeysAll s floor (exec m activity) rest

end

mutual

/-- Every interrupt resumes, the nested ones too. -/
def EveryResumes (s : StackArea) (m : Machine Gpr) : Activity → Prop
  | .run _ => True
  | .interrupt vector d returnAddress body =>
    let entered := atEntry m vector (d.onStack m) returnAddress
    Resumes s m vector d returnAddress (execAll entered body) ∧ EveryResumesAll s entered body

def EveryResumesAll (s : StackArea) (m : Machine Gpr) : List Activity → Prop
  | [] => True
  | activity :: rest => EveryResumes s m activity ∧ EveryResumesAll s (exec m activity) rest

end

end Activity

/-! ### One interrupt -/

section Interrupt

variable {s : StackArea} {m : Machine Gpr} {vector : UInt8} {d : Delivery}

theorem height_align {bottom addr : UInt64} (h : 15 ≤ height bottom addr) :
    ∃ r ≤ 15, height bottom (addr &&& ~~~0xF) + r = height bottom addr := by
  have hmask : (~~~(0xF : UInt64)).toNat = 2 ^ 64 - 2 ^ 4 := by decide
  have haligned := Words.toNat_and_run (x := addr) (by decide) hmask
  have hlt := addr.toNat_lt
  have hbottom := bottom.toNat_lt
  refine ⟨addr.toNat % 16, by omega, ?_⟩
  simp only [height, UInt64.toNat_sub, haligned] at h ⊢
  omega

variable (m vector d) in
/-- The frames of the CPU, of the stub, of the trampoline and of the call. -/
theorem grown_atEntry (returnAddress : UInt64) (hcode : ¬ HasErrorCode vector)
    (hroom : 192 ≤ height s.bottom (m.regs .rsp)) :
    ∃ r ≤ 15, Grown .rsp s.bottom (r + 176) m (atEntry m vector (d.onStack m) returnAddress) := by
  obtain ⟨r, hr, hheight⟩ := height_align (show 15 ≤ height s.bottom (m.regs .rsp) by omega)
  refine ⟨r, hr, ?_⟩
  let switched : Machine Gpr :=
    { m with regs := Function.update m.regs .rsp (m.regs .rsp &&& ~~~0xF) }
  have hrsp : switched.regs .rsp = m.regs .rsp &&& ~~~0xF := by simp [switched]
  have hswitched : Grown .rsp s.bottom r m switched :=
    ⟨by rw [hrsp, hheight], fun _ _ => rfl⟩
  have hdeliver : deliver m vector (d.onStack m) =
      [d.ss, m.regs .rsp, d.rflags, d.cs, d.rip].foldl (Machine.pushWord .rsp) switched :=
    if_neg hcode
  have hframed : Grown .rsp s.bottom (r + 40) m (deliver m vector (d.onStack m)) := by
    have hroom : 8 * [d.ss, m.regs .rsp, d.rflags, d.cs, d.rip].length ≤
        height s.bottom (switched.regs .rsp) := by
      show 40 ≤ height s.bottom (switched.regs .rsp)
      rw [hrsp]
      omega
    rw [hdeliver]
    exact hswitched.trans (grown_foldl_pushWord hroom)
  -- there is room for the other pushes too
  have hpush : ∀ {n : ℕ} {m' : Machine Gpr} (value : UInt64), n + 8 ≤ 192 →
      Grown .rsp s.bottom n m m' → Grown .rsp s.bottom (n + 8) m (m'.pushWord .rsp value) := by
    intro n m' value hn hgrown
    have hheight' := hgrown.height_eq
    exact hgrown.trans (grown_pushWord (by omega) value)
  have hvector := hpush vector.toUInt64 (by omega) hframed
  have hheight' := hvector.height_eq
  have hroom' : 8 * savedGprs.length ≤ height s.bottom
      (((deliver m vector (d.onStack m)).pushWord .rsp vector.toUInt64).regs .rsp) := by
    rw [length_savedGprs]
    omega
  have hsaved := hvector.trans (grown_exec_pushes hroom')
  have hcall : Grown .rsp s.bottom (r + 168) m (atCall m vector (d.onStack m)) := by
    rw [atCall_eq]
    exact ⟨by rw [regs_move_of_ne (by decide)]; exact hsaved.height_eq, hsaved.mem_eq⟩
  exact hpush returnAddress (by omega) hcall

/-- The words at the call of `common_interrupt_entry`, up to the end of the frame of the CPU. -/
def wordsAtCall (m : Machine Gpr) (vector : UInt8) (d : Delivery) : List UInt64 :=
  (savedGprs.map m.regs).reverse ++ [vector.toUInt64, d.rip, d.cs, d.rflags, m.regs .rsp, d.ss]

variable (m vector d) in
/-- The frame of the CPU is behind the vector. -/
theorem top_atCall_frame (hcode : ¬ HasErrorCode vector) :
    OnTop .rsp (atCall m vector (d.onStack m)) (wordsAtCall m vector d) := by
  have hsize : ∀ k < 30, 8 * k ≤ UInt64.size := by
    intro k hk
    rw [UInt64.size]
    omega
  refine top_atCall_of ?_ (hsize 21 (by decide))
  rw [deliver, if_neg hcode]
  have hempty : OnTop .rsp ({ m with regs := Function.update m.regs .rsp (d.onStack m).top } :
      Machine Gpr) [] := trivial
  exact hempty.foldl_pushWord (hsize 5 (by decide))

theorem mem_atIretq (returning : Machine Gpr) :
    (atIretq (ret returning)).mem = returning.mem := by
  rw [atIretq_eq, mem_add, mem_exec_pops, ret]

theorem mem_savedGprs {r : Gpr} (hr : r ≠ .rsp) : r ∈ savedGprs := by
  cases r <;> first | decide | contradiction

/-- They are there at the return again, if what runs in the interrupt keeps the stack. -/
theorem holds_returning {returnAddress : UInt64} {entered returning : Machine Gpr}
    (hentered : entered = atEntry m vector (d.onStack m) returnAddress)
    (hcode : ¬ HasErrorCode vector) (hroom : 192 ≤ height s.bottom (m.regs .rsp))
    (hstack : height s.bottom (m.regs .rsp) ≤ s.size)
    (hkeeps : Keeps s (height s.bottom (entered.regs .rsp)) entered returning) :
    Holds returning.mem (entered.regs .rsp + 8) (wordsAtCall m vector d) ∧
      ∀ i < 21, returning.mem (entered.regs .rsp + 8 + UInt64.ofNat (8 * i)) =
        entered.mem (entered.regs .rsp + 8 + UInt64.ofNat (8 * i)) := by
  obtain ⟨r, hr, hgrown⟩ := grown_atEntry m vector d returnAddress hcode hroom
  have hheight := hgrown.height_eq
  rw [← hentered] at hheight
  have hsize := s.size_lt
  have hword : ∀ i < 21, returning.mem (entered.regs .rsp + 8 + UInt64.ofNat (8 * i)) =
      entered.mem (entered.regs .rsp + 8 + UInt64.ofNat (8 * i)) := by
    intro i hi
    have hnat : (UInt64.ofNat (8 * (i + 1))).toNat = 8 * (i + 1) :=
      UInt64.toNat_ofNat_of_lt' (show 8 * (i + 1) < 2 ^ 64 by omega)
    have hoffset : height s.bottom (entered.regs .rsp + UInt64.ofNat (8 * (i + 1))) =
        height s.bottom (entered.regs .rsp) + 8 * (i + 1) := by
      rw [height_add, hnat]
      rw [hnat]
      omega
    rw [addr_succ]
    exact hkeeps.mem_eq _ (by omega) (by omega)
  have hcall : entered.regs .rsp + 8 = (atCall m vector (d.onStack m)).regs .rsp := by
    rw [hentered]
    exact (congrArg (· + 8) (regs_sp_pushWord _)).trans (UInt64.sub_add_cancel _ _)
  refine ⟨Holds.congr ?_ hword, hword⟩
  rw [hcall, hentered]
  refine Holds.store_below (top_atCall_frame m vector d hcode) ?_ returnAddress
  show 8 * 22 ≤ UInt64.size
  decide

/-- If what runs in an interrupt keeps the stack, the interrupted code does not notice it. -/
theorem resumes_of_keeps {returnAddress : UInt64} {entered returning : Machine Gpr}
    (hentered : entered = atEntry m vector (d.onStack m) returnAddress)
    (hcode : ¬ HasErrorCode vector) (hroom : 192 ≤ height s.bottom (m.regs .rsp))
    (hstack : height s.bottom (m.regs .rsp) ≤ s.size)
    (hkeeps : Keeps s (height s.bottom (entered.regs .rsp)) entered returning)
    (hrsp : returning.regs .rsp = entered.regs .rsp) :
    Resumes s m vector d returnAddress returning := by
  obtain ⟨htop, hword⟩ := holds_returning hentered hcode hroom hstack hkeeps
  have hreturned : Returned entered (ret returning) :=
    ⟨by rw [regs_rsp_ret, hrsp], fun i hi => hword i (by omega)⟩
  have hreturned' : Returned (atEntry m vector (d.onStack m) returnAddress) (ret returning) :=
    hentered ▸ hreturned
  have hiretq : (atIretq (ret returning)).regs .rsp =
      entered.regs .rsp + 8 + UInt64.ofNat (8 * savedGprs.length) + 8 := by
    have hcall := hreturned'.top.1
    rw [regs_rsp_ret, hrsp] at hcall
    rw [hreturned'.rsp_atIretq, hcall, regs_rsp_atCall, UInt64.sub_add_cancel]
  have hframe : frameAt (atIretq (ret returning)) = ⟨d.rip, d.cs, d.rflags, m.regs .rsp, d.ss⟩ := by
    apply frameAt_eq
    rw [OnTop, mem_atIretq, hiretq]
    exact (holds_append.mp htop).2.2
  obtain ⟨r, hr, hgrown⟩ := grown_atEntry m vector d returnAddress hcode hroom
  rw [← hentered] at hgrown
  have hheight := hgrown.height_eq
  refine ⟨vectorRead_atEntry m vector (d.onStack m) returnAddress, ?_, hframe, ?_, ?_⟩
  · rw [hrsp, hkeeps.mem_eq _ le_rfl (by omega), hentered]
    simp [atEntry, Machine.pushWord]
  · funext r
    by_cases hr : r = .rsp
    · rw [hr, regs_rsp_iretq, hframe]
    · rw [regs_iretq_of_ne _ hr]
      exact hreturned'.regs_atIretq (mem_savedGprs hr)
  · intro a ha hlt
    rw [mem_iretq, mem_atIretq, hkeeps.mem_eq a (by omega) hlt, hgrown.mem_eq a ha]

end Interrupt

/-! ### All interrupts -/

namespace Activity

variable {s : StackArea}

mutual

theorem keeps_exec (m : Machine Gpr) {floor : ℕ} (hfloor : floor ≤ s.size)
    (hrsp : height s.bottom (m.regs .rsp) ≤ floor) :
    ∀ activity : Activity, Obeys s floor m activity →
      Keeps s floor m (exec m activity) ∧ EveryResumes s m activity
  | .run _, h => ⟨h, trivial⟩
  | .interrupt vector d returnAddress body, h => by
    obtain ⟨hcode, hroom, hbody, hbalanced⟩ := h
    obtain ⟨r, -, hgrown⟩ := grown_atEntry m vector d returnAddress hcode hroom
    have hheight := hgrown.height_eq
    obtain ⟨hkeeps, hnested⟩ := keeps_execAll _ (by omega) le_rfl body hbody
    have hresumes := resumes_of_keeps rfl hcode hroom (hrsp.trans hfloor) hkeeps hbalanced
    refine ⟨⟨fun a ha hlt => hresumes.mem_eq a (hrsp.trans ha) hlt, ?_⟩, hresumes, hnested⟩
    rw [exec, hresumes.regs_eq]
    exact hrsp

theorem keeps_execAll (m : Machine Gpr) {floor : ℕ} (hfloor : floor ≤ s.size)
    (hrsp : height s.bottom (m.regs .rsp) ≤ floor) :
    ∀ activities : List Activity, ObeysAll s floor m activities →
      Keeps s floor m (execAll m activities) ∧ EveryResumesAll s m activities
  | [], _ => ⟨⟨fun _ _ _ => rfl, hrsp⟩, trivial⟩
  | activity :: rest, h => by
    obtain ⟨hfirst, hfirst'⟩ := keeps_exec m hfloor hrsp activity h.1
    obtain ⟨hrest, hrest'⟩ := keeps_execAll (exec m activity) hfloor hfirst.rsp_le rest h.2
    refine ⟨⟨fun a ha hlt => ?_, hrest.rsp_le⟩, hfirst', hrest'⟩
    exact (hrest.mem_eq a ha hlt).trans (hfirst.mem_eq a ha hlt)

end

/-- What code computes in registers and on its stack depends on nothing else. -/
def OnStack (s : StackArea) : Activity → Prop
  | .run code => ∀ m m', Agree s m m' → Agree s (code m) (code m')
  | .interrupt _ _ _ _ => True

def isRun : Activity → Bool
  | .run _ => true
  | .interrupt _ _ _ _ => false

/-- The interrupts of a program can be left out. -/
theorem agree_execAll {m m' : Machine Gpr} (hagree : Agree s m m')
    (hrsp : height s.bottom (m.regs .rsp) ≤ s.size) {activities : List Activity}
    (hlocal : ∀ activity ∈ activities, OnStack s activity)
    (hobeys : ObeysAll s s.size m activities) :
    Agree s (execAll m activities) (execAll m' (activities.filter isRun)) := by
  induction activities generalizing m m' with
  | nil => exact hagree
  | cons activity rest ih =>
    obtain ⟨hkeeps, hresumes⟩ := keeps_exec m le_rfl hrsp activity hobeys.1
    have hrest := List.forall_mem_cons.mp hlocal
    cases activity with
    | run code =>
      exact ih (hrest.1 m m' hagree) hkeeps.rsp_le hrest.2 hobeys.2
    | interrupt vector d returnAddress body =>
      have hregs := hresumes.1.regs_eq
      refine ih ⟨hregs.trans hagree.regs_eq, fun a ha hlt => ?_⟩ hkeeps.rsp_le hrest.2 hobeys.2
      rw [exec, hregs] at ha
      exact (hresumes.1.mem_eq a ha hlt).trans (hagree.mem_eq a ha hlt)

end Activity

/-- However deep interrupts nest, each is dispatched by its own number and gives back the
registers and the stack of what it has interrupted. What a program computes in these is what it
computes without interrupts. -/
theorem nested_resume (s : StackArea) (m : Machine Gpr)
    (hrsp : height s.bottom (m.regs .rsp) ≤ s.size) (activities : List Activity)
    (hobeys : Activity.ObeysAll s s.size m activities) :
    Activity.EveryResumesAll s m activities ∧
      ((∀ activity ∈ activities, activity.OnStack s) →
        Agree s (Activity.execAll m activities)
          (Activity.execAll m (activities.filter Activity.isRun))) := by
  refine ⟨(Activity.keeps_execAll m le_rfl hrsp activities hobeys).2, fun hlocal => ?_⟩
  exact Activity.agree_execAll ⟨rfl, fun _ _ _ => rfl⟩ hrsp hlocal hobeys

/-- Code that sets a register. -/
def setting (r : Gpr) (value : UInt64) (m : Machine Gpr) : Machine Gpr :=
  { m with regs := Function.update m.regs r value }

theorem keeps_setting {s : StackArea} {floor : ℕ} {m : Machine Gpr} {r : Gpr} (hr : r ≠ .rsp)
    (value : UInt64) (hrsp : height s.bottom (m.regs .rsp) ≤ floor) :
    Keeps s floor m (setting r value m) := by
  have hkept : (setting r value m).regs .rsp = m.regs .rsp := by simp [setting, hr.symm]
  exact ⟨fun _ _ _ => rfl, hkept ▸ hrsp⟩

/-- Interrupt 33 is interrupted by a breakpoint. -/
theorem nested_resume_breakpoint :
    let m : Machine Gpr := ⟨fun r => if r = .rsp then 0x7000 else 7, fun _ => 0⟩
    let breakpoint := Activity.interrupt 3 sampleDelivery 0x500010 [.run (setting .rbx 2)]
    let activities := [.interrupt 33 sampleDelivery 0x500000 [.run (setting .rax 1), breakpoint]]
    Activity.EveryResumesAll ⟨0x4000, 0x4000, by decide⟩ m activities ∧
      (Activity.execAll m activities).regs = m.regs := by
  intro m breakpoint activities
  have hobeys : Activity.ObeysAll ⟨0x4000, 0x4000, by decide⟩ 0x4000 m activities := by
    refine ⟨⟨by decide, by decide, ⟨keeps_setting (by decide) 1 le_rfl, ?_, trivial⟩, ?_⟩, trivial⟩
    · exact ⟨by decide, by decide, ⟨keeps_setting (by decide) 2 le_rfl, trivial⟩,
        by decide +kernel⟩
    · decide +kernel
  obtain ⟨hevery, hagree⟩ := nested_resume _ m (by decide) activities hobeys
  exact ⟨hevery, (hagree (by simp [activities, Activity.OnStack])).regs_eq⟩

end SimurghHal.Cpu.X86_64
