import SimurghHal.Lib.Switching

/-!
# Checking a switching block

Symbolic execution finds, for every register and slot, which word of the start of the
block ends up there. At most one word is on the stack at a time, and the stack pointer
is not used while it is. A block that passes `check` implements its layout
(`implements_of_check`).
-/

namespace Switching

variable {R T : Type*} [DecidableEq R] [DecidableEq T]

/-- Words at the start of a block. -/
inductive Word (R : Type*) where
  | reg (r : R)
  /-- A slot of the thread that is switched in. -/
  | slot (offset : ℕ)
  | behind
  deriving DecidableEq, Repr

def Word.value (m : Machine R T) (dst : T) (behind : UInt64) : Word R → UInt64
  | .reg r => m.regs r
  | .slot offset => m.areas dst offset
  | .behind => behind

/-- Where these words are. -/
structure Sym (R : Type*) where
  regs : R → Word R
  /-- Slots stored to so far. -/
  stored : ℕ → Option (Word R)
  pushed : Option (Word R)

def Sym.initial : Sym R := ⟨.reg, fun _ => none, none⟩

/-- The register can be used now. -/
def Sym.ready (σ : Sym R) (sp r : R) : Bool := r ≠ sp || σ.pushed.isNone

def Instr.applySym (sp : R) (σ : Sym R) : Instr R → Option (Sym R)
  | .store offset r =>
    if σ.ready sp r then
      some { σ with stored := Function.update σ.stored offset (some (σ.regs r)) }
    else none
  | .load r offset =>
    if σ.ready sp r then some { σ with regs := Function.update σ.regs r (.slot offset) } else none
  | .move r r' =>
    if σ.ready sp r && σ.ready sp r' then
      some { σ with regs := Function.update σ.regs r (σ.regs r') }
    else none
  | .label r =>
    if σ.ready sp r then some { σ with regs := Function.update σ.regs r .behind } else none
  | .push r =>
    if r ≠ sp ∧ σ.pushed = none then some { σ with pushed := some (σ.regs r) } else none
  | .pop r =>
    if r ≠ sp then
      σ.pushed.map fun w => { σ with regs := Function.update σ.regs r w, pushed := none }
    else none
  | .fence => some σ
  | .jump _ => none

def execSym (sp : R) : List (Instr R) → Sym R → Option (Sym R × Word R)
  | [], σ => if σ.pushed = none then some (σ, .behind) else none
  | .jump r :: _, σ => if σ.pushed = none then some (σ, σ.regs r) else none
  | i :: is, σ => (i.applySym sp σ).bind (execSym sp is)

/-- The symbolic state describes the machine `m'` reached from `m`. -/
structure Describes (sp : R) (src dst : T) (behind : UInt64) (m : Machine R T) (σ : Sym R)
    (m' : Machine R T) : Prop where
  regs : ∀ r, r ≠ sp ∨ σ.pushed = none → m'.regs r = (σ.regs r).value m dst behind
  stored : ∀ offset w, σ.stored offset = some w → m'.areas src offset = w.value m dst behind
  frame : ∀ t, t ≠ src → m'.areas t = m.areas t
  pushed : ∀ w, σ.pushed = some w → m'.regs sp + 8 = (σ.regs sp).value m dst behind ∧
    m'.stack (m'.regs sp) = w.value m dst behind

section Sound

variable {sp : R} {src dst : T} {behind : UInt64} {m m' : Machine R T} {σ σ' : Sym R}

omit [DecidableEq R] [DecidableEq T] in
theorem describes_initial : Describes sp src dst behind m .initial m where
  regs _ _ := rfl
  stored _ _ h := by cases h
  frame _ _ := rfl
  pushed _ h := by cases h

omit [DecidableEq T] in
theorem Sym.ready_iff {r : R} : σ.ready sp r = true ↔ r ≠ sp ∨ σ.pushed = none := by
  simp [Sym.ready]

omit [DecidableEq T] in
/-- Writing a known word to a register that can be used. -/
theorem Describes.setReg (h : Describes sp src dst behind m σ m') {r : R} {w : Word R}
    (hr : r ≠ sp ∨ σ.pushed = none) {value : UInt64} (hvalue : value = w.value m dst behind) :
    Describes sp src dst behind m { σ with regs := Function.update σ.regs r w }
      (m'.setReg r value) where
  regs r' hr' := by
    by_cases he : r' = r
    · subst he
      simpa using hvalue
    · simpa [Function.update_of_ne he] using h.regs r' hr'
  stored := h.stored
  frame := h.frame
  pushed w' hw' := by
    -- a word is on the stack, so the register is not the stack pointer
    have hne : sp ≠ r := fun he => by simp_all
    simpa [Function.update_of_ne hne] using h.pushed w' hw'

omit [DecidableEq R] in
theorem Describes.setSlot (h : Describes sp src dst behind m σ m') (offset : ℕ) {w : Word R}
    {value : UInt64} (hvalue : value = w.value m dst behind) :
    Describes sp src dst behind m
      { σ with stored := Function.update σ.stored offset (some w) }
      (m'.setSlot src offset value) where
  regs := h.regs
  stored offset' w' hw' := by
    simp only [Machine.areas_setSlot_self] at hw' ⊢
    by_cases he : offset' = offset
    · subst he
      simp only [Function.update_self, Option.some.injEq] at hw' ⊢
      rw [hvalue, hw']
    · rw [Function.update_of_ne he] at hw' ⊢
      exact h.stored offset' w' hw'
  frame t ht := (m'.areas_setSlot_of_ne src offset value ht).trans (h.frame t ht)
  pushed := h.pushed

/-- One instruction executed symbolically. -/
theorem Describes.apply (hdst : dst ≠ src) (h : Describes sp src dst behind m σ m')
    {i : Instr R} (hi : i.applySym sp σ = some σ') :
    Describes sp src dst behind m σ' (i.apply sp src dst behind m') := by
  cases i with
  | store offset r =>
    simp only [Instr.applySym, Option.ite_none_right_eq_some, Option.some.injEq] at hi
    obtain ⟨hr, rfl⟩ := hi
    exact h.setSlot offset (h.regs r (Sym.ready_iff.mp hr))
  | load r offset =>
    simp only [Instr.applySym, Option.ite_none_right_eq_some, Option.some.injEq] at hi
    obtain ⟨hr, rfl⟩ := hi
    exact h.setReg (Sym.ready_iff.mp hr) (by rw [h.frame dst hdst]; rfl)
  | move r r' =>
    simp only [Instr.applySym, Bool.and_eq_true, Option.ite_none_right_eq_some,
      Option.some.injEq] at hi
    obtain ⟨⟨hr, hr'⟩, rfl⟩ := hi
    exact h.setReg (Sym.ready_iff.mp hr) (h.regs r' (Sym.ready_iff.mp hr'))
  | label r =>
    simp only [Instr.applySym, Option.ite_none_right_eq_some, Option.some.injEq] at hi
    obtain ⟨hr, rfl⟩ := hi
    exact h.setReg (Sym.ready_iff.mp hr) rfl
  | push r =>
    simp only [Instr.applySym, Option.ite_none_right_eq_some, Option.some.injEq] at hi
    obtain ⟨⟨hr, hempty⟩, rfl⟩ := hi
    refine ⟨fun r' hr' => ?_, h.stored, h.frame, fun w hw => ?_⟩
    · have hne : r' ≠ sp := hr'.resolve_right (by simp)
      simpa [Instr.apply, Function.update_of_ne hne] using h.regs r' (.inl hne)
    · obtain rfl := Option.some.inj hw
      simp [Instr.apply, h.regs sp (.inr hempty), h.regs r (.inl hr)]
  | pop r =>
    simp only [Instr.applySym, ne_eq, ite_not, Option.ite_none_left_eq_some, Option.map_eq_some_iff]
      at hi
    obtain ⟨hr, w, hw, rfl⟩ := hi
    obtain ⟨hsp, htop⟩ := h.pushed w hw
    refine ⟨fun r' _ => ?_, h.stored, h.frame, fun w' hw' => by cases hw'⟩
    by_cases hr' : r' = r
    · subst hr'
      simpa [Instr.apply] using htop
    · by_cases hr'' : r' = sp
      · subst hr''
        simpa [Instr.apply, Function.update_of_ne hr'] using hsp
      · simpa [Instr.apply, Function.update_of_ne hr', Function.update_of_ne hr''] using
          h.regs r' (.inl hr'')
  | fence =>
    obtain rfl := Option.some.inj hi
    exact h
  | jump r => cases hi

/-- A block executed symbolically. -/
theorem describes_exec (hdst : dst ≠ src) {target : Word R} (block : List (Instr R)) :
    ∀ {σ : Sym R} {m' : Machine R T}, Describes sp src dst behind m σ m' →
      execSym sp block σ = some (σ', target) →
        Describes sp src dst behind m σ' (exec sp src dst behind block m').1 ∧
          σ'.pushed = none ∧
          (exec sp src dst behind block m').2 = target.value m dst behind := by
  induction block with
  | nil =>
    intro σ m' h hblock
    simp only [execSym, Option.ite_none_right_eq_some, Option.some.injEq, Prod.mk.injEq] at hblock
    obtain ⟨hempty, rfl, rfl⟩ := hblock
    exact ⟨h, hempty, rfl⟩
  | cons i block ih =>
    intro σ m' h hblock
    by_cases hjump : ∃ r, i = .jump r
    · obtain ⟨r, rfl⟩ := hjump
      simp only [execSym, Option.ite_none_right_eq_some, Option.some.injEq, Prod.mk.injEq]
        at hblock
      obtain ⟨hempty, rfl, rfl⟩ := hblock
      exact ⟨h, hempty, h.regs r (.inr hempty)⟩
    · have hsym : execSym sp (i :: block) σ = (i.applySym sp σ).bind (execSym sp block) := by
        cases i <;> first | rfl | simp at hjump
      have hexec : exec sp src dst behind (i :: block) m' =
          exec sp src dst behind block (i.apply sp src dst behind m') := by
        cases i <;> first | rfl | simp at hjump
      rw [hsym, Option.bind_eq_some_iff] at hblock
      obtain ⟨σ₁, hi, hrest⟩ := hblock
      rw [hexec]
      exact ih (h.apply hdst hi) hrest

end Sound

/-- The block does by symbolic execution what the layout says. -/
def check (code : Code R) (layout : Layout R) : Bool :=
  match execSym code.sp code.block .initial with
  | some (σ, target) =>
    layout.saved.all (fun r => σ.stored (layout.offset r) = some (.reg r) &&
      σ.regs r = .slot (layout.offset r)) &&
    σ.stored layout.resume = some .behind && target = .slot layout.resume &&
    layout.links.all (fun r => σ.regs r = .slot layout.resume) &&
    layout.kept.all (fun r => σ.regs r = .reg r)
  | none => false

theorem implements_of_check {code : Code R} {layout : Layout R} (h : check code layout = true) :
    Implements T code layout := by
  intro m src dst behind hdst
  rw [check] at h
  split at h
  · next σ target hsym =>
    have hinit : Describes code.sp src dst behind m .initial m := describes_initial
    obtain ⟨hdesc, hempty, htarget⟩ := describes_exec hdst code.block hinit hsym
    simp only [Bool.and_eq_true, List.all_eq_true, decide_eq_true_eq] at h
    obtain ⟨⟨⟨⟨hsaved, hresume⟩, hjump⟩, hlinks⟩, hkept⟩ := h
    refine ⟨fun r hr => ?_, ?_, hdesc.frame, fun r hr => ?_, ?_, fun r hr => ?_, fun r hr => ?_⟩
    · exact hdesc.stored _ _ (hsaved r hr).1
    · exact hdesc.stored _ _ hresume
    · rw [hdesc.regs r (.inr hempty), (hsaved r hr).2]
      rfl
    · rw [htarget, hjump]
      rfl
    · rw [hdesc.regs r (.inr hempty), hlinks r hr]
      rfl
    · rw [hdesc.regs r (.inr hempty), hkept r hr]
      rfl
  · cases h

end Switching
