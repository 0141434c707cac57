import Mathlib.Data.Nat.Notation
import Mathlib.Logic.Function.Basic

/-!
# Code that keeps registers on a stack

Straight-line code that pushes words and pops them again. The stack grows down in steps of
eight bytes, and memory is seen as words at the addresses that are used. `OnTop` says with which
words the stack begins: a push puts a word in front, a pop takes it away, so code is followed
by lists of words instead of addresses. `Grown` says by how many bytes the stack has grown, and
that nothing above has changed.
-/

namespace Stack

variable {R : Type*}

/-- Registers and the words in memory. -/
structure Machine (R : Type*) where
  regs : R → UInt64
  mem : UInt64 → UInt64

/-- Instructions over registers `R`. -/
inductive Instr (R : Type*) where
  | push (src : R)
  | pushImm (value : UInt64)
  | pop (dst : R)
  | move (dst src : R)
  | add (dst : R) (value : UInt64)
  deriving DecidableEq, Repr

section Exec

variable [DecidableEq R] (sp : R)

/-- Lowers the stack pointer and stores a word there. -/
def Machine.pushWord (m : Machine R) (value : UInt64) : Machine R :=
  let top := m.regs sp - 8
  ⟨Function.update m.regs sp top, Function.update m.mem top value⟩

/-- Loads a word and raises the stack pointer. -/
def Machine.popWord (m : Machine R) (dst : R) : Machine R :=
  let top := m.regs sp
  { m with regs := Function.update (Function.update m.regs sp (top + 8)) dst (m.mem top) }

def Instr.apply (m : Machine R) : Instr R → Machine R
  | .push src => m.pushWord sp (m.regs src)
  | .pushImm value => m.pushWord sp value
  | .pop dst => m.popWord sp dst
  | .move dst src => { m with regs := Function.update m.regs dst (m.regs src) }
  | .add dst value => { m with regs := Function.update m.regs dst (m.regs dst + value) }

def exec (code : List (Instr R)) (m : Machine R) : Machine R :=
  code.foldl (fun m instr => instr.apply sp m) m

@[simp] theorem exec_nil (m : Machine R) : exec sp [] m = m := rfl

@[simp] theorem exec_cons (instr : Instr R) (code : List (Instr R)) (m : Machine R) :
    exec sp (instr :: code) m = exec sp code (instr.apply sp m) := rfl

theorem exec_append (code code' : List (Instr R)) (m : Machine R) :
    exec sp (code ++ code') m = exec sp code' (exec sp code m) :=
  List.foldl_append

end Exec

/-! ### Words in memory -/

/-- The words from this address on begin with these. -/
def Holds (mem : UInt64 → UInt64) : UInt64 → List UInt64 → Prop
  | _, [] => True
  | addr, w :: ws => mem addr = w ∧ Holds mem (addr + 8) ws

theorem addr_succ (addr : UInt64) (n : ℕ) :
    addr + 8 + UInt64.ofNat (8 * n) = addr + UInt64.ofNat (8 * (n + 1)) := by
  rw [Nat.mul_add, UInt64.ofNat_add, UInt64.add_assoc, UInt64.add_comm (UInt64.ofNat (8 * n))]
  rfl

theorem holds_append {mem : UInt64 → UInt64} {ws vs : List UInt64} {addr : UInt64} :
    Holds mem addr (ws ++ vs) ↔
      Holds mem addr ws ∧ Holds mem (addr + UInt64.ofNat (8 * ws.length)) vs := by
  induction ws generalizing addr with
  | nil => simp [Holds]
  | cons w ws ih =>
    rw [List.cons_append, Holds, Holds, ih, addr_succ, and_assoc, List.length_cons]

theorem Holds.congr {mem mem' : UInt64 → UInt64} {ws : List UInt64} {addr : UInt64}
    (h : Holds mem addr ws)
    (hmem : ∀ i < ws.length, mem' (addr + UInt64.ofNat (8 * i)) = mem (addr + UInt64.ofNat (8 * i))) :
    Holds mem' addr ws := by
  induction ws generalizing addr with
  | nil => trivial
  | cons w ws ih =>
    have hzero : addr + UInt64.ofNat (8 * 0) = addr := UInt64.add_zero addr
    have hfirst := hmem 0 (Nat.succ_pos _)
    rw [hzero] at hfirst
    refine ⟨hfirst.trans h.1, ih h.2 fun i hi => ?_⟩
    rw [addr_succ]
    exact hmem (i + 1) (Nat.succ_lt_succ hi)

/-- A word stored right below is not one of them, as long as they do not go around. -/
theorem Holds.store_below {mem : UInt64 → UInt64} {ws : List UInt64} {addr : UInt64}
    (h : Holds mem addr ws) (hlength : 8 * (ws.length + 1) ≤ UInt64.size) (value : UInt64) :
    Holds (Function.update mem (addr - 8) value) addr ws := by
  refine h.congr fun i hi => Function.update_of_ne (fun haddr => ?_) _ _
  have hsum := congrArg UInt64.toNat haddr
  rw [UInt64.toNat_add, UInt64.toNat_sub, UInt64.toNat_ofNat'] at hsum
  have height : (8 : UInt64).toNat = 8 := rfl
  have hlt := addr.toNat_lt
  simp only [UInt64.size] at hlength
  omega

/-! ### The top of the stack -/

/-- The stack begins with these words. -/
def OnTop (sp : R) (m : Machine R) (ws : List UInt64) : Prop := Holds m.mem (m.regs sp) ws

section Top

variable [DecidableEq R] {sp : R} {m : Machine R} {ws : List UInt64}

theorem regs_sp_pushWord (value : UInt64) : (m.pushWord sp value).regs sp = m.regs sp - 8 :=
  Function.update_self _ _ _

theorem regs_pushWord_of_ne (value : UInt64) {r : R} (hr : r ≠ sp) :
    (m.pushWord sp value).regs r = m.regs r :=
  Function.update_of_ne hr _ _

theorem OnTop.pushWord (h : OnTop sp m ws) (hlength : 8 * (ws.length + 1) ≤ UInt64.size)
    (value : UInt64) : OnTop sp (m.pushWord sp value) (value :: ws) := by
  rw [OnTop, regs_sp_pushWord]
  refine ⟨Function.update_self _ _ _, ?_⟩
  rw [UInt64.sub_add_cancel]
  exact Holds.store_below h hlength value

/-- Words that are pushed one after the other. -/
theorem OnTop.foldl_pushWord {vs : List UInt64} (h : OnTop sp m ws)
    (hlength : 8 * (vs.length + ws.length) ≤ UInt64.size) :
    OnTop sp (vs.foldl (Machine.pushWord sp) m) (vs.reverse ++ ws) := by
  induction vs generalizing m ws with
  | nil => exact h
  | cons v vs ih =>
    rw [List.length_cons] at hlength
    have hpushed := h.pushWord (by omega) v
    have hrest := ih hpushed (by rw [List.length_cons]; omega)
    rw [List.reverse_cons, List.append_assoc]
    exact hrest

theorem regs_sp_popWord {r : R} (hr : r ≠ sp) :
    (m.popWord sp r).regs sp = m.regs sp + 8 :=
  (Function.update_of_ne hr.symm _ _).trans (Function.update_self _ _ _)

theorem regs_popWord_of_ne {r r' : R} (hr : r' ≠ r) (hsp : r' ≠ sp) :
    (m.popWord sp r).regs r' = m.regs r' :=
  (Function.update_of_ne hr _ _).trans (Function.update_of_ne hsp _ _)

theorem OnTop.popWord {w : UInt64} {r : R} (h : OnTop sp m (w :: ws)) (hr : r ≠ sp) :
    OnTop sp (m.popWord sp r) ws ∧ (m.popWord sp r).regs r = w := by
  refine ⟨?_, (Function.update_self _ _ _).trans h.1⟩
  rw [OnTop, regs_sp_popWord hr]
  exact h.2

theorem regs_move_self {dst src : R} :
    (Instr.apply sp m (.move dst src)).regs dst = m.regs src :=
  Function.update_self _ _ _

theorem regs_move_of_ne {dst src r : R} (hr : r ≠ dst) :
    (Instr.apply sp m (.move dst src)).regs r = m.regs r :=
  Function.update_of_ne hr _ _

theorem OnTop.move {dst src : R} (h : OnTop sp m ws) (hsp : sp ≠ dst) :
    OnTop sp (Instr.apply sp m (.move dst src)) ws := by
  rw [OnTop, regs_move_of_ne hsp]
  exact h

theorem regs_add_self {dst : R} (value : UInt64) :
    (Instr.apply sp m (.add dst value)).regs dst = m.regs dst + value :=
  Function.update_self _ _ _

theorem regs_add_of_ne {dst r : R} (value : UInt64) (hr : r ≠ dst) :
    (Instr.apply sp m (.add dst value)).regs r = m.regs r :=
  Function.update_of_ne hr _ _

/-! ### Lists of registers -/

section Pushes

variable {rs : List R}

theorem regs_sp_exec_pushes :
    (exec sp (rs.map .push) m).regs sp + UInt64.ofNat (8 * rs.length) = m.regs sp := by
  induction rs generalizing m with
  | nil => exact UInt64.add_zero _
  | cons r rs ih =>
    rw [List.map_cons, exec_cons, List.length_cons, ← addr_succ, UInt64.add_assoc,
      UInt64.add_comm 8, ← UInt64.add_assoc, ih]
    exact (congrArg (· + 8) (regs_sp_pushWord _)).trans (UInt64.sub_add_cancel _ _)

/-- Registers that are pushed stand on the stack in the opposite order. -/
theorem OnTop.exec_pushes (hsp : sp ∉ rs) (h : OnTop sp m ws)
    (hlength : 8 * (rs.length + ws.length) ≤ UInt64.size) :
    OnTop sp (exec sp (rs.map .push) m) ((rs.map m.regs).reverse ++ ws) := by
  induction rs generalizing m ws with
  | nil => exact h
  | cons r rs ih =>
    rw [List.length_cons] at hlength
    obtain ⟨hr, hrs⟩ := not_or.mp (List.mem_cons.not.mp hsp)
    have hpushed := h.pushWord (by omega) (m.regs r)
    have hrest := ih hrs hpushed (by rw [List.length_cons]; omega)
    have hvalues : rs.map (m.pushWord sp (m.regs r)).regs = rs.map m.regs :=
      List.map_congr_left fun r' hr' => regs_pushWord_of_ne _ fun heq => hrs (heq ▸ hr')
    rw [hvalues] at hrest
    rw [List.map_cons, exec_cons, List.map_cons, List.reverse_cons, List.append_assoc]
    exact hrest

end Pushes

section Pops

variable {rs : List R}

theorem regs_exec_pops_of_notMem {r : R} (hr : r ∉ rs) (hsp : r ≠ sp) :
    (exec sp (rs.map .pop) m).regs r = m.regs r := by
  induction rs generalizing m with
  | nil => rfl
  | cons r' rs ih =>
    obtain ⟨hne, hrs⟩ := not_or.mp (List.mem_cons.not.mp hr)
    rw [List.map_cons, exec_cons, ih hrs]
    exact regs_popWord_of_ne hne hsp

theorem regs_sp_exec_pops (hsp : sp ∉ rs) :
    (exec sp (rs.map .pop) m).regs sp = m.regs sp + UInt64.ofNat (8 * rs.length) := by
  induction rs generalizing m with
  | nil => exact (UInt64.add_zero _).symm
  | cons r rs ih =>
    obtain ⟨hr, hrs⟩ := not_or.mp (List.mem_cons.not.mp hsp)
    rw [List.map_cons, exec_cons, ih hrs, List.length_cons, ← addr_succ]
    exact congrArg (· + _) (regs_sp_popWord fun heq => hr heq.symm)

/-- Registers that are popped get the words on the stack in order. -/
theorem OnTop.exec_pops {vs : List UInt64} (hnodup : rs.Nodup) (hsp : sp ∉ rs)
    (hlength : rs.length = vs.length) (h : OnTop sp m (vs ++ ws)) :
    OnTop sp (exec sp (rs.map .pop) m) ws ∧ rs.map (exec sp (rs.map .pop) m).regs = vs := by
  induction rs generalizing m vs with
  | nil =>
    obtain rfl := List.length_eq_zero_iff.mp hlength.symm
    exact ⟨h, rfl⟩
  | cons r rs ih =>
    obtain ⟨hr, hrs⟩ := not_or.mp (List.mem_cons.not.mp hsp)
    obtain ⟨hnotMem, hnodup⟩ := List.nodup_cons.mp hnodup
    cases vs with
    | nil => cases hlength
    | cons v vs =>
      obtain ⟨htop, hvalue⟩ := OnTop.popWord h fun heq => hr heq.symm
      obtain ⟨hrest, hvalues⟩ := ih hnodup hrs (Nat.succ.inj hlength) htop
      rw [List.map_cons, exec_cons, List.map_cons]
      refine ⟨hrest, ?_⟩
      -- the first register is not popped again
      have hfirst := regs_exec_pops_of_notMem (m := m.popWord sp r) hnotMem fun heq => hr heq.symm
      exact congrArg₂ List.cons (hfirst.trans hvalue) hvalues

end Pops

end Top

/-! ### How far the stack has grown -/

/-- The bytes from the bottom of the stack to an address. -/
def height (bottom addr : UInt64) : ℕ := (addr - bottom).toNat

theorem height_sub {bottom addr k : UInt64} (hk : k.toNat ≤ height bottom addr) :
    height bottom (addr - k) + k.toNat = height bottom addr := by
  have hlt := addr.toNat_lt
  have hbottom := bottom.toNat_lt
  have hk' := k.toNat_lt
  simp only [height, UInt64.toNat_sub] at hk ⊢
  omega

/-- Distances are the same from any address below. -/
theorem sub_lt_sub_of_height {bottom low addr high : UInt64}
    (hlow : height bottom low ≤ height bottom addr)
    (hhigh : height bottom addr < height bottom high) :
    (addr - low).toNat < (high - low).toNat := by
  have hbottom := bottom.toNat_lt
  have haddr := addr.toNat_lt
  have hlow' := low.toNat_lt
  have hhigh' := high.toNat_lt
  simp only [height, UInt64.toNat_sub] at hlow hhigh ⊢
  omega

theorem height_add {bottom addr k : UInt64} (hk : height bottom addr + k.toNat < UInt64.size) :
    height bottom (addr + k) = height bottom addr + k.toNat := by
  have hlt := addr.toNat_lt
  have hbottom := bottom.toNat_lt
  simp only [height, UInt64.toNat_sub, UInt64.toNat_add, UInt64.size] at hk ⊢
  omega

/-- The stack has grown by `n` bytes, and nothing at or above the old top has changed. -/
structure Grown (sp : R) (bottom : UInt64) (n : ℕ) (m m' : Machine R) : Prop where
  height_eq : height bottom (m'.regs sp) + n = height bottom (m.regs sp)
  mem_eq : ∀ a, height bottom (m.regs sp) ≤ height bottom a → m'.mem a = m.mem a

section Growth

variable {sp : R} {bottom : UInt64} {n k : ℕ} {m m' m'' : Machine R}

theorem Grown.refl : Grown sp bottom 0 m m := ⟨rfl, fun _ _ => rfl⟩

theorem Grown.trans (h : Grown sp bottom n m m') (h' : Grown sp bottom k m' m'') :
    Grown sp bottom (n + k) m m'' where
  height_eq := by
    have hn := h.height_eq
    have hk := h'.height_eq
    omega
  mem_eq a ha := by
    have hn := h.height_eq
    exact (h'.mem_eq a (by omega)).trans (h.mem_eq a ha)

variable [DecidableEq R]

theorem grown_pushWord (h : 8 ≤ height bottom (m.regs sp)) (value : UInt64) :
    Grown sp bottom 8 m (m.pushWord sp value) := by
  have hheight : height bottom (m.regs sp - 8) + 8 = height bottom (m.regs sp) := height_sub h
  refine ⟨?_, fun a ha => Function.update_of_ne ?_ _ _⟩
  · rw [regs_sp_pushWord, hheight]
  · rintro rfl
    omega

theorem grown_foldl_pushWord {vs : List UInt64}
    (h : 8 * vs.length ≤ height bottom (m.regs sp)) :
    Grown sp bottom (8 * vs.length) m (vs.foldl (Machine.pushWord sp) m) := by
  induction vs generalizing m with
  | nil => exact Grown.refl
  | cons v vs ih =>
    rw [List.length_cons] at h ⊢
    have hfirst := grown_pushWord (show 8 ≤ height bottom (m.regs sp) by omega) v
    have hheight := hfirst.height_eq
    have hrest := hfirst.trans (ih (m := m.pushWord sp v) (by omega))
    rw [show 8 * (vs.length + 1) = 8 + 8 * vs.length by omega]
    exact hrest

theorem grown_exec_pushes {rs : List R} (h : 8 * rs.length ≤ height bottom (m.regs sp)) :
    Grown sp bottom (8 * rs.length) m (exec sp (rs.map .push) m) := by
  induction rs generalizing m with
  | nil => exact Grown.refl
  | cons r rs ih =>
    rw [List.length_cons] at h ⊢
    have hfirst := grown_pushWord (show 8 ≤ height bottom (m.regs sp) by omega) (m.regs r)
    have hheight := hfirst.height_eq
    have hrest := hfirst.trans (ih (m := m.pushWord sp (m.regs r)) (by omega))
    rw [show 8 * (rs.length + 1) = 8 + 8 * rs.length by omega]
    exact hrest

@[simp] theorem mem_add (dst : R) (value : UInt64) :
    (Instr.apply sp m (.add dst value)).mem = m.mem := rfl

theorem mem_exec_pops (rs : List R) : (exec sp (rs.map .pop) m).mem = m.mem := by
  induction rs generalizing m with
  | nil => rfl
  | cons r rs ih => exact ih

end Growth

end Stack
