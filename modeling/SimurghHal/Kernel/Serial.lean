import Mathlib.Data.PNat.Defs
import SimurghHal.Lib.Polling

/-!
# Serial output of the kernel stub (`kernel-stub/src/main.rs`)

The stub prints through a 16550 on x86_64 and through a PL011 on ARM64. It initializes the
device, reads a status flag until there is room for the next byte, and writes it. The device
sends at its own pace, and the firmware may have left anything in its registers and its FIFO.

`Machine` is the code and the device together, one access at a time. `Polled` connects a
backend to the abstract polled output. From it follow what is on the line in every state of
every interleaving, that under a fair schedule the whole text is sent, and what a panic in the
middle of the output can lose.
-/

namespace SimurghHal.Serial

open Polling FairRun

/-- One access of the code to the serial device. -/
inductive Access (ω : Type) where
  /-- Wait for the ready flag. -/
  | await
  | write (w : ω)
  deriving DecidableEq, Repr

/-- A serial device, and the accesses of `backend::init` and `backend::write_byte`. -/
structure Backend where
  Device : Type
  Write : Type
  ready : Device → Bool
  perform : Device → Write → Device
  /-- The device sends a byte. -/
  shift : Device → Device
  sent : Device → List UInt8
  queue : Device → List UInt8
  init : List Write
  writeByte : UInt8 → List (Access Write)

namespace Backend

variable (B : Backend)

/-- What was sent and what will be, as far as the device has it. -/
def line (d : B.Device) : List UInt8 := B.sent d ++ B.queue d

/-- `SerialWriter::init`. -/
def initAccesses : List (Access B.Write) := B.init.map .write

/-- `SerialWriter::write_str`. -/
def writeStr (bytes : List UInt8) : List (Access B.Write) := bytes.flatMap B.writeByte

end Backend

/-! ### The code and the device -/

structure Machine (B : Backend) where
  device : B.Device
  todo : List (Access B.Write)

variable {B : Backend}

/-- A step of the code is one access. A flag that is not set is read again. -/
def Machine.step (m : Machine B) : Agent → Machine B
  | .driver =>
    match m.todo with
    | [] => m
    | .await :: todo => if B.ready m.device then { m with todo } else m
    | .write w :: todo => { device := B.perform m.device w, todo }
  | .device => { m with device := B.shift m.device }

/-- The device as it is found, and the code that initializes it and prints. -/
def Machine.print (d : B.Device) (bytes : List UInt8) : Machine B where
  device := d
  todo := B.initAccesses ++ B.writeStr bytes

/-- `panic`: what was to be written is given up for the message. -/
def Machine.panic (m : Machine B) (message : List UInt8) : Machine B := .print m.device message

/-! ### The 16550 of x86_64 -/

def com1Port : UInt16 := 0x3F8

/-- The registers of a 16550 that are written. -/
structure Uart16550.Control where
  dll : UInt8
  dlm : UInt8
  ier : UInt8
  fcr : UInt8
  lcr : UInt8
  mcr : UInt8

structure Uart16550 where
  control : Uart16550.Control
  /-- The line status bits other than the transmitter's. -/
  lsr : UInt8
  fifo : List UInt8
  sent : List UInt8

namespace Uart16550

/-- The first two ports are the divisor's. -/
def Control.divisorLatch (c : Control) : Bool := c.lcr &&& 0x80 != 0

def Control.fifoEnabled (c : Control) : Bool := c.fcr &&& 0x01 != 0

/-- The registers after a write to a port. -/
def Control.outByte (c : Control) (port : UInt16) (value : UInt8) : Control :=
  if port = com1Port then if c.divisorLatch then { c with dll := value } else c
  else if port = com1Port + 1 then
    if c.divisorLatch then { c with dlm := value } else { c with ier := value }
  else if port = com1Port + 2 then { c with fcr := value }
  else if port = com1Port + 3 then { c with lcr := value }
  else if port = com1Port + 4 then { c with mcr := value }
  else c

/-- A FIFO control write clears the FIFO when it turns it on or off, or on request. -/
def Control.clears (c : Control) (value : UInt8) : Bool :=
  (value ^^^ c.fcr) &&& 0x01 != 0 || (value &&& 0x01 != 0 && value &&& 0x04 != 0)

/-- A byte for a full FIFO is lost. Without FIFO there is one holding register. -/
def transmit (d : Uart16550) (value : UInt8) : List UInt8 :=
  if d.control.fifoEnabled then if d.fifo.length < 16 then d.fifo ++ [value] else d.fifo
  else [value]

/-- `out_byte`. -/
def outByte (d : Uart16550) (port : UInt16) (value : UInt8) : Uart16550 where
  control := d.control.outByte port value
  lsr := d.lsr
  fifo :=
    if port = com1Port then if d.control.divisorLatch then d.fifo else d.transmit value
    else if port = com1Port + 2 then if d.control.clears value then [] else d.fifo
    else d.fifo
  sent := d.sent

/-- `in_byte`, of which only the line status register is read. Its bit 5 says that the
transmitter is empty. -/
def inByte (d : Uart16550) (port : UInt16) : UInt8 :=
  if port = com1Port + 5 then d.lsr &&& 0xDF ||| if d.fifo.isEmpty then 0x20 else 0 else 0xFF

def shift (d : Uart16550) : Uart16550 :=
  match d.fifo with
  | [] => d
  | byte :: fifo => { d with fifo, sent := d.sent ++ [byte] }

end Uart16550

/-- `backend` for x86_64. -/
def uart16550 : Backend where
  Device := Uart16550
  Write := UInt16 × UInt8
  ready d := d.inByte (com1Port + 5) &&& 0x20 != 0
  perform d w := d.outByte w.1 w.2
  shift := Uart16550.shift
  sent := Uart16550.sent
  queue := Uart16550.fifo
  init := [(com1Port + 1, 0x00), (com1Port + 3, 0x80), (com1Port + 0, 0x03),
    (com1Port + 1, 0x00), (com1Port + 3, 0x03), (com1Port + 2, 0xC7), (com1Port + 4, 0x0B)]
  writeByte byte := [.await, .write (com1Port, byte)]

/-! ### The PL011 of ARM64 -/

def pl011Base : UInt64 := 0x09000000
def pl011Dr : UInt64 := 0x000
def pl011Fr : UInt64 := 0x018
def pl011FrTxff : UInt32 := (1 : UInt32) <<< 5

/-- A PL011 with a FIFO of the given depth. -/
structure Pl011 (depth : ℕ+) where
  /-- The flags other than TXFF. -/
  flags : UInt32
  fifo : List UInt8
  sent : List UInt8
  fifo_le : fifo.length ≤ depth

namespace Pl011

variable {depth : ℕ+} (d : Pl011 depth)

def readVolatile (addr : UInt64) : UInt32 :=
  if addr = pl011Base + pl011Fr then
    d.flags &&& ~~~pl011FrTxff ||| if d.fifo.length < depth then 0 else pl011FrTxff
  else 0

/-- The data register takes the low byte, unless the FIFO is full. -/
def writeVolatile (addr : UInt64) (value : UInt32) : Pl011 depth :=
  if addr = pl011Base + pl011Dr then
    if h : d.fifo.length < depth then
      { d with
        fifo := d.fifo ++ [value.toUInt8]
        fifo_le := by
          rw [List.length_append, List.length_singleton]
          exact h }
    else d
  else d

def shift : Pl011 depth :=
  match h : d.fifo with
  | [] => d
  | byte :: fifo =>
    { d with
      fifo
      sent := d.sent ++ [byte]
      fifo_le := by
        have hle := d.fifo_le
        rw [h, List.length_cons] at hle
        exact Nat.le_of_succ_le hle }

end Pl011

/-- `backend` for ARM64. The FIFO is as deep as the firmware has left it: one byte when it is
off, sixteen or more when it is on. -/
def pl011 (depth : ℕ+) : Backend where
  Device := Pl011 depth
  Write := UInt64 × UInt32
  ready d := d.readVolatile (pl011Base + pl011Fr) &&& pl011FrTxff == 0
  perform d w := d.writeVolatile w.1 w.2
  shift := Pl011.shift
  sent := Pl011.sent
  queue := Pl011.fifo
  init := []
  writeByte byte := [.await, .write (pl011Base + pl011Dr, byte.toUInt32)]

/-! ### Backends as polled output -/

/-- What ties a backend to the abstract polled output: in a configured device the flag and the
data register are those of `port`, and the writes of `init` lead to a configured device. -/
structure Polled (B : Backend) where
  port : Port UInt8
  Configured : B.Device → Prop
  data : UInt8 → B.Write
  writeByte_eq : ∀ byte, B.writeByte byte = [.await, .write (data byte)]
  ready_eq : ∀ {d}, Configured d → B.ready d = port.ready (B.queue d)
  perform_data : ∀ {d} byte, Configured d → Configured (B.perform d (data byte)) ∧
    B.sent (B.perform d (data byte)) = B.sent d ∧
    B.queue (B.perform d (data byte)) =
      if (B.queue d).length < port.capacity then B.queue d ++ [byte] else B.queue d
  shift_nil : ∀ {d}, B.queue d = [] → B.shift d = d
  shift_cons : ∀ {d byte queue}, B.queue d = byte :: queue →
    B.sent (B.shift d) = B.sent d ++ [byte] ∧ B.queue (B.shift d) = queue
  configured_shift : ∀ {d}, Configured d → Configured (B.shift d)
  /-- The device, found as the first one, when these writes of `init` are left. -/
  Starting : B.Device → List B.Write → B.Device → Prop
  starting_init : ∀ d, Starting d B.init d
  starting_shift : ∀ {d₀ ws d}, Starting d₀ ws d → Starting d₀ ws (B.shift d)
  starting_perform : ∀ {d₀ w ws d}, Starting d₀ (w :: ws) d → Starting d₀ ws (B.perform d w)
  /-- How many bytes of the device `init` can lose. -/
  loss : B.Device → ℕ
  starting_line : ∀ {d₀ ws d}, Starting d₀ ws d →
    ∃ lost, B.line d₀ = B.line d ++ lost ∧ lost.length ≤ loss d₀
  starting_nil : ∀ {d₀ d}, Starting d₀ [] d →
    Configured d ∧ (B.queue d).length ≤ port.window

namespace Polled

variable (P : Polled B) {m : Machine B} {s : Polling.State UInt8}

/-- The accesses for what is still to be written. -/
def accesses : List UInt8 → Bool → List (Access B.Write)
  | [], _ => []
  | byte :: rest, true => .write (P.data byte) :: B.writeStr rest
  | byte :: rest, false => .await :: .write (P.data byte) :: B.writeStr rest

theorem accesses_false (bytes : List UInt8) : P.accesses bytes false = B.writeStr bytes := by
  cases bytes with
  | nil => rfl
  | cons byte rest =>
    rw [accesses, Backend.writeStr, Backend.writeStr, List.flatMap_cons, P.writeByte_eq]
    rfl

theorem eq_nil_of_accesses {bytes : List UInt8} {polled : Bool}
    (h : P.accesses bytes polled = []) : bytes = [] := by
  cases bytes with
  | nil => rfl
  | cons byte rest => cases polled <;> exact absurd h (List.cons_ne_nil _ _)

/-- The machine is past `init` and prints what is left of the abstract state. -/
structure Abstracts (m : Machine B) (s : Polling.State UInt8) : Prop where
  configured : P.Configured m.device
  passed : s.passed = B.sent m.device
  queue : s.queue = B.queue m.device
  todo : m.todo = P.accesses s.rest s.polled

/-- The machine takes the steps of the abstract driver and device. -/
theorem Abstracts.step {P : Polled B} (h : P.Abstracts m s) (agent : Agent) :
    P.Abstracts (m.step agent) (s.step P.port agent) := by
  obtain ⟨passed, queue, rest, polled⟩ := s
  obtain ⟨hconf, rfl, rfl, htodo⟩ := h
  cases agent with
  | driver =>
    match rest, polled with
    | [], _ =>
      rw [accesses] at htodo
      simp only [Machine.step, htodo, State.step, State.drive]
      exact ⟨hconf, rfl, rfl, htodo⟩
    | byte :: rest, false =>
      rw [accesses] at htodo
      have hready := P.ready_eq hconf
      simp only [Machine.step, htodo, State.step, State.drive, hready, Bool.false_eq_true,
        if_false]
      -- the flag is read, and the driver goes on when it is set
      split
      · next hset => exact ⟨hconf, rfl, rfl, by rw [hset]; rfl⟩
      · next hset =>
        rw [Bool.not_eq_true] at hset
        exact ⟨hconf, rfl, rfl, by rw [hset, htodo]; rfl⟩
    | byte :: rest, true =>
      rw [accesses] at htodo
      obtain ⟨hconf', hsent, hqueue⟩ := P.perform_data byte hconf
      simp only [Machine.step, htodo, State.step, State.drive, if_true]
      exact ⟨hconf', hsent.symm, hqueue.symm, (P.accesses_false rest).symm⟩
  | device =>
    simp only [Machine.step, State.step, State.drain]
    split
    · next hnil => exact ⟨P.configured_shift hconf, by rw [P.shift_nil hnil],
        by rw [P.shift_nil hnil], htodo⟩
    · next byte queue hcons =>
      obtain ⟨hsent, hqueue⟩ := P.shift_cons hcons
      exact ⟨P.configured_shift hconf, hsent.symm, hqueue.symm, htodo⟩

/-- These writes of `init` are left before the text. -/
structure BeforeText (d₀ : B.Device) (bytes : List UInt8) (ws : List B.Write) (m : Machine B) :
    Prop where
  todo : m.todo = ws.map .write ++ B.writeStr bytes
  device : P.Starting d₀ ws m.device

/-- The states of a run that found the device as `d₀` and prints `bytes`. -/
inductive Printing (d₀ : B.Device) (bytes : List UInt8) (m : Machine B) : Prop where
  | starting (ws : List B.Write) (before : P.BeforeText d₀ bytes ws m)
  /-- The device has kept what was found, up to what `init` has lost. -/
  | printing (found lost : List UInt8) (line : B.line d₀ = found ++ lost)
      (loss : lost.length ≤ P.loss d₀) (s : Polling.State UInt8) (abstracts : P.Abstracts m s)
      (inv : s.Inv P.port) (content : s.content = found ++ bytes) (rest : s.rest <:+ bytes)

variable {P} {d₀ : B.Device} {bytes : List UInt8} {ws : List B.Write}

theorem BeforeText.drive {w : B.Write} (h : P.BeforeText d₀ bytes (w :: ws) m) :
    P.BeforeText d₀ bytes ws (m.step .driver) := by
  have hstep : m.step .driver = ⟨B.perform m.device w, ws.map .write ++ B.writeStr bytes⟩ := by
    simp only [Machine.step, h.todo, List.map_cons, List.cons_append]
  rw [hstep]
  exact ⟨rfl, P.starting_perform h.device⟩

theorem BeforeText.shift (h : P.BeforeText d₀ bytes ws m) :
    P.BeforeText d₀ bytes ws (m.step .device) := ⟨h.todo, P.starting_shift h.device⟩

/-- The abstract state right after `init`. -/
def initial (m : Machine B) (bytes : List UInt8) : Polling.State UInt8 where
  passed := B.sent m.device
  queue := B.queue m.device
  rest := bytes
  polled := false

theorem BeforeText.abstracts (h : P.BeforeText d₀ bytes [] m) :
    P.Abstracts m (initial m bytes) ∧ (initial m bytes).Inv P.port := by
  obtain ⟨hconf, hqueue⟩ := P.starting_nil h.device
  refine ⟨⟨hconf, rfl, rfl, ?_⟩, ⟨hqueue, fun hfalse => absurd hfalse Bool.false_ne_true⟩⟩
  rw [h.todo]
  exact (P.accesses_false bytes).symm

/-- A step keeps what is said of the run. -/
theorem Printing.step (h : P.Printing d₀ bytes m) (agent : Agent) :
    P.Printing d₀ bytes (m.step agent) := by
  -- once `init` is over the abstract machine takes the step
  have hprinting : ∀ {found lost s}, B.line d₀ = found ++ lost → lost.length ≤ P.loss d₀ →
      P.Abstracts m s → s.Inv P.port → s.content = found ++ bytes → s.rest <:+ bytes →
      P.Printing d₀ bytes (m.step agent) := by
    intro found lost s hline hloss habs hinv hcontent hrest
    exact .printing found lost hline hloss _ (habs.step agent) (hinv.step agent)
      ((content_step hinv agent).trans hcontent) ((rest_step s agent).trans hrest)
  obtain ⟨ws, hbefore⟩ | ⟨found, lost, hline, hloss, s, habs, hinv, hcontent, hrest⟩ := h
  · cases ws with
    | nil =>
      obtain ⟨lost, hline, hloss⟩ := P.starting_line hbefore.device
      obtain ⟨habs, hinv⟩ := hbefore.abstracts
      exact hprinting hline hloss habs hinv rfl List.suffix_rfl
    | cons w ws =>
      cases agent with
      | driver => exact .starting ws hbefore.drive
      | device => exact .starting (w :: ws) hbefore.shift
  · exact hprinting hline hloss habs hinv hcontent hrest

theorem printing_trajectory (d : B.Device) (bytes : List UInt8) (schedule : ℕ → Agent) (n : ℕ) :
    P.Printing d bytes (trajectory Machine.step schedule (Machine.print d bytes) n) :=
  trajectory_invariant (fun _ agent h => h.step agent) (.starting _ ⟨rfl, P.starting_init d⟩) n

/-- What is on the line, and what is left of the text. -/
theorem Printing.exists_line (h : P.Printing d₀ bytes m) :
    ∃ found lost written rest, B.line d₀ = found ++ lost ∧ lost.length ≤ P.loss d₀ ∧
      bytes = written ++ rest ∧ B.line m.device = found ++ written ∧
      (m.todo = [] → rest = []) := by
  obtain ⟨ws, hbefore⟩ | ⟨found, lost, hline, hloss, s, habs, -, hcontent, hrest⟩ := h
  · obtain ⟨lost, hline, hloss⟩ := P.starting_line hbefore.device
    refine ⟨_, lost, [], bytes, hline, hloss, rfl, (List.append_nil _).symm, fun hnil => ?_⟩
    rw [hbefore.todo, ← P.accesses_false, List.append_eq_nil_iff] at hnil
    exact P.eq_nil_of_accesses hnil.2
  · obtain ⟨written, rfl⟩ := hrest
    refine ⟨found, lost, written, s.rest, hline, hloss, rfl, ?_, fun hnil => ?_⟩
    · rw [State.content, habs.passed, habs.queue, ← List.append_assoc] at hcontent
      exact List.append_cancel_right hcontent
    · exact P.eq_nil_of_accesses (habs.todo.symm.trans hnil)

/-- Past `init` the device holds no more than it is polled for. -/
theorem Printing.queue_le (h : P.Printing d₀ bytes m) (hinit : m.todo <:+ B.writeStr bytes) :
    (B.queue m.device).length ≤ P.port.window := by
  obtain ⟨ws, hbefore⟩ | ⟨found, lost, hline, hloss, s, habs, hinv, hcontent, hrest⟩ := h
  · have hws : ws = [] := by
      have hle := hinit.length_le
      rw [hbefore.todo, List.length_append, List.length_map] at hle
      exact List.length_eq_zero_iff.mp (by omega)
    subst hws
    exact (P.starting_nil hbefore.device).2
  · rw [← habs.queue]
    exact hinv.queue_le

/-- Under a fair schedule `init` comes to its end. -/
theorem BeforeText.exists_started {schedule : ℕ → Agent} (hfair : Fair schedule)
    (h : P.BeforeText d₀ bytes ws m) :
    ∃ n, P.BeforeText d₀ bytes [] (trajectory Machine.step schedule m n) := by
  induction ws generalizing m schedule with
  | nil => exact ⟨0, h⟩
  | cons w ws ih =>
    have hkeep : ∀ (m : Machine B) agent, P.BeforeText d₀ bytes (w :: ws) m →
        P.BeforeText d₀ bytes (w :: ws) (m.step agent) ∨
          P.BeforeText d₀ bytes ws (m.step agent) := by
      intro m agent hm
      cases agent with
      | driver => exact .inr hm.drive
      | device => exact .inl hm.shift
    obtain ⟨n, hn⟩ := hfair.exists_of_ensures hkeep (fun _ hm => hm.drive) h
    obtain ⟨k, hk⟩ := ih (hfair.shift n) hn
    exact ⟨n + k, by rw [trajectory_add]; exact hk⟩

/-- The whole text is sent. -/
theorem exists_sent (P : Polled B) (d : B.Device) (bytes : List UInt8) {schedule : ℕ → Agent}
    (hfair : Fair schedule) :
    ∃ found lost n, B.line d = found ++ lost ∧ lost.length ≤ P.loss d ∧ ∀ k, n ≤ k →
      let m := trajectory Machine.step schedule (Machine.print d bytes) k
      m.todo = [] ∧ B.queue m.device = [] ∧ B.sent m.device = found ++ bytes := by
  have hstart : P.BeforeText d bytes B.init (.print d bytes) := ⟨rfl, P.starting_init d⟩
  obtain ⟨n, hn⟩ := hstart.exists_started hfair
  obtain ⟨lost, hline, hloss⟩ := P.starting_line hn.device
  obtain ⟨habs, hinv⟩ := hn.abstracts
  obtain ⟨n', hdone⟩ := exists_delivered hinv (hfair.shift n)
  refine ⟨_, lost, n + n', hline, hloss, fun k hk => ?_⟩
  obtain ⟨j, rfl⟩ := Nat.exists_eq_add_of_le ((Nat.le_add_right _ _).trans hk)
  rw [trajectory_add]
  have hrel := trajectory_simulation (R := P.Abstracts) (fun _ _ agent h => h.step agent) habs
    (fun m => schedule (n + m)) j
  obtain ⟨hpassed, hqueue, hrest⟩ := hdone j (by omega)
  refine ⟨?_, hrel.queue.symm.trans hqueue, hrel.passed.symm.trans hpassed⟩
  rw [hrel.todo, hrest]
  rfl

end Polled

/-! ### The 16550 -/

namespace Uart16550

/-- The data port is the transmitter's, and the FIFO is on. -/
structure Control.Configured (c : Control) : Prop where
  divisorLatch : c.divisorLatch = false
  fifoEnabled : c.fifoEnabled = true

/-- None of the writes goes to the transmitter. -/
def Control.Quiet : Control → List (UInt16 × UInt8) → Prop
  | _, [] => True
  | c, w :: ws => (w.1 = com1Port → c.divisorLatch = true) ∧ (c.outByte w.1 w.2).Quiet ws

def Control.outAll (c : Control) (ws : List (UInt16 × UInt8)) : Control :=
  ws.foldl (fun c w => c.outByte w.1 w.2) c

/-- A write that clears the FIFO whatever the registers are. -/
def Clearing (w : UInt16 × UInt8) : Prop :=
  w.1 = com1Port + 2 ∧ w.2 &&& 0x01 ≠ 0 ∧ w.2 &&& 0x04 ≠ 0

/-- Whatever the registers were, the byte for the data port is the divisor's. -/
theorem quiet_init (c : Control) : c.Quiet uart16550.init := by
  simp [Control.Quiet, uart16550, Control.outByte, Control.divisorLatch, com1Port]

theorem configured_init (c : Control) : (c.outAll uart16550.init).Configured := by
  constructor
  · simp [Control.outAll, uart16550, Control.outByte, Control.divisorLatch, com1Port]
    decide
  · simp [Control.outAll, uart16550, Control.outByte, Control.fifoEnabled, com1Port]
    decide

theorem ready_eq (d : Uart16550) :
    (d.inByte (com1Port + 5) &&& 0x20 != 0) = d.fifo.isEmpty := by
  have hmask : ∀ x y : UInt8, (x &&& 0xDF ||| y) &&& 0x20 = y &&& 0x20 := by
    intro x y
    refine UInt8.toBitVec_inj.mp ?_
    show (x.toBitVec &&& 0xDF#8 ||| y.toBitVec) &&& 0x20#8 = y.toBitVec &&& 0x20#8
    rw [BitVec.and_or_distrib_right, BitVec.and_assoc]
    simp
  rw [inByte, if_pos rfl, hmask]
  cases d.fifo with
  | nil => rfl
  | cons byte fifo =>
    rw [List.isEmpty_cons]
    decide

theorem shift_of_nil {d : Uart16550} (h : d.fifo = []) : d.shift = d := by
  rw [shift]
  split
  · rfl
  · next hcons => exact absurd (hcons.symm.trans h) (List.cons_ne_nil _ _)

theorem shift_of_cons {d : Uart16550} {byte : UInt8} {fifo : List UInt8}
    (h : d.fifo = byte :: fifo) : d.shift = { d with fifo, sent := d.sent ++ [byte] } := by
  rw [shift]
  split
  · next hnil => exact absurd (h.symm.trans hnil) (List.cons_ne_nil _ _)
  · next hcons =>
    obtain ⟨rfl, rfl⟩ := List.cons.inj (hcons.symm.trans h)
    rfl

theorem control_shift (d : Uart16550) : d.shift.control = d.control := by
  rw [shift]
  split <;> rfl

theorem outByte_data {d : Uart16550} (h : d.control.Configured) (byte : UInt8) :
    (d.outByte com1Port byte).control.Configured ∧ (d.outByte com1Port byte).sent = d.sent ∧
      (d.outByte com1Port byte).fifo =
        if d.fifo.length < 16 then d.fifo ++ [byte] else d.fifo := by
  have hout : d.outByte com1Port byte =
      { d with fifo := if d.fifo.length < 16 then d.fifo ++ [byte] else d.fifo } := by
    simp [outByte, Control.outByte, transmit, h.divisorLatch, h.fifoEnabled]
  rw [hout]
  exact ⟨h, rfl, rfl⟩

/-- A quiet write leaves the FIFO as it is or empties it. -/
theorem fifo_outByte {d : Uart16550} {w : UInt16 × UInt8}
    (h : w.1 = com1Port → d.control.divisorLatch = true) :
    (d.outByte w.1 w.2).fifo = d.fifo ∨ (d.outByte w.1 w.2).fifo = [] := by
  rw [outByte]
  dsimp only
  split
  · next hport => exact .inl (if_pos (h hport))
  · split
    · split
      · exact .inr rfl
      · exact .inl rfl
    · exact .inl rfl

theorem fifo_outByte_clearing {d : Uart16550} {w : UInt16 × UInt8} (h : Clearing w) :
    (d.outByte w.1 w.2).fifo = [] := by
  obtain ⟨hport, henable, hclear⟩ := h
  have hclears : d.control.clears w.2 = true := by simp [Control.clears, henable, hclear]
  have hne : com1Port + 2 ≠ com1Port := by decide
  simp only [outByte, hport, if_neg hne, if_true, hclears]

/-- The device, found as `d₀`, when these writes of `init` are left. -/
structure Starting (d₀ : Uart16550) (ws : List (UInt16 × UInt8)) (d : Uart16550) : Prop where
  quiet : d.control.Quiet ws
  configured : (d.control.outAll ws).Configured
  cleared : (∃ w ∈ ws, Clearing w) ∨ d.fifo = []
  line : d.sent ++ d.fifo <+: d₀.sent ++ d₀.fifo
  sent_le : d₀.sent.length ≤ d.sent.length

namespace Starting

variable {d₀ d : Uart16550} {ws : List (UInt16 × UInt8)} {w : UInt16 × UInt8}

theorem outByte (h : Starting d₀ (w :: ws) d) : Starting d₀ ws (d.outByte w.1 w.2) := by
  have hfifo := fifo_outByte h.quiet.1
  refine ⟨h.quiet.2, h.configured, ?_, ?_, h.sent_le⟩
  · obtain ⟨v, hv, hclear⟩ | hnil := h.cleared
    · obtain rfl | hv := List.mem_cons.mp hv
      · exact .inr (fifo_outByte_clearing hclear)
      · exact .inl ⟨v, hv, hclear⟩
    · exact .inr (hfifo.elim (fun h => h.trans hnil) id)
  · show d.sent ++ (d.outByte w.1 w.2).fifo <+: _
    obtain hsame | hnil := hfifo
    · rw [hsame]
      exact h.line
    · rw [hnil, List.append_nil]
      exact (List.prefix_append _ _).trans h.line

theorem shift (h : Starting d₀ ws d) : Starting d₀ ws d.shift := by
  rw [Uart16550.shift]
  split
  · exact h
  · next byte fifo hfifo =>
    refine ⟨h.quiet, h.configured, ?_, ?_, ?_⟩
    · exact h.cleared.imp_right fun hnil => absurd (hfifo.symm.trans hnil) (List.cons_ne_nil _ _)
    · have hline := h.line
      rw [hfifo] at hline
      rw [List.append_assoc]
      exact hline
    · exact h.sent_le.trans (by rw [List.length_append]; exact Nat.le_add_right _ _)

theorem exists_lost (h : Starting d₀ ws d) :
    ∃ lost, d₀.sent ++ d₀.fifo = d.sent ++ d.fifo ++ lost ∧ lost.length ≤ d₀.fifo.length := by
  obtain ⟨lost, hline⟩ := h.line
  refine ⟨lost, hline.symm, ?_⟩
  have hlength := congrArg List.length hline
  simp only [List.length_append] at hlength
  have hle := h.sent_le
  omega

end Starting

/-- The transmitter is only written when it is empty. -/
def polled : Polled uart16550 where
  port :=
    { capacity := 16
      window := 1
      window_le := by decide
      ready := List.isEmpty
      room := by
        intro queue hready
        rw [List.isEmpty_iff.mp hready]
        exact Nat.one_pos
      ready_nil := rfl }
  Configured d := d.control.Configured
  data byte := (com1Port, byte)
  writeByte_eq _ := rfl
  ready_eq _ := ready_eq _
  perform_data byte h := outByte_data h byte
  shift_nil h := shift_of_nil h
  shift_cons h :=
    ⟨congrArg Uart16550.sent (shift_of_cons h), congrArg Uart16550.fifo (shift_of_cons h)⟩
  configured_shift {d} h := (congrArg Control.Configured (control_shift d)).mpr h
  Starting := Starting
  starting_init d :=
    { quiet := quiet_init _
      configured := configured_init _
      cleared := .inl ⟨(com1Port + 2, 0xC7), by simp [uart16550], rfl, by decide, by decide⟩
      line := List.prefix_rfl
      sent_le := le_rfl }
  starting_shift h := h.shift
  starting_perform h := h.outByte
  loss d := d.fifo.length
  starting_line h := h.exists_lost
  starting_nil {d₀ d} h := by
    have hfifo : d.fifo = [] := h.cleared.resolve_left fun ⟨_, hmem, _⟩ => List.not_mem_nil hmem
    refine ⟨h.configured, ?_⟩
    show d.fifo.length ≤ 1
    rw [hfifo]
    exact Nat.zero_le _

end Uart16550

/-! ### The PL011 -/

namespace Pl011

variable {depth : ℕ+} {d : Pl011 depth}

theorem ready_eq (d : Pl011 depth) :
    (d.readVolatile (pl011Base + pl011Fr) &&& pl011FrTxff == 0) =
      decide (d.fifo.length < depth) := by
  have hmask : ∀ x y : UInt32,
      (x &&& ~~~pl011FrTxff ||| y) &&& pl011FrTxff = y &&& pl011FrTxff := by
    intro x y
    refine UInt32.toBitVec_inj.mp ?_
    show (x.toBitVec &&& ~~~0x20#32 ||| y.toBitVec) &&& 0x20#32 = y.toBitVec &&& 0x20#32
    rw [BitVec.and_or_distrib_right, BitVec.and_assoc]
    simp
  rw [readVolatile, if_pos rfl, hmask]
  split
  · next hlt => rw [decide_eq_true hlt]; decide
  · next hfull => rw [decide_eq_false hfull]; decide

theorem writeVolatile_data (d : Pl011 depth) (byte : UInt8) :
    (d.writeVolatile (pl011Base + pl011Dr) byte.toUInt32).sent = d.sent ∧
      (d.writeVolatile (pl011Base + pl011Dr) byte.toUInt32).fifo =
        if d.fifo.length < depth then d.fifo ++ [byte] else d.fifo := by
  rw [writeVolatile, if_pos rfl]
  split
  · exact ⟨rfl, congrArg (fun byte => d.fifo ++ [byte]) (UInt8.toUInt8_toUInt32 byte)⟩
  · exact ⟨rfl, rfl⟩

theorem shift_of_nil (h : d.fifo = []) : d.shift = d := by
  rw [shift]
  split
  · rfl
  · next hcons => exact absurd (hcons.symm.trans h) (List.cons_ne_nil _ _)

theorem shift_of_cons {byte : UInt8} {fifo : List UInt8} (h : d.fifo = byte :: fifo) :
    d.shift.sent = d.sent ++ [byte] ∧ d.shift.fifo = fifo := by
  rw [shift]
  split
  · next hnil => exact absurd (h.symm.trans hnil) (List.cons_ne_nil _ _)
  · next hcons =>
    obtain ⟨rfl, rfl⟩ := List.cons.inj (hcons.symm.trans h)
    exact ⟨rfl, rfl⟩

theorem line_shift (d : Pl011 depth) : d.shift.sent ++ d.shift.fifo = d.sent ++ d.fifo := by
  cases h : d.fifo with
  | nil => rw [shift_of_nil h, h]
  | cons byte fifo =>
    obtain ⟨hsent, hfifo⟩ := shift_of_cons h
    rw [hsent, hfifo, List.append_assoc, List.singleton_append]

/-- The FIFO is filled up to its depth, and nothing is initialized. -/
def polled (depth : ℕ+) : Polled (pl011 depth) where
  port :=
    { capacity := depth
      window := depth
      window_le := le_rfl
      ready := fun queue => decide (queue.length < depth)
      room := fun _ hready => of_decide_eq_true hready
      ready_nil := decide_eq_true depth.pos }
  Configured _ := True
  data byte := (pl011Base + pl011Dr, byte.toUInt32)
  writeByte_eq _ := rfl
  ready_eq _ := ready_eq _
  perform_data byte _ := ⟨trivial, writeVolatile_data _ byte⟩
  shift_nil h := shift_of_nil h
  shift_cons h := shift_of_cons h
  configured_shift _ := trivial
  Starting d₀ ws d := ws = [] ∧ d.sent ++ d.fifo = d₀.sent ++ d₀.fifo
  starting_init _ := ⟨rfl, rfl⟩
  starting_shift h := ⟨h.1, (line_shift _).trans h.2⟩
  starting_perform h := absurd h.1 (List.cons_ne_nil _ _)
  loss _ := 0
  starting_line h := ⟨[], by rw [List.append_nil]; exact h.2.symm, le_rfl⟩
  starting_nil {_ d} _ := ⟨trivial, d.fifo_le⟩

end Pl011

/-! ### What is printed -/

/-- The devices the stub prints to. -/
inductive Uart where
  | ns16550
  | pl011 (depth : ℕ+)

namespace Uart

def backend : Uart → Backend
  | .ns16550 => uart16550
  | .pl011 depth => Serial.pl011 depth

/-- How many bytes the initialization takes from a device that holds so many. Only the one of
the 16550 clears the FIFO. -/
def loss : Uart → ℕ → ℕ
  | .ns16550, held => held
  | .pl011 _, _ => 0

def polled : (uart : Uart) → Polled uart.backend
  | .ns16550 => Uart16550.polled
  | .pl011 depth => Pl011.polled depth

theorem polled_loss (uart : Uart) (d : uart.backend.Device) :
    uart.polled.loss d = uart.loss (uart.backend.queue d).length := by
  cases uart with
  | ns16550 => rfl
  | pl011 depth => rfl

end Uart

/-- When code and device both get their turns again and again, the text is sent to its end. -/
theorem exists_text_sent (uart : Uart) (d : uart.backend.Device) (bytes : List UInt8)
    {schedule : ℕ → Agent} (hfair : Fair schedule) :
    ∃ found lost n, uart.backend.line d = found ++ lost ∧
      lost.length ≤ uart.loss (uart.backend.queue d).length ∧ ∀ k, n ≤ k →
      let m := trajectory Machine.step schedule (Machine.print d bytes) k
      m.todo = [] ∧ uart.backend.queue m.device = [] ∧
        uart.backend.sent m.device = found ++ bytes := by
  rw [← uart.polled_loss]
  exact uart.polled.exists_sent d bytes hfair

theorem fair_alternating : Fair fun n => if n % 2 = 0 then Agent.driver else Agent.device := by
  intro agent n
  cases agent with
  | driver => exact ⟨2 * n, by omega, if_pos (by omega)⟩
  | device => exact ⟨2 * n + 1, by omega, if_neg (by omega)⟩

/-- Two bytes for a 16550 as it is after reset. -/
theorem exists_text_sent_ok :
    ∃ found lost n, uart16550.line ⟨⟨0, 0, 0, 0, 0, 0⟩, 0, [], []⟩ = found ++ lost ∧
      lost.length ≤ 0 ∧ ∀ k, n ≤ k →
      let m : Machine uart16550 := trajectory Machine.step
        (fun n => if n % 2 = 0 then .driver else .device)
        (Machine.print ⟨⟨0, 0, 0, 0, 0, 0⟩, 0, [], []⟩ [0x4F, 0x4B]) k
      m.todo = [] ∧ uart16550.queue m.device = [] ∧
        uart16550.sent m.device = found ++ [0x4F, 0x4B] :=
  exists_text_sent .ns16550 ⟨⟨0, 0, 0, 0, 0, 0⟩, 0, [], []⟩ [0x4F, 0x4B] fair_alternating

/-- A panic in the middle of the output loses at most one byte of the line on x86_64, where its
handler initializes the device again, and none on ARM64. The message then follows as any other
text. -/
theorem line_after_panic (uart : Uart) (d : uart.backend.Device) (bytes message : List UInt8)
    (schedule schedule' : ℕ → Agent) (n n' : ℕ) :
    let m := trajectory Machine.step schedule (Machine.print d bytes) n
    let m' := trajectory Machine.step schedule' (m.panic message) n'
    m.todo <:+ uart.backend.writeStr bytes →
      ∃ kept lost written rest, uart.backend.line m.device = kept ++ lost ∧
        lost.length ≤ uart.loss 1 ∧ message = written ++ rest ∧
        uart.backend.line m'.device = kept ++ written ∧ (m'.todo = [] → rest = []) := by
  intro m m' hinit
  have hprinting := Polled.printing_trajectory (P := uart.polled) d bytes schedule n
  have hqueue := hprinting.queue_le hinit
  obtain ⟨kept, lost, written, rest, hline, hloss, hmessage, hline', hdone⟩ :=
    (Polled.printing_trajectory (P := uart.polled) m.device message schedule' n').exists_line
  refine ⟨kept, lost, written, rest, hline, ?_, hmessage, hline', hdone⟩
  rw [uart.polled_loss] at hloss
  cases uart with
  | ns16550 => exact hloss.trans hqueue
  | pl011 depth => exact hloss

/-- The first byte was in the FIFO when the code panicked, and is cleared with it. -/
theorem line_after_panic_first_byte :
    let m : Machine uart16550 := trajectory Machine.step (fun _ => .driver)
      (Machine.print ⟨⟨0, 0, 0, 0, 0, 0⟩, 0, [], []⟩ [0x4F, 0x4B]) 9
    let m' := trajectory Machine.step (fun _ => .driver) (m.panic [0x21]) 9
    uart16550.line m.device = [0x4F] ∧ uart16550.line m'.device = [0x21] ∧
      ∃ kept lost written rest, uart16550.line m.device = kept ++ lost ∧ lost.length ≤ 1 ∧
        [0x21] = written ++ rest ∧ uart16550.line m'.device = kept ++ written ∧
        (m'.todo = [] → rest = []) :=
  ⟨rfl, rfl, line_after_panic .ns16550 ⟨⟨0, 0, 0, 0, 0, 0⟩, 0, [], []⟩ [0x4F, 0x4B] [0x21]
    (fun _ => .driver) (fun _ => .driver) 9 9 ⟨[.await, .write (com1Port, 0x4F)], rfl⟩⟩

end SimurghHal.Serial
