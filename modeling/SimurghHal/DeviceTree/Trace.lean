import SimurghHal.DeviceTree.Blob

/-!
# The walk of a device tree

What one iteration of the walker reads from memory, and the walk of a blob: the tokens the
walker visits are those of the tree, each at the offset where it stands, and nothing outside
the structure and strings blocks is read on the way.
-/

namespace SimurghHal.DeviceTree

/-! ### What is read -/

/-- Byte `p` is read by `read_u32_at`. -/
def ReadsWord (offset : UInt32) (p : ℕ) : Prop := offset.toNat ≤ p ∧ p < offset.toNat + 4

/-- Byte `p` is read by `read_cstr_at`: there is no zero byte before it. -/
def ReadsCstr (blob : Blob) (offset : UInt32) (p : ℕ) : Prop :=
  offset.toNat ≤ p ∧ ∀ j, offset.toNat ≤ j → j < p → blob j ≠ 0

/-- Byte `p` is read by the part of the loop body that reads a token. -/
def ReadsToken (blob : Blob) (walker : FdtWalker) (p : ℕ) : Prop :=
  ¬ walker.offset ≥ walker.structEnd ∧
    (ReadsWord walker.offset p ∨
      readU32At blob walker.offset = fdtBeginNode ∧ ReadsCstr blob (walker.offset + 4) p ∨
      readU32At blob walker.offset = fdtProp ∧
        (ReadsWord (walker.offset + 4) p ∨ ReadsWord (walker.offset + 4 + 4) p ∨
          ReadsCstr blob
            (walker.stringsStart + readU32At blob (walker.offset + 4 + 4)) p))

/-- Byte `p` is read from the value of a property. -/
def ReadsValue (t : Tracking) (name : List UInt8) (valueOffset len : UInt32) (p : ℕ) : Prop :=
  match t.current with
  | .memory =>
    name = regName ∧ len ≥ 16 ∧ (ReadsWord valueOffset p ∨ ReadsWord (valueOffset + 4) p ∨
      ReadsWord (valueOffset + 8) p ∨ ReadsWord (valueOffset + 12) p)
  | .plic => name = regName ∧ len ≥ 8 ∧ (ReadsWord valueOffset p ∨ ReadsWord (valueOffset + 4) p)
  | .possibleIommu =>
    name = compatibleName ∧ valueOffset.toNat ≤ p ∧ p < valueOffset.toNat + len.toNat
  | .none => False

/-- Byte `p` is read by the part of the loop body that acts on a token. -/
def ReadsHandle (t : Tracking) : Token → ℕ → Prop
  | .prop name valueOffset len, p => ReadsValue t name valueOffset len p
  | _, _ => False

/-- Byte `p` is read by an iteration of the loop. -/
def Reads (blob : Blob) (s : FdtWalker × Tracking) (p : ℕ) : Prop :=
  ReadsToken blob s.1 p ∨
    ∃ token walker, nextToken blob s.1 = some (.ok (token, walker)) ∧ ReadsHandle s.2 token p

/-- Byte `p` is read by `walk_device_tree`, from the header or in some iteration. -/
def WalkReads (blob : Blob) (p : ℕ) : Prop :=
  p < 40 ∨ ∃ header s, FdtHeader.read blob = some header ∧
    Loop.Reaches (walkBody blob) (FdtWalker.new header, .initial) s ∧ Reads blob s p

section Agree

variable {blob blob' : Blob}

theorem readU32At_congr {offset : UInt32} (h : ∀ p, ReadsWord offset p → blob' p = blob p) :
    readU32At blob' offset = readU32At blob offset := by
  have hbyte : ∀ i < 4, blob' (offset.toNat + i) = blob (offset.toNat + i) :=
    fun i hi => h _ ⟨Nat.le_add_right _ _, Nat.add_lt_add_left hi _⟩
  have h0 : blob' offset.toNat = blob offset.toNat := hbyte 0 (by decide)
  rw [readU32At, readU32At, u32At, u32At, h0, hbyte 1 (by decide), hbyte 2 (by decide),
    hbyte 3 (by decide)]

theorem FdtHeader.read_congr (h : ∀ p < 40, blob' p = blob p) :
    FdtHeader.read blob' = FdtHeader.read blob := by
  have hword : ∀ i : UInt32, i.toNat + 4 ≤ 40 → u32At blob' i.toNat = u32At blob i.toNat :=
    fun i hi => readU32At_congr fun p hp => h p (Nat.lt_of_lt_of_le hp.2 hi)
  have h0 := hword 0 (by decide)
  have h4 := hword 4 (by decide)
  have h8 := hword 8 (by decide)
  have h12 := hword 12 (by decide)
  have h16 := hword 16 (by decide)
  have h20 := hword 20 (by decide)
  have h24 := hword 24 (by decide)
  have h28 := hword 28 (by decide)
  have h32 := hword 32 (by decide)
  have h36 := hword 36 (by decide)
  simp only [UInt32.reduceToNat] at h0 h4 h8 h12 h16 h20 h24 h28 h32 h36
  simp only [FdtHeader.read, h0, h4, h8, h12, h16, h20, h24, h28, h32, h36]

theorem scanCstr_congr : ∀ (left pos : ℕ),
    (∀ p, pos ≤ p → (∀ j, pos ≤ j → j < p → blob j ≠ 0) → blob' p = blob p) →
      scanCstr blob' left pos = scanCstr blob left pos := by
  intro left
  induction left with
  | zero => exact fun _ _ => rfl
  | succ left ih =>
    intro pos h
    have hfirst : blob' pos = blob pos := h pos le_rfl fun j hle hlt => absurd hle (not_le.mpr hlt)
    rw [scanCstr, scanCstr, hfirst]
    -- the bytes behind are read only if this one is not zero
    split
    · rfl
    · next hne =>
      rw [ih (pos + 1)]
      intro p hp hbefore
      refine h p (by omega) fun j hle hlt => ?_
      rcases Nat.eq_or_lt_of_le hle with rfl | hgt
      · exact hne
      · exact hbefore j hgt hlt

theorem readCstrAt_congr {offset : UInt32} (h : ∀ p, ReadsCstr blob offset p → blob' p = blob p) :
    readCstrAt blob' offset = readCstrAt blob offset :=
  scanCstr_congr _ _ fun p hp hbefore => h p ⟨hp, hbefore⟩

theorem nextToken_congr {walker : FdtWalker}
    (h : ∀ p, ReadsToken blob walker p → blob' p = blob p) :
    nextToken blob' walker = nextToken blob walker := by
  rw [nextToken, nextToken]
  split
  · rfl
  · next hin =>
    have hcode : readU32At blob' walker.offset = readU32At blob walker.offset :=
      readU32At_congr fun p hp => h p ⟨hin, .inl hp⟩
    simp only [hcode]
    split
    · next hbegin =>
      rw [readCstrAt_congr fun p hp => h p ⟨hin, .inr (.inl ⟨hbegin, hp⟩)⟩]
    · split
      · rfl
      · split
        · next hprop =>
          rw [readU32At_congr fun p hp => h p ⟨hin, .inr (.inr ⟨hprop, .inl hp⟩)⟩,
            readU32At_congr fun p hp => h p ⟨hin, .inr (.inr ⟨hprop, .inr (.inl hp)⟩)⟩,
            readCstrAt_congr fun p hp => h p ⟨hin, .inr (.inr ⟨hprop, .inr (.inr hp)⟩)⟩]
        · rfl

theorem handle_congr {t : Tracking} {token : Token}
    (h : ∀ p, ReadsHandle t token p → blob' p = blob p) :
    t.handle blob' token = t.handle blob token := by
  cases token with
  | beginNode name => rfl
  | endNode => rfl
  | nop => rfl
  | prop name valueOffset len =>
    simp only [ReadsHandle, ReadsValue] at h
    simp only [Tracking.handle, Tracking.prop]
    cases hcurrent : t.current with
    | none => rfl
    | memory =>
      rw [hcurrent] at h
      simp only
      split
      · next hreg =>
        rw [readU32At_congr fun p hp => h p ⟨hreg.1, hreg.2, .inl hp⟩,
          readU32At_congr fun p hp => h p ⟨hreg.1, hreg.2, .inr (.inl hp)⟩,
          readU32At_congr fun p hp => h p ⟨hreg.1, hreg.2, .inr (.inr (.inl hp))⟩,
          readU32At_congr fun p hp => h p ⟨hreg.1, hreg.2, .inr (.inr (.inr hp))⟩]
      · rfl
    | plic =>
      rw [hcurrent] at h
      simp only
      split
      · next hreg =>
        rw [readU32At_congr fun p hp => h p ⟨hreg.1, hreg.2, .inl hp⟩,
          readU32At_congr fun p hp => h p ⟨hreg.1, hreg.2, .inr hp⟩]
      · rfl
    | possibleIommu =>
      rw [hcurrent] at h
      simp only
      split
      · next hname =>
        have hvalue : (List.range len.toNat).map (fun i => blob' (valueOffset.toNat + i)) =
            (List.range len.toNat).map fun i => blob (valueOffset.toNat + i) := by
          refine List.map_congr_left fun i hi => ?_
          have hlt := List.mem_range.mp hi
          exact h _ ⟨hname, by omega, by omega⟩
        rw [hvalue]
      · rfl

/-- An iteration depends on nothing but the bytes it reads. -/
theorem walkBody_congr {s : FdtWalker × Tracking} (h : ∀ p, Reads blob s p → blob' p = blob p) :
    walkBody blob' s = walkBody blob s := by
  rw [walkBody, walkBody, nextToken_congr fun p hp => h p (.inl hp)]
  cases hnext : nextToken blob s.1 with
  | none => simp only [Option.map_none]
  | some next =>
    cases next with
    | error u => simp only [Option.map_some]
    | ok next =>
      simp only [Option.map_some]
      rw [handle_congr fun p hp => h p (.inr ⟨next.1, next.2, hnext, hp⟩)]

/-- The walk depends on nothing but the bytes it reads. -/
theorem walkDeviceTree_congr (h : ∀ p, WalkReads blob p → blob' p = blob p) (fuel : ℕ) :
    walkDeviceTree fuel blob' = walkDeviceTree fuel blob := by
  rw [walkDeviceTree, walkDeviceTree, FdtHeader.read_congr fun p hp => h p (.inl hp)]
  cases hread : FdtHeader.read blob with
  | none => rfl
  | some header =>
    exact Loop.whileLoop_congr fuel _ fun s hs =>
      walkBody_congr fun p hp => h p (.inr ⟨header, s, hread, hs, hp⟩)

end Agree

/-! ### The tokens that are visited -/

/-- The tokens of a body that is encoded from position `pos` on, each with its position. -/
def Body.placed : Body → ℕ → List (ℕ × Token)
  | .done, _ => []
  | .nop rest, pos => (pos, .nop) :: rest.placed (pos + 4)
  | .prop _ name value rest, pos =>
    (pos, .prop name (UInt32.ofNat (pos + 12)) (UInt32.ofNat value.length)) ::
      rest.placed (pos + 12 + pad4 value.length)
  | .child name body rest, pos =>
    let start := pos + 4 + pad4 (name.length + 1)
    (pos, .beginNode name) :: body.placed start ++
      (start + body.size, .endNode) :: rest.placed (start + body.size + 4)

/-- The walk from one state to another, through the tokens in the list; `P` holds in the states
in which they are read. -/
inductive Visits (blob : Blob) (P : FdtWalker × Tracking → Prop) :
    FdtWalker × Tracking → List (ℕ × Token) → FdtWalker × Tracking → Prop
  | nil (s : FdtWalker × Tracking) : Visits blob P s [] s
  | cons {w w' : FdtWalker} {t : Tracking} {token : Token} {rest : List (ℕ × Token)}
      {s' : FdtWalker × Tracking} (hP : P (w, t))
      (hnext : nextToken blob w = some (.ok (token, w')))
      (hrest : Visits blob P (w', t.handle blob token) rest s') :
      Visits blob P (w, t) ((w.offset.toNat, token) :: rest) s'

section Visiting

variable {blob : Blob} {P : FdtWalker × Tracking → Prop} {s s' s'' : FdtWalker × Tracking}
  {xs ys : List (ℕ × Token)}

theorem Visits.append (h : Visits blob P s xs s') (h' : Visits blob P s' ys s'') :
    Visits blob P s (xs ++ ys) s'' := by
  induction h with
  | nil s => exact h'
  | cons hP hnext _ ih => exact .cons hP hnext (ih h')

theorem walkBody_of_nextToken {w w' : FdtWalker} {t : Tracking} {token : Token}
    (h : nextToken blob w = some (.ok (token, w'))) :
    walkBody blob (w, t) = some (.ok (w', t.handle blob token)) := by
  rw [walkBody, h, Option.map_some]

theorem Visits.reaches (h : Visits blob P s xs s') : Loop.Reaches (walkBody blob) s s' := by
  induction h with
  | nil s => exact .refl
  | cons _ hnext _ ih => exact .head (walkBody_of_nextToken hnext) ih

/-- A walk that ends where the loop is left is all that is ever reached. -/
theorem Visits.forall_reached (h : Visits blob P s xs s') (hend : P s') {r : DtDiscoveryResult}
    (hleave : walkBody blob s' = some (.error r)) {u : FdtWalker × Tracking}
    (hu : Loop.Reaches (walkBody blob) s u) : P u := by
  induction h with
  | nil s =>
    rcases hu.cases_head with rfl | ⟨v, hstep, -⟩
    · exact hend
    · rw [hleave] at hstep
      cases hstep
  | cons hP hnext _ ih =>
    rcases hu.cases_head with rfl | ⟨v, hstep, hrest⟩
    · exact hP
    · -- the body is a function: there is no other way on
      rw [walkBody_of_nextToken hnext] at hstep
      obtain rfl := Except.ok.inj (Option.some.inj hstep)
      exact ih hend hleave hrest

end Visiting

/-! ### Reads of the single tokens -/

/-- Byte `p` is in the structure block of the walker, or among the strings. -/
def InBlocks (walker : FdtWalker) (stringsEnd p : ℕ) : Prop :=
  (walker.structStart.toNat ≤ p ∧ p < walker.structEnd.toNat) ∨
    (walker.stringsStart.toNat ≤ p ∧ p < stringsEnd)

theorem readsCstr_of_holds {blob : Blob} {offset : UInt32} {name : List UInt8} {p : ℕ}
    (h : HoldsCstr blob offset.toNat name) (hp : ReadsCstr blob offset p) :
    offset.toNat ≤ p ∧ p ≤ offset.toNat + name.length := by
  refine ⟨hp.1, ?_⟩
  by_contra hlt
  exact hp.2 _ (Nat.le_add_right _ _) (not_le.mp hlt) h.2.1

theorem readsValue_within {t : Tracking} {name : List UInt8} {valueOffset len : UInt32} {p : ℕ}
    (hlen : valueOffset.toNat + len.toNat < 2 ^ 32) (h : ReadsValue t name valueOffset len p) :
    valueOffset.toNat ≤ p ∧ p < valueOffset.toNat + len.toNat := by
  have hadd : ∀ k : UInt32, valueOffset.toNat + k.toNat < 2 ^ 32 →
      (valueOffset + k).toNat = valueOffset.toNat + k.toNat := by
    intro k hk
    rw [UInt32.toNat_add]
    exact Nat.mod_eq_of_lt hk
  simp only [ReadsValue] at h
  split at h
  · obtain ⟨-, hle, hread⟩ := h
    have hle' : 16 ≤ len.toNat := UInt32.le_iff_toNat_le.mp hle
    have h4 := hadd 4 (by simp only [UInt32.reduceToNat]; omega)
    have h8 := hadd 8 (by simp only [UInt32.reduceToNat]; omega)
    have h12 := hadd 12 (by simp only [UInt32.reduceToNat]; omega)
    simp only [UInt32.reduceToNat] at h4 h8 h12
    simp only [ReadsWord, h4, h8, h12] at hread
    omega
  · obtain ⟨-, hle, hread⟩ := h
    have hle' : 8 ≤ len.toNat := UInt32.le_iff_toNat_le.mp hle
    have h4 := hadd 4 (by simp only [UInt32.reduceToNat]; omega)
    simp only [UInt32.reduceToNat] at h4
    simp only [ReadsWord, h4] at hread
    omega
  · exact h.2
  · exact h.elim

section TokenReads

variable {blob : Blob} (walker : FdtWalker) {pos p : ℕ} {t : Tracking} {stringsEnd : ℕ}

theorem toNat_moved_offset (hpos : pos < walker.structEnd.toNat) :
    (walker.moved pos).offset.toNat = pos :=
  UInt32.toNat_ofNat_of_lt' (hpos.trans walker.structEnd.toNat_lt)

theorem toNat_moved_offset_add {k : UInt32} (hpos : pos + k.toNat < walker.structEnd.toNat) :
    ((walker.moved pos).offset + k).toNat = pos + k.toNat := by
  have hlt := walker.structEnd.toNat_lt
  rw [UInt32.toNat_add, toNat_moved_offset walker (by omega)]
  exact Nat.mod_eq_of_lt (by omega)

/-- For a token without name and value only its code is read. -/
theorem reads_code (hpos : pos < walker.structEnd.toNat) (hbegin : u32At blob pos ≠ fdtBeginNode)
    (hprop : u32At blob pos ≠ fdtProp) (hp : Reads blob (walker.moved pos, t) p) :
    pos ≤ p ∧ p < pos + 4 := by
  have hcode : readU32At blob (walker.moved pos).offset = u32At blob pos :=
    readU32At_moved walker hpos
  rcases hp with ⟨-, hword | ⟨hcode', -⟩ | ⟨hcode', -⟩⟩ | ⟨token, w, hnext, hhandle⟩
  · simp only [ReadsWord, toNat_moved_offset walker hpos] at hword
    exact hword
  · exact absurd (hcode.symm.trans hcode') hbegin
  · exact absurd (hcode.symm.trans hcode') hprop
  · -- no other code makes a token with a value
    simp only [nextToken, if_neg (not_structEnd_le walker hpos), hcode, if_neg hbegin,
      if_neg hprop] at hnext
    split at hnext
    · obtain ⟨rfl, -⟩ := Prod.mk.inj (Except.ok.inj (Option.some.inj hnext))
      exact hhandle.elim
    · split at hnext
      · obtain ⟨rfl, -⟩ := Prod.mk.inj (Except.ok.inj (Option.some.inj hnext))
        exact hhandle.elim
      · cases hnext

theorem reads_beginNode {name : List UInt8} (h : u32At blob pos = fdtBeginNode)
    (hname : HoldsCstr blob (pos + 4) name) (haligned : pos % 4 = 0)
    (hnext : pos + 4 + pad4 (name.length + 1) < walker.structEnd.toNat)
    (hp : Reads blob (walker.moved pos, t) p) :
    pos ≤ p ∧ p < pos + 4 + pad4 (name.length + 1) := by
  have hpad := le_pad4 (name.length + 1)
  have hlt := walker.structEnd.toNat_lt
  have hpos : pos < walker.structEnd.toNat := by omega
  have hcode : readU32At blob (walker.moved pos).offset = u32At blob pos :=
    readU32At_moved walker hpos
  have hoffset : ((walker.moved pos).offset + 4).toNat = pos + 4 :=
    toNat_moved_offset_add walker (by simp only [UInt32.reduceToNat]; omega)
  rcases hp with ⟨-, hword | ⟨-, hcstr⟩ | ⟨hcode', -⟩⟩ | ⟨token, w, htoken, hhandle⟩
  · simp only [ReadsWord, toNat_moved_offset walker hpos] at hword
    omega
  · have hcstr' := readsCstr_of_holds (by rwa [hoffset]) hcstr
    simp only [hoffset] at hcstr'
    omega
  · rw [hcode, h] at hcode'
    exact absurd hcode' (by decide)
  · rw [nextToken_beginNode walker hpos h hname haligned (by omega)] at htoken
    obtain ⟨rfl, -⟩ := Prod.mk.inj (Except.ok.inj (Option.some.inj htoken))
    exact hhandle.elim

theorem reads_prop {name : List UInt8} {nameoff : UInt32} {len : ℕ} (h : u32At blob pos = fdtProp)
    (hlen : (u32At blob (pos + 4)).toNat = len) (hnameoff : u32At blob (pos + 8) = nameoff)
    (hname : HoldsCstr blob (walker.stringsStart.toNat + nameoff.toNat) name)
    (hbound : walker.stringsStart.toNat + nameoff.toNat + name.length < stringsEnd)
    (hstrings : stringsEnd < 2 ^ 32) (haligned : pos % 4 = 0)
    (hnext : pos + 12 + pad4 len < walker.structEnd.toNat)
    (hp : Reads blob (walker.moved pos, t) p) :
    (pos ≤ p ∧ p < pos + 12 + pad4 len) ∨ (walker.stringsStart.toNat ≤ p ∧ p < stringsEnd) := by
  have hpad := le_pad4 len
  have hlt := walker.structEnd.toNat_lt
  have hpos : pos < walker.structEnd.toNat := by omega
  have hcode : readU32At blob (walker.moved pos).offset = u32At blob pos :=
    readU32At_moved walker hpos
  have hoffset : ((walker.moved pos).offset + 4).toNat = pos + 4 :=
    toNat_moved_offset_add walker (by simp only [UInt32.reduceToNat]; omega)
  have hoffset₂ : ((walker.moved pos).offset + 4 + 4).toNat = pos + 8 := by
    rw [UInt32.add_assoc]
    exact toNat_moved_offset_add walker (by simp only [UInt32.reduceAdd, UInt32.reduceToNat]; omega)
  -- the name is looked up in the strings block
  have hread : readU32At blob ((walker.moved pos).offset + 4 + 4) = nameoff := by
    rw [readU32At, hoffset₂, hnameoff]
  have hstart : ((walker.moved pos).stringsStart + nameoff).toNat =
      walker.stringsStart.toNat + nameoff.toNat := by
    rw [UInt32.toNat_add]
    exact Nat.mod_eq_of_lt (by change walker.stringsStart.toNat + _ < _; omega)
  rcases hp with ⟨-, hword | ⟨hcode', -⟩ | ⟨-, hword | hword | hcstr⟩⟩ | ⟨token, w, htoken, hhandle⟩
  · simp only [ReadsWord, toNat_moved_offset walker hpos] at hword
    omega
  · rw [hcode, h] at hcode'
    exact absurd hcode' (by decide)
  · simp only [ReadsWord, hoffset] at hword
    omega
  · simp only [ReadsWord, hoffset₂] at hword
    omega
  · rw [hread] at hcstr
    have hcstr' := readsCstr_of_holds (by rwa [hstart]) hcstr
    rw [hstart] at hcstr'
    omega
  · rw [nextToken_prop walker hpos h hlen hnameoff hname (by omega) haligned (by omega)] at htoken
    obtain ⟨rfl, -⟩ := Prod.mk.inj (Except.ok.inj (Option.some.inj htoken))
    have hvalue : (UInt32.ofNat (pos + 12)).toNat = pos + 12 :=
      UInt32.toNat_ofNat_of_lt' (by simp only [UInt32.size]; omega)
    have hlength : (UInt32.ofNat len).toNat = len :=
      UInt32.toNat_ofNat_of_lt' (by simp only [UInt32.size]; omega)
    have hwithin := readsValue_within (by omega) hhandle
    omega

end TokenReads

/-! ### The walk of a body -/

/-- The walker visits the tokens of a body, stops behind it and reads nothing outside the
blocks. -/
theorem visits_body {blob : Blob} (walker : FdtWalker) {stringsEnd : ℕ}
    (hstrings : stringsEnd < 2 ^ 32) (b : Body) : ∀ (pos : ℕ) (t : Tracking),
    b.At blob walker.stringsStart.toNat stringsEnd pos → pos % 4 = 0 →
    walker.structStart.toNat ≤ pos → pos + b.size < walker.structEnd.toNat →
      Visits blob (fun s => ∀ p, Reads blob s p → InBlocks walker stringsEnd p)
        (walker.moved pos, t) (b.placed pos)
        (walker.moved (pos + b.size), (b.tokens pos).foldl (Tracking.handle blob) t) := by
  have hend := walker.structEnd.toNat_lt
  induction b with
  | done =>
    intro pos t _ _ _ _
    exact .nil _
  | nop rest ih =>
    intro pos t hat haligned hstart hlt
    obtain ⟨hcode, hrest⟩ := hat
    simp only [Body.size] at hlt
    have hpos : pos < walker.structEnd.toNat := by omega
    have htail := ih (pos + 4) t hrest (by omega) (by omega) (by omega)
    have hvisit := Visits.cons (t := t) (fun p hp => ?_) (nextToken_nop walker hpos hcode) htail
    · rw [toNat_moved_offset walker hpos] at hvisit
      rw [Body.size, ← Nat.add_assoc, Body.tokens, List.foldl_cons, Body.placed]
      exact hvisit
    · have hread := reads_code walker hpos (by rw [hcode]; decide) (by rw [hcode]; decide) hp
      exact .inl (by omega)
  | prop nameoff name value rest ih =>
    intro pos t hat haligned hstart hlt
    obtain ⟨hcode, hlen, hnameoff, -, hname, hbound, hrest⟩ := hat
    have hpad := pad4_mod value.length
    simp only [Body.size] at hlt
    have hpos : pos < walker.structEnd.toNat := by omega
    have htail := ih (pos + 12 + pad4 value.length)
      (t.prop blob name (UInt32.ofNat (pos + 12)) (UInt32.ofNat value.length)) hrest (by omega)
      (by omega) (by omega)
    have hvisit := Visits.cons (t := t) (fun p hp => ?_)
      (nextToken_prop walker hpos hcode hlen hnameoff hname (by omega) haligned (by omega)) htail
    · rw [toNat_moved_offset walker hpos] at hvisit
      rw [Body.size, ← Nat.add_assoc, ← Nat.add_assoc, Body.tokens, List.foldl_cons, Body.placed]
      exact hvisit
    · rcases reads_prop walker hcode hlen hnameoff hname hbound hstrings haligned (by omega) hp
        with hread | hread
      · exact .inl (by omega)
      · exact .inr hread
  | child name body rest ihbody ihrest =>
    intro pos t hat haligned hstart hlt
    obtain ⟨hcode, hname, hbody, hendNode, hrest⟩ := hat
    have hpad := pad4_mod (name.length + 1)
    have hbodySize := body.size_mod
    simp only [Body.size] at hlt
    have hpos : pos < walker.structEnd.toNat := by omega
    have hlast : pos + 4 + pad4 (name.length + 1) + body.size < walker.structEnd.toNat := by omega
    -- first the begin token and the body, then the end token and what follows it
    have hinside := ihbody (pos + 4 + pad4 (name.length + 1)) (t.beginNode name) hbody (by omega)
      (by omega) (by omega)
    have hbegin := Visits.cons (t := t) (fun p hp => ?_)
      (nextToken_beginNode walker hpos hcode hname haligned (by omega)) hinside
    · have htail := ihrest _ (Tracking.endNode ((body.tokens (pos + 4 + pad4 (name.length + 1))).foldl
        (Tracking.handle blob) (t.beginNode name))) hrest (by omega) (by omega) (by omega)
      have hleave := Visits.cons (fun p hp => ?_) (nextToken_endNode walker hlast hendNode) htail
      · have hall := hbegin.append hleave
        rw [toNat_moved_offset walker hpos, toNat_moved_offset walker hlast] at hall
        rw [Body.size, Body.tokens, List.foldl_append, List.foldl_cons, List.foldl_cons,
          Body.placed, show pos + (4 + pad4 (name.length + 1) + body.size + 4 + rest.size) =
            pos + 4 + pad4 (name.length + 1) + body.size + 4 + rest.size by omega]
        exact hall
      · have hread := reads_code walker hlast (by rw [hendNode]; decide) (by rw [hendNode]; decide) hp
        exact .inl (by omega)
    · have hread := reads_beginNode walker hcode hname haligned (by omega) hp
      exact .inl (by omega)

/-! ### The walk of a tree -/

theorem FdtHeader.read_eq_some {blob : Blob} {header : FdtHeader}
    (h : FdtHeader.read blob = some header) :
    header = ⟨u32At blob 0, u32At blob 4, u32At blob 8, u32At blob 12, u32At blob 16, u32At blob 20,
      u32At blob 24, u32At blob 28, u32At blob 32, u32At blob 36⟩ := by
  simp only [FdtHeader.read] at h
  split at h
  · cases h
  · exact (Option.some.inj h).symm

theorem FdtHeader.exists_read {blob : Blob} (h : u32At blob 0 = fdtMagic) :
    ∃ header, FdtHeader.read blob = some header :=
  ⟨_, if_neg (not_not.mpr h)⟩

/-- Where the strings block ends. -/
def FdtHeader.stringsEnd (header : FdtHeader) : ℕ :=
  header.offDtStrings.toNat + header.sizeDtStrings.toNat

/-- Where the final token of the structure block stands. -/
def Tree.last (tree : Tree) (header : FdtHeader) : ℕ :=
  header.offDtStruct.toNat + tree.block.size

/-- An iteration reads from the blocks only. -/
def ReadsInside (blob : Blob) (header : FdtHeader) (s : FdtWalker × Tracking) : Prop :=
  ∀ p, Reads blob s p → InBlocks (FdtWalker.new header) header.stringsEnd p

section Encoded

variable {tree : Tree} {blob : Blob} {header : FdtHeader}

theorem Tree.Encoded.toNat_structEnd (h : tree.Encoded blob)
    (hread : FdtHeader.read blob = some header) :
    (FdtWalker.new header).structEnd.toNat = tree.last header + 4 := by
  obtain rfl := FdtHeader.read_eq_some hread
  have htotal := (u32At blob 4).toNat_lt
  have hwithin := h.struct_within
  change (u32At blob 8 + u32At blob 36).toNat = (u32At blob 8).toNat + tree.block.size + 4
  rw [UInt32.toNat_add, Nat.mod_eq_of_lt (by omega), h.struct_size, Nat.add_assoc]

theorem Tree.Encoded.block_at (h : tree.Encoded blob) (hread : FdtHeader.read blob = some header) :
    tree.block.At blob (FdtWalker.new header).stringsStart.toNat header.stringsEnd
      header.offDtStruct.toNat := by
  obtain rfl := FdtHeader.read_eq_some hread
  exact h.block

theorem Tree.Encoded.last_eq (h : tree.Encoded blob) (hread : FdtHeader.read blob = some header) :
    u32At blob (tree.last header) = fdtEnd := by
  obtain rfl := FdtHeader.read_eq_some hread
  exact h.last

theorem Tree.Encoded.stringsEnd_lt (h : tree.Encoded blob)
    (hread : FdtHeader.read blob = some header) : header.stringsEnd < 2 ^ 32 := by
  obtain rfl := FdtHeader.read_eq_some hread
  exact Nat.lt_of_le_of_lt h.strings_within (u32At blob 4).toNat_lt

theorem Tree.Encoded.struct_mod (h : tree.Encoded blob)
    (hread : FdtHeader.read blob = some header) : header.offDtStruct.toNat % 4 = 0 := by
  obtain rfl := FdtHeader.read_eq_some hread
  exact h.struct_aligned

theorem FdtWalker.moved_offset (walker : FdtWalker) :
    walker.moved walker.offset.toNat = walker := by
  rw [FdtWalker.moved, UInt32.ofNat_toNat]

theorem visits_tree (h : tree.Encoded blob) (hread : FdtHeader.read blob = some header) :
    Visits blob (ReadsInside blob header) (FdtWalker.new header, .initial)
      (tree.block.placed header.offDtStruct.toNat)
      ((FdtWalker.new header).moved (tree.last header),
        (tree.block.tokens header.offDtStruct.toNat).foldl (Tracking.handle blob) .initial) := by
  have hend := h.toNat_structEnd hread
  have hvisits := visits_body (FdtWalker.new header) (h.stringsEnd_lt hread) tree.block
    header.offDtStruct.toNat .initial (h.block_at hread) (h.struct_mod hread) le_rfl
    (by rw [hend]; exact Nat.lt_add_of_pos_right (by decide))
  have hstart : (FdtWalker.new header).moved header.offDtStruct.toNat = FdtWalker.new header :=
    FdtWalker.moved_offset (FdtWalker.new header)
  rw [hstart] at hvisits
  exact hvisits

/-- The walk is left at the final token. -/
theorem nextToken_last (h : tree.Encoded blob) (hread : FdtHeader.read blob = some header) :
    nextToken blob ((FdtWalker.new header).moved (tree.last header)) = some (.error ()) := by
  have hend := h.toNat_structEnd hread
  exact nextToken_end _ (by omega) (h.last_eq hread)

theorem walkBody_last (h : tree.Encoded blob) (hread : FdtHeader.read blob = some header)
    (t : Tracking) :
    walkBody blob ((FdtWalker.new header).moved (tree.last header), t) =
      some (.error t.result) := by
  rw [walkBody, nextToken_last h hread, Option.map_some]

/-- On every blob for a tree the walk comes to an end. -/
theorem returns_of_encoded (h : tree.Encoded blob) :
    ∃ fuel, walkDeviceTree fuel blob =
      some ((tree.block.tokens (u32At blob 8).toNat).foldl (Tracking.handle blob) .initial).result := by
  obtain ⟨header, hread⟩ := FdtHeader.exists_read h.magic
  have hreturns := (Loop.returns_of_leave (walkBody_last h hread _)).of_reaches
    (visits_tree h hread).reaches
  obtain ⟨fuel, hfuel⟩ := hreturns
  refine ⟨fuel, ?_⟩
  rw [walkDeviceTree, hread]
  obtain rfl := FdtHeader.read_eq_some hread
  exact hfuel

end Encoded

end SimurghHal.DeviceTree
