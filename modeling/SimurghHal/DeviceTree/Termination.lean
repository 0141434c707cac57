import SimurghHal.DeviceTree.Encode
import SimurghHal.DeviceTree.Trace

/-!
# When the walk comes to an end

The walker goes on from the end of a token, which it computes with 32-bit numbers from a
length in the blob. Where that end is beyond the 32-bit offsets it is computed modulo `2 ^ 32`,
and the walker may come back to the same token, or to one before it.
-/

namespace SimurghHal.DeviceTree

/-- Where the token at the cursor ends, with name and value padded to a multiple of 4. -/
def tokenEnd (blob : Blob) (walker : FdtWalker) : ℕ :=
  let token := readU32At blob walker.offset
  if token = fdtBeginNode then
    pad4 (walker.offset.toNat + 4 + (((readCstrAt blob (walker.offset + 4)).getD []).length + 1))
  else if token = fdtProp then
    pad4 (walker.offset.toNat + 12 + (readU32At blob (walker.offset + 4)).toNat)
  else walker.offset.toNat + 4

/-- Number of bytes of the token at the cursor. -/
def tokenSize (blob : Blob) (walker : FdtWalker) : ℕ :=
  tokenEnd blob walker - walker.offset.toNat

/-- The loop goes on with the token at the cursor. -/
def GoesOn (blob : Blob) (walker : FdtWalker) : Prop :=
  walker.offset < walker.structEnd ∧
    readU32At blob walker.offset ∈ [fdtBeginNode, fdtEndNode, fdtProp, fdtNop]

instance (blob : Blob) (walker : FdtWalker) : Decidable (GoesOn blob walker) :=
  inferInstanceAs (Decidable (_ ∧ _))

/-- The size of the token at the cursor is no multiple of `2 ^ 32`, and what is left of it
modulo `2 ^ 32` ends within the 32-bit offsets. -/
def SizeFits (blob : Blob) (walker : FdtWalker) : Prop :=
  0 < tokenSize blob walker % 2 ^ 32 ∧
    walker.offset.toNat + tokenSize blob walker % 2 ^ 32 < 2 ^ 32

instance (blob : Blob) (walker : FdtWalker) : Decidable (SizeFits blob walker) :=
  inferInstanceAs (Decidable (_ ∧ _))

/-! ### One iteration -/

section Step

variable {blob : Blob} {walker next : FdtWalker} {token : Token}

theorem le_tokenEnd (blob : Blob) (walker : FdtWalker) :
    walker.offset.toNat ≤ tokenEnd blob walker := by
  simp only [tokenEnd]
  split
  · exact le_trans (by omega) (le_pad4 _)
  · split
    · exact le_trans (by omega) (le_pad4 _)
    · omega

theorem FdtWalker.moved_add_offset (walker : FdtWalker) (n : ℕ) :
    walker.moved (walker.offset.toNat + n) =
      { walker with offset := walker.offset + UInt32.ofNat n } := by
  rw [FdtWalker.moved, UInt32.ofNat_add, UInt32.ofNat_toNat]

/-- The walker goes on at the end of the token, modulo `2 ^ 32`. -/
theorem nextToken_moved (h : nextToken blob walker = some (.ok (token, next))) :
    next = walker.moved (tokenEnd blob walker) := by
  simp only [nextToken] at h
  simp only [tokenEnd]
  split at h
  · cases h
  · split at h
    · next hbegin =>
      rw [if_pos hbegin]
      obtain ⟨name, hname, heq⟩ := Option.map_eq_some_iff.mp h
      obtain ⟨-, rfl⟩ := Prod.mk.inj (Except.ok.inj heq)
      rw [hname, ← alignOffset_moved, Nat.add_assoc, FdtWalker.moved_add_offset, UInt32.ofNat_add,
        UInt32.ofNat_add, UInt32.add_assoc]
      rfl
    · next hbegin =>
      rw [if_neg hbegin]
      split at h
      · next hend =>
        have hprop : ¬ readU32At blob walker.offset = fdtProp := by
          rw [hend]
          decide
        obtain ⟨-, rfl⟩ := Prod.mk.inj (Except.ok.inj (Option.some.inj h))
        rw [if_neg hprop, FdtWalker.moved_add_offset]
        rfl
      · split at h
        · next hprop =>
          rw [if_pos hprop]
          obtain ⟨name, -, heq⟩ := Option.map_eq_some_iff.mp h
          obtain ⟨-, rfl⟩ := Prod.mk.inj (Except.ok.inj heq)
          rw [← alignOffset_moved, Nat.add_assoc, FdtWalker.moved_add_offset, UInt32.ofNat_add,
            UInt32.ofNat_toNat, ← UInt32.add_assoc, UInt32.add_assoc walker.offset 4 8]
          rfl
        · next hprop =>
          rw [if_neg hprop, FdtWalker.moved_add_offset]
          split at h
          · obtain ⟨-, rfl⟩ := Prod.mk.inj (Except.ok.inj (Option.some.inj h))
            rfl
          · cases h

/-- The loop goes on exactly with the four tokens it knows, unless a name has no end. -/
theorem goesOn_iff (hname : nextToken blob walker ≠ none) :
    (∃ token next, nextToken blob walker = some (.ok (token, next))) ↔ GoesOn blob walker := by
  constructor
  · rintro ⟨token, next, hnext⟩
    rw [nextToken] at hnext
    split at hnext
    · cases hnext
    · next hbelow =>
      refine ⟨UInt32.not_le.mp hbelow, ?_⟩
      by_contra hcode
      simp only [List.mem_cons, List.not_mem_nil, or_false, not_or] at hcode
      obtain ⟨hbegin, hend, hprop, hnop⟩ := hcode
      simp only [if_neg hbegin, if_neg hend, if_neg hprop, if_neg hnop] at hnext
      cases hnext
  · rintro ⟨hbelow, hcode⟩
    cases hnext : nextToken blob walker with
    | none => exact absurd hnext hname
    | some result =>
      cases result with
      | ok next => exact ⟨next.1, next.2, rfl⟩
      | error u =>
        rw [nextToken, if_neg (UInt32.not_le.mpr hbelow)] at hnext
        simp only [List.mem_cons, List.not_mem_nil, or_false] at hcode
        rcases hcode with hcode | hcode | hcode | hcode <;> rw [hcode] at hnext
        · obtain ⟨name, -, heq⟩ := Option.map_eq_some_iff.mp hnext
          cases heq
        · cases hnext
        · obtain ⟨name, -, heq⟩ := Option.map_eq_some_iff.mp hnext
          cases heq
        · cases hnext

/-- The cursor moves forward exactly over the tokens with a size that fits. -/
theorem offset_lt_iff (h : nextToken blob walker = some (.ok (token, next))) :
    walker.offset < next.offset ↔ SizeFits blob walker := by
  obtain rfl := nextToken_moved h
  have hle := le_tokenEnd blob walker
  have hlt := walker.offset.toNat_lt
  rw [UInt32.lt_iff_toNat_lt, SizeFits, tokenSize]
  change _ < (UInt32.ofNat (tokenEnd blob walker)).toNat ↔ _
  rw [UInt32.toNat_ofNat']
  -- the new cursor is the end of the token modulo `2 ^ 32`
  omega

theorem nextToken_of_walkBody {s s' : FdtWalker × Tracking}
    (h : walkBody blob s = some (.ok s')) :
    ∃ token, nextToken blob s.1 = some (.ok (token, s'.1)) := by
  obtain ⟨result, hnext, heq⟩ := Option.map_eq_some_iff.mp h
  cases result with
  | error u => cases heq
  | ok next =>
    obtain rfl := Except.ok.inj heq
    exact ⟨next.1, hnext⟩

end Step

/-! ### All iterations -/

/-- The loop comes to this state. -/
def Visited (blob : Blob) (header : FdtHeader) (s : FdtWalker × Tracking) : Prop :=
  Loop.Reaches (walkBody blob) (FdtWalker.new header, .initial) s

/-- Every name that is read has an end. -/
def NamesEnd (blob : Blob) (header : FdtHeader) : Prop :=
  ∀ s, Visited blob header s → nextToken blob s.1 ≠ none

/-- Every iteration after which the loop goes on moves the cursor forward. -/
def CursorIncreases (blob : Blob) (header : FdtHeader) : Prop :=
  ∀ s s', Visited blob header s → walkBody blob s = some (.ok s') → s.1.offset < s'.1.offset

section Run

variable {blob : Blob} {header : FdtHeader}

theorem cursorIncreases_iff (hnames : NamesEnd blob header) :
    CursorIncreases blob header ↔
      ∀ s, Visited blob header s → GoesOn blob s.1 → SizeFits blob s.1 := by
  constructor
  · intro h s hs hgoes
    obtain ⟨token, next, hnext⟩ := (goesOn_iff (hnames s hs)).mpr hgoes
    exact (offset_lt_iff hnext).mp (h s _ hs (walkBody_of_nextToken hnext))
  · intro h s s' hs hbody
    obtain ⟨token, hnext⟩ := nextToken_of_walkBody hbody
    exact (offset_lt_iff hnext).mpr (h s hs ((goesOn_iff (hnames s hs)).mp ⟨token, s'.1, hnext⟩))

/-- A cursor that increases comes to the end. -/
theorem exists_walkDeviceTree (hread : FdtHeader.read blob = some header)
    (hnames : NamesEnd blob header) (h : CursorIncreases blob header) :
    ∃ fuel result, walkDeviceTree fuel blob = some result := by
  have hreturns : ∃ result,
      Loop.Returns (walkBody blob) (FdtWalker.new header, .initial) result := by
    -- the cursor gets closer to the last offset there is
    refine Loop.exists_returns (fun s => 2 ^ 32 - s.1.offset.toNat) fun s hs => ?_
    cases hnext : nextToken blob s.1 with
    | none => exact absurd hnext (hnames s hs)
    | some next =>
      cases next with
      | error u => exact .inl ⟨s.2.result, by rw [walkBody, hnext, Option.map_some]⟩
      | ok next =>
        have hbody : walkBody blob s = some (.ok (next.2, s.2.handle blob next.1)) :=
          walkBody_of_nextToken hnext
        have hlt := UInt32.lt_iff_toNat_lt.mp (h s _ hs hbody)
        exact .inr ⟨_, hbody, Nat.sub_lt_sub_left s.1.offset.toNat_lt hlt⟩
  obtain ⟨result, fuel, hfuel⟩ := hreturns
  exact ⟨fuel, result, by rw [walkDeviceTree, hread]; exact hfuel⟩

/-- The walk comes to an end with a cursor that increases all the way, exactly when every token
it goes through has a size that fits. -/
theorem walkDeviceTree_terminates_iff (hread : FdtHeader.read blob = some header)
    (hnames : NamesEnd blob header) :
    ((∃ fuel result, walkDeviceTree fuel blob = some result) ∧ CursorIncreases blob header) ↔
      ∀ s, Visited blob header s → GoesOn blob s.1 → SizeFits blob s.1 := by
  rw [← cursorIncreases_iff hnames]
  exact and_iff_right_of_imp (exists_walkDeviceTree hread hnames)

end Run

/-! ### A property with a length from the blob -/

/-- A blob with a single property of the given length, an end token 4 bytes behind its header and
the empty name in the strings block. -/
def propBlob (len : ℕ) : Blob :=
  blobOf (be32 0xd00dfeed ++ be32 64 ++ be32 40 ++ be32 60 ++ be32 40 ++ be32 17 ++ be32 16 ++
    be32 0 ++ be32 4 ++ be32 20 ++ (be32 3 ++ be32 len ++ be32 0 ++ zeros 4 ++ be32 9) ++ zeros 4)

def propHeader : FdtHeader := ⟨0xd00dfeed, 64, 40, 60, 40, 17, 16, 0, 4, 20⟩

/-- A length of `0xfffffff4` brings the walker back to the property it has just read, for ever. -/
theorem walkDeviceTree_never_returns :
    FdtHeader.read (propBlob 0xfffffff4) = some propHeader ∧
      NamesEnd (propBlob 0xfffffff4) propHeader ∧
      ∀ fuel, walkDeviceTree fuel (propBlob 0xfffffff4) = none := by
  have hread : FdtHeader.read (propBlob 0xfffffff4) = some propHeader := by decide +kernel
  -- `52 + 0xfffffff4` is 40 again, and no node is open, so nothing else changes
  have hself : walkBody (propBlob 0xfffffff4) (FdtWalker.new propHeader, .initial) =
      some (.ok (FdtWalker.new propHeader, .initial)) := by
    decide +kernel
  have hstay : ∀ s s', s = (FdtWalker.new propHeader, Tracking.initial) →
      walkBody (propBlob 0xfffffff4) s = some (.ok s') →
        s' = (FdtWalker.new propHeader, Tracking.initial) := by
    rintro s s' rfl hbody
    rw [hself] at hbody
    exact (Except.ok.inj (Option.some.inj hbody)).symm
  refine ⟨hread, fun s hs hnone => ?_, fun fuel => ?_⟩
  · obtain rfl := Loop.Reaches.invariant hstay rfl hs
    rw [walkBody, hnone] at hself
    cases hself
  · rw [walkDeviceTree, hread]
    refine Loop.whileLoop_eq_none (I := (· = (FdtWalker.new propHeader, Tracking.initial))) ?_
      fuel _ rfl
    rintro s rfl
    exact ⟨_, hself, rfl⟩

/-- With the length it really has, the property is passed and the walk ends behind it. -/
theorem walkDeviceTree_terminates_prop :
    (∃ fuel result, walkDeviceTree fuel (propBlob 4) = some result) ∧
      CursorIncreases (propBlob 4) propHeader := by
  have hstep : walkBody (propBlob 4) (FdtWalker.new propHeader, .initial) =
      some (.ok ((FdtWalker.new propHeader).moved 56, .initial)) := by
    decide +kernel
  have hleave : walkBody (propBlob 4) ((FdtWalker.new propHeader).moved 56, .initial) =
      some (.error .default) := by
    decide +kernel
  have hvisited : ∀ s, Visited (propBlob 4) propHeader s →
      s = (FdtWalker.new propHeader, .initial) ∨
        s = ((FdtWalker.new propHeader).moved 56, .initial) := by
    intro s hs
    refine Loop.Reaches.invariant (I := fun s => s = (FdtWalker.new propHeader, .initial) ∨
      s = ((FdtWalker.new propHeader).moved 56, .initial)) ?_ (.inl rfl) hs
    rintro s s' (rfl | rfl) hbody
    · rw [hstep] at hbody
      exact .inr (Except.ok.inj (Option.some.inj hbody)).symm
    · rw [hleave] at hbody
      cases hbody
  have hread : FdtHeader.read (propBlob 4) = some propHeader := by decide +kernel
  refine (walkDeviceTree_terminates_iff hread fun s hs => ?_).mpr fun s hs => ?_
  · obtain rfl | rfl := hvisited s hs <;> decide +kernel
  · obtain rfl | rfl := hvisited s hs <;> decide +kernel

end SimurghHal.DeviceTree
