import SimurghHal.DeviceTree.Blob

/-!
# Building blobs

An encoder for device trees. Its output is a blob for the tree it was given, for every
tree whose names are in the strings block and that fits in 32-bit offsets.
-/

namespace SimurghHal.DeviceTree

/-- A big-endian word. -/
def be32 (n : ℕ) : List UInt8 := [n / 2 ^ 24, n / 2 ^ 16, n / 2 ^ 8, n].map UInt8.ofNat

def zeros (n : ℕ) : List UInt8 := List.replicate n 0

/-- The encoding of a body, padded to words with zero bytes. -/
def Body.encode : Body → List UInt8
  | .done => []
  | .nop rest => be32 4 ++ rest.encode
  | .prop nameoff _ value rest =>
    be32 3 ++ (be32 value.length ++ (be32 nameoff.toNat ++
      (value ++ (zeros (pad4 value.length - value.length) ++ rest.encode))))
  | .child name body rest =>
    be32 1 ++ (name ++ (zeros (pad4 (name.length + 1) - name.length) ++
      (body.encode ++ (be32 2 ++ rest.encode))))

/-- The strings block has the names of all properties, and no name contains a zero
byte. -/
def Body.WellNamed (strings : List UInt8) : Body → Prop
  | .done => True
  | .nop rest => rest.WellNamed strings
  | .prop nameoff name _ rest =>
    0 ∉ name ∧ name ++ [0] <+: strings.drop nameoff.toNat ∧ rest.WellNamed strings
  | .child name body rest => 0 ∉ name ∧ body.WellNamed strings ∧ rest.WellNamed strings

/-- A blob: the header, an empty reservation block at 40, the structure block at 56 and
the strings block behind it. -/
def Tree.encode (tree : Tree) (strings : List UInt8) : List UInt8 :=
  let size := tree.block.size + 4
  (be32 0xd00dfeed ++ be32 (56 + size + strings.length) ++ be32 56 ++ be32 (56 + size) ++
      be32 40 ++ be32 17 ++ be32 16 ++ be32 0 ++ be32 strings.length ++ be32 size ++ zeros 16) ++
    (tree.block.encode ++ (be32 9 ++ strings))

/-- Memory that starts with these bytes. -/
def blobOf (bytes : List UInt8) : Blob := fun i => bytes.getD i 0

/-! ### Reading what was encoded -/

theorem holdsBytes_append {blob : Blob} {pos : ℕ} {xs ys : List UInt8} :
    HoldsBytes blob pos (xs ++ ys) ↔
      HoldsBytes blob pos xs ∧ HoldsBytes blob (pos + xs.length) ys := by
  constructor
  · intro h
    refine ⟨fun i hi => ?_, fun i hi => ?_⟩
    · rw [h i (by rw [List.length_append]; omega), List.getElem_append_left hi]
    · have hi' := h (xs.length + i) (by rw [List.length_append]; omega)
      rw [Nat.add_assoc, hi', List.getElem_append_right (Nat.le_add_right _ _)]
      simp
  · rintro ⟨hxs, hys⟩ i hi
    by_cases hlt : i < xs.length
    · rw [hxs i hlt, List.getElem_append_left hlt]
    · have hy := hys (i - xs.length) (by rw [List.length_append] at hi; omega)
      rw [show pos + xs.length + (i - xs.length) = pos + i by omega] at hy
      rw [hy, List.getElem_append_right (not_lt.mp hlt)]

@[simp] theorem length_be32 (n : ℕ) : (be32 n).length = 4 := rfl

@[simp] theorem length_zeros (n : ℕ) : (zeros n).length = n := List.length_replicate

theorem u32At_of_holds {blob : Blob} {pos n : ℕ} (h : HoldsBytes blob pos (be32 n)) :
    u32At blob pos = UInt32.ofNat n := by
  have h0 : blob pos = UInt8.ofNat (n / 2 ^ 24) := h 0 (show 0 < 4 by decide)
  have h1 : blob (pos + 1) = UInt8.ofNat (n / 2 ^ 16) := h 1 (show 1 < 4 by decide)
  have h2 : blob (pos + 2) = UInt8.ofNat (n / 2 ^ 8) := h 2 (show 2 < 4 by decide)
  have h3 : blob (pos + 3) = UInt8.ofNat n := h 3 (show 3 < 4 by decide)
  rw [u32At, h0, h1, h2, h3]
  apply UInt32.toNat_inj.mp
  simp only [bigEndian, List.foldl_cons, List.foldl_nil, UInt8.toNat_ofNat', UInt32.toNat_ofNat']
  omega

theorem Body.length_encode (b : Body) : b.encode.length = b.size := by
  induction b with
  | done => rfl
  | nop rest ih => simp only [encode, size, List.length_append, length_be32, ih]
  | prop nameoff name value rest ih =>
    have hle := le_pad4 value.length
    simp only [encode, size, List.length_append, length_be32, length_zeros, ih]
    omega
  | child name body rest ihbody ihrest =>
    have hle := le_pad4 (name.length + 1)
    simp only [encode, size, List.length_append, length_be32, length_zeros, ihbody, ihrest]
    omega

theorem holdsCstr_of_prefix {blob : Blob} {pos : ℕ} {name strings : List UInt8} {k : ℕ}
    (h : HoldsBytes blob pos strings) (hname : name ++ [0] <+: strings.drop k)
    (hzero : 0 ∉ name) :
    HoldsCstr blob (pos + k) name ∧ k + name.length < strings.length := by
  obtain ⟨rest, hrest⟩ := hname
  have hlen := congrArg List.length hrest
  simp only [List.length_append, List.length_singleton, List.length_drop] at hlen
  have hk : k ≤ strings.length := by omega
  rw [← List.take_append_drop k strings, ← hrest, holdsBytes_append, List.length_take,
    Nat.min_eq_left hk, holdsBytes_append, holdsBytes_append] at h
  obtain ⟨-, ⟨hbytes, hend⟩, -⟩ := h
  exact ⟨⟨hbytes, hend 0 Nat.one_pos, hzero⟩, by omega⟩

/-- A name with its padding is a string. -/
theorem holdsCstr_of_padded {blob : Blob} {pos n : ℕ} {name : List UInt8} (hzero : 0 ∉ name)
    (hbytes : HoldsBytes blob pos name) (hpad : HoldsBytes blob (pos + name.length) (zeros n))
    (hn : 0 < n) : HoldsCstr blob pos name := by
  have hend := hpad 0 (by rw [length_zeros]; exact hn)
  simp only [zeros, List.getElem_replicate] at hend
  exact ⟨hbytes, hend, hzero⟩

/-- The encoder writes what the format asks for. -/
theorem Body.at_encode {blob : Blob} {stringsPos : ℕ} {strings : List UInt8}
    (hstrings : HoldsBytes blob stringsPos strings) (b : Body) : ∀ pos : ℕ,
    HoldsBytes blob pos b.encode → b.WellNamed strings → pos + b.size < 2 ^ 32 →
      b.At blob stringsPos (stringsPos + strings.length) pos := by
  induction b with
  | done => exact fun _ _ _ _ => trivial
  | nop rest ih =>
    intro pos h hnames hlt
    simp only [size] at hlt
    rw [encode, holdsBytes_append, length_be32] at h
    exact ⟨u32At_of_holds h.1, ih _ h.2 hnames (by omega)⟩
  | prop nameoff name value rest ih =>
    intro pos h hnames hlt
    obtain ⟨hzero, hname, hnames⟩ := hnames
    have hpad := le_pad4 value.length
    simp only [size] at hlt
    simp only [encode, holdsBytes_append, length_be32, length_zeros, Nat.add_assoc,
      Nat.reduceAdd] at h
    obtain ⟨hcode, hlen, hoff, hvalue, -, hrest⟩ := h
    obtain ⟨hcstr, hbound⟩ := holdsCstr_of_prefix hstrings hname hzero
    refine ⟨u32At_of_holds hcode, ?_, ?_, hvalue, hcstr, by omega, ?_⟩
    · rw [u32At_of_holds hlen, UInt32.toNat_ofNat_of_lt' (by simp only [UInt32.size]; omega)]
    · rw [u32At_of_holds hoff, UInt32.ofNat_toNat]
    · refine ih _ ?_ hnames (by omega)
      rwa [show pos + 12 + pad4 value.length =
        pos + (12 + (value.length + (pad4 value.length - value.length))) by omega]
  | child name body rest ihbody ihrest =>
    intro pos h hnames hlt
    obtain ⟨hzero, hbodyNames, hrestNames⟩ := hnames
    have hpad := le_pad4 (name.length + 1)
    simp only [size] at hlt
    simp only [encode, holdsBytes_append, length_be32, length_zeros, body.length_encode] at h
    obtain ⟨hcode, hname, hzeros, hbody, hend, hrest⟩ := h
    have hstart : pos + 4 + name.length + (pad4 (name.length + 1) - name.length) =
        pos + 4 + pad4 (name.length + 1) := by omega
    rw [hstart] at hbody hend hrest
    exact ⟨u32At_of_holds hcode, holdsCstr_of_padded hzero hname hzeros (by omega),
      ihbody _ hbody hbodyNames (by omega), u32At_of_holds hend,
      ihrest _ hrest hrestNames (by omega)⟩

theorem holdsBytes_blobOf (bytes : List UInt8) : HoldsBytes (blobOf bytes) 0 bytes := by
  intro i hi
  rw [Nat.zero_add, blobOf, List.getD_eq_getElem _ _ hi]

/-- The encoder builds a blob for its tree. -/
theorem Tree.encoded_encode (tree : Tree) (strings : List UInt8)
    (hnames : tree.block.WellNamed strings)
    (hsize : 60 + tree.block.size + strings.length < 2 ^ 32) :
    tree.Encoded (blobOf (tree.encode strings)) := by
  have h := holdsBytes_blobOf (tree.encode strings)
  generalize blobOf (tree.encode strings) = blob at h ⊢
  simp only [encode, holdsBytes_append, List.length_append, length_be32, length_zeros,
    tree.block.length_encode, Nat.zero_add, Nat.reduceAdd] at h
  obtain ⟨⟨⟨⟨⟨⟨⟨⟨⟨⟨⟨hmagic, htotal⟩, hstruct⟩, hstrings⟩, -⟩, -⟩, -⟩, -⟩, hstringsSize⟩, hstructSize⟩,
    -⟩, hblock, hlast, hnamesAt⟩ := h
  have hword : ∀ {pos n : ℕ}, HoldsBytes blob pos (be32 n) → n < 2 ^ 32 →
      (u32At blob pos).toNat = n := by
    intro pos n hn hlt
    rw [u32At_of_holds hn, UInt32.toNat_ofNat_of_lt' hlt]
  have hblockPos := hword hstruct (by omega)
  have hstringsPos := hword hstrings (by omega)
  have hstringsLen := hword hstringsSize (by omega)
  have hstructLen := hword hstructSize (by omega)
  have htotalLen := hword htotal (by omega)
  refine ⟨u32At_of_holds hmagic, by omega, by omega, by omega, by omega, ?_, ?_⟩
  · rw [hblockPos, hstringsPos, hstringsLen]
    refine Body.at_encode ?_ tree.block 56 hblock hnames (by omega)
    rwa [show 56 + (tree.block.size + 4) = 56 + tree.block.size + 4 by omega]
  · rw [hblockPos]
    exact u32At_of_holds hlast

end SimurghHal.DeviceTree
