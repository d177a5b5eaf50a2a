import AimeeLearning.Bus.Wire
import AimeeLearning.Library.Counter

/-! A single-producer/single-consumer ring mapped over shared bytes. A ring
holds no data of its own: each operation reads or writes the mapping, which is
passed as the bytes from the ring's base to the end of the region. -/

set_option autoImplicit false

namespace AimeeLearning.Bus

open Library

def ringMagic : UInt32 := 0x474e4952
def ringOffMagic : Nat := 0
def ringOffSlot : Nat := 4
def ringOffCap : Nat := 8
def ringOffMask : Nat := 12
def ringOffSlots : Nat := 16
def ringOffHead : Nat := 64
def ringOffTail : Nat := 128
def ringHdrBytes : Nat := 192

/-- Go's `int` arithmetic wraps at 64 bits, two's complement. -/
def goInt (value : Int) : Int := value.bmod (2 ^ 64)

theorem goInt_of_small {value : Int} (lower : 0 ≤ value) (upper : value < 2 ^ 63) :
    goInt value = value := by
  unfold goInt
  apply Int.bmod_eq_of_le <;> omega

theorem goInt_affine {base size cells : Nat} (small : base + size * cells < 2 ^ 63) :
    goInt (base + goInt (size * cells)) = base + size * cells := by
  have product : goInt (size * cells) = size * cells :=
    goInt_of_small (by exact_mod_cast Nat.zero_le (size * cells)) (by push_cast at *; omega)
  rw [product]
  exact goInt_of_small (by exact_mod_cast Nat.zero_le (base + size * cells))
    (by exact_mod_cast small)

structure Ring where
  slotSize : UInt32
  capacity : UInt32
  mask : UInt32
  slotsOff : UInt32
  deriving DecidableEq, Repr

namespace Ring

def head (mem : Bytes) : UInt64 := uint64At mem ringOffHead

def tail (mem : Bytes) : UInt64 := uint64At mem ringOffTail

def storeHead (mem : Bytes) (value : UInt64) : Bytes :=
  patch mem ringOffHead (uint64Bytes value)

def storeTail (mem : Bytes) (value : UInt64) : Bytes :=
  patch mem ringOffTail (uint64Bytes value)

/-- The snapshot of occupied slots. -/
def count (mem : Bytes) : UInt64 := head mem - tail mem

/-- Where the slot of an index starts, in Go's `int` arithmetic. -/
def slotOffset (ring : Ring) (index : UInt64) : Nat :=
  (goInt (ring.slotsOff.toNat +
    goInt ((index &&& ring.mask.toUInt64).toNat * ring.slotSize.toNat))).toNat

/-- The bytes of the slot of an index. -/
def slot (ring : Ring) (mem : Bytes) (index : UInt64) : Bytes :=
  window mem (ring.slotOffset index) ring.slotSize.toNat

/-- The offset of a writable slot, or none when the ring is full. -/
def produceBegin (ring : Ring) (mem : Bytes) : Option Nat :=
  let head := Ring.head mem
  let tail := Ring.tail mem
  if head - tail ≥ ring.capacity.toUInt64 then none
  else some (ring.slotOffset head)

def produceCommit (mem : Bytes) : Bytes :=
  storeHead mem (head mem + 1)

/-- The offset of the oldest unread slot, or none when the ring is empty. -/
def consumeBegin (ring : Ring) (mem : Bytes) : Option Nat :=
  let tail := Ring.tail mem
  let head := Ring.head mem
  if head = tail then none
  else some (ring.slotOffset tail)

def consumeCommit (mem : Bytes) : Bytes :=
  storeTail mem (tail mem + 1)

end Ring

/-- The geometry fields a mapped ring header names. -/
def ringFields (mem : Bytes) : Ring where
  slotSize := uint32At mem ringOffSlot
  capacity := uint32At mem ringOffCap
  mask := uint32At mem ringOffMask
  slotsOff := uint32At mem ringOffSlots

/-- The bytes a ring needs, in Go's `int` arithmetic. -/
def Ring.need (ring : Ring) : Int :=
  goInt (ring.slotsOff.toNat + goInt (ring.slotSize.toNat * ring.capacity.toNat))

def attachRing (mem : Bytes) : Except BusError Ring :=
  if mem.length < ringHdrBytes then .error .errRingLayout
  else if uint32At mem ringOffMagic != ringMagic then .error .errRingLayout
  else
    let ring := ringFields mem
    if ring.capacity < 2 || ring.capacity &&& (ring.capacity - 1) != 0 || ring.slotSize == 0 ||
        ring.mask != ring.capacity - 1 || ring.slotsOff != UInt32.ofNat ringHdrBytes then
      .error .errRingLayout
    else if (mem.length : Int) < ring.need then .error .errRingLayout
    else if Ring.head mem - Ring.tail mem > ring.capacity.toUInt64 then .error .errRingLayout
    else .ok ring

/-- What a validated header says about the geometry of `length` mapped bytes. -/
structure Ring.Fits (ring : Ring) (length : Nat) : Prop where
  power : ∃ bits, bits ≤ 32 ∧ ring.capacity.toNat = 2 ^ bits
  many : 2 ≤ ring.capacity.toNat
  slots : 0 < ring.slotSize.toNat
  masked : ring.mask.toNat = ring.capacity.toNat - 1
  start : ring.slotsOff.toNat = ringHdrBytes
  mapped : ringHdrBytes + ring.slotSize.toNat * ring.capacity.toNat ≤ length

theorem slotArea_small (size cells : UInt32) (limit : cells.toNat ≤ 2 ^ 31) :
    ringHdrBytes + size.toNat * cells.toNat < 2 ^ 63 := by
  have width : size.toNat < 2 ^ 32 := size.toNat_lt
  have area : size.toNat * cells.toNat ≤ (2 ^ 32 - 1) * 2 ^ 31 :=
    Nat.mul_le_mul (by omega) limit
  unfold ringHdrBytes
  omega

theorem power_small {capacity : UInt32} {bits : Nat} (power : capacity.toNat = 2 ^ bits) :
    capacity.toNat ≤ 2 ^ 31 := by
  have word : capacity.toNat < 2 ^ 32 := capacity.toNat_lt
  rw [power] at word ⊢
  have below := (Nat.pow_lt_pow_iff_right (by decide)).mp word
  exact Nat.pow_le_pow_right (by decide) (by omega)

theorem capacity_power {capacity : UInt32} (many : 2 ≤ capacity)
    (single : capacity &&& (capacity - 1) = 0) :
    ∃ bits, bits ≤ 31 ∧ capacity.toNat = 2 ^ bits := by
  have lower : 2 ≤ capacity.toNat := UInt32.le_iff_toNat_le.mp many
  have predecessor : (capacity - 1).toNat = capacity.toNat - 1 := by
    rw [UInt32.toNat_sub_of_le _ _ (UInt32.le_trans (by decide) many)]
    rfl
  have masked : capacity.toNat &&& (capacity.toNat - 1) = 0 := by
    rw [← predecessor, ← UInt32.toNat_and, single]
    rfl
  obtain ⟨bits, shape⟩ :=
    (Nat.and_sub_one_eq_zero_iff_isPowerOfTwo (by omega)).mp masked
  refine ⟨bits, ?_, shape⟩
  have bounded : capacity.toNat < 2 ^ 32 := capacity.toNat_lt
  rw [shape] at bounded
  have := (Nat.pow_lt_pow_iff_right (by decide)).mp bounded
  omega

theorem attachRing_fits {mem : Bytes} {ring : Ring} (attached : attachRing mem = .ok ring) :
    ring.Fits mem.length ∧ ring = ringFields mem ∧
      (Ring.count mem).toNat ≤ ring.capacity.toNat := by
  simp only [attachRing] at attached
  split at attached
  · cases attached
  split at attached
  · cases attached
  split at attached
  · cases attached
  rename_i geometry
  split at attached
  · cases attached
  rename_i mapped
  split at attached
  · cases attached
  rename_i occupied
  obtain rfl : ringFields mem = ring := Except.ok.inj attached
  generalize shape : ringFields mem = ring at geometry mapped occupied ⊢
  simp only [Bool.or_eq_true, decide_eq_true_eq, bne_iff_ne, ne_eq, beq_iff_eq, not_or,
    Decidable.not_not, UInt32.not_lt] at geometry
  obtain ⟨⟨⟨⟨many, single⟩, slots⟩, masked⟩, start⟩ := geometry
  obtain ⟨bits, small, power⟩ := capacity_power many single
  have lower : 2 ≤ ring.capacity.toNat := UInt32.le_iff_toNat_le.mp many
  have startNat : ring.slotsOff.toNat = ringHdrBytes := by rw [start]; rfl
  have limit : ring.capacity.toNat ≤ 2 ^ 31 := by
    rw [power]; exact Nat.pow_le_pow_right (by decide) small
  have area := slotArea_small ring.slotSize ring.capacity limit
  have needed : ring.need = ringHdrBytes + ring.slotSize.toNat * ring.capacity.toNat := by
    rw [Ring.need, startNat, goInt_affine area]
  refine ⟨⟨⟨bits, by omega, power⟩, lower, ?_, ?_, startNat, ?_⟩, rfl, ?_⟩
  · have : ring.slotSize.toNat ≠ 0 := fun zero => slots (UInt32.toNat_inj.mp zero)
    omega
  · rw [masked, UInt32.toNat_sub_of_le _ _ (UInt32.le_trans (by decide) many)]
    rfl
  · rw [needed] at mapped
    omega
  · have := UInt64.not_lt.mp occupied
    simpa [Ring.count] using UInt64.le_iff_toNat_le.mp this

namespace Ring

variable {ring : Ring} {length : Nat}

theorem Fits.area_small (fits : ring.Fits length) :
    ringHdrBytes + ring.slotSize.toNat * ring.capacity.toNat < 2 ^ 63 := by
  obtain ⟨bits, -, power⟩ := fits.power
  exact slotArea_small ring.slotSize ring.capacity (power_small power)

theorem cell_eq (fits : ring.Fits length) (index : Nat) :
    (UInt64.ofNat index &&& ring.mask.toUInt64).toNat = index % ring.capacity.toNat := by
  obtain ⟨bits, small, power⟩ := fits.power
  rw [UInt64.toNat_and, UInt32.toNat_toUInt64, fits.masked, power, wrapped_mask (by omega)]

theorem cell_end_le (fits : ring.Fits length) (index : Nat) :
    index % ring.capacity.toNat * ring.slotSize.toNat + ring.slotSize.toNat ≤
      ring.slotSize.toNat * ring.capacity.toNat := by
  have below : index % ring.capacity.toNat < ring.capacity.toNat :=
    Nat.mod_lt _ (by have := fits.many; omega)
  rw [← Nat.succ_mul, Nat.mul_comm ring.slotSize.toNat]
  exact Nat.mul_le_mul_right _ below

theorem slotOffset_wrapped (fits : ring.Fits length) (index : Nat) :
    ring.slotOffset (UInt64.ofNat index) =
      ringHdrBytes + index % ring.capacity.toNat * ring.slotSize.toNat := by
  have inside := cell_end_le fits index
  have area := fits.area_small
  rw [slotOffset, cell_eq fits, fits.start, goInt_affine (by omega)]
  norm_cast

theorem slot_bounds (fits : ring.Fits length) (index : Nat) :
    ringHdrBytes ≤ ring.slotOffset (UInt64.ofNat index) ∧
      ring.slotOffset (UInt64.ofNat index) + ring.slotSize.toNat ≤ length := by
  have inside := cell_end_le fits index
  have mapped := fits.mapped
  rw [slotOffset_wrapped fits]
  omega

theorem slots_apart (fits : ring.Fits length) {left right : Nat}
    (different : left % ring.capacity.toNat ≠ right % ring.capacity.toNat) :
    ring.slotOffset (UInt64.ofNat left) + ring.slotSize.toNat ≤
        ring.slotOffset (UInt64.ofNat right) ∨
      ring.slotOffset (UInt64.ofNat right) + ring.slotSize.toNat ≤
        ring.slotOffset (UInt64.ofNat left) := by
  rw [slotOffset_wrapped fits, slotOffset_wrapped fits]
  rcases cell_disjoint ring.slotSize.toNat different with before | after
  · left; omega
  · right; omega

theorem slot_disjoint (fits : ring.Fits length) {left right : Nat} (ordered : left < right)
    (near : right < left + ring.capacity.toNat) :
    ring.slotOffset (UInt64.ofNat left) + ring.slotSize.toNat ≤
        ring.slotOffset (UInt64.ofNat right) ∨
      ring.slotOffset (UInt64.ofNat right) + ring.slotSize.toNat ≤
        ring.slotOffset (UInt64.ofNat left) :=
  slots_apart fits (cell_ne ordered near)

theorem length_slot (fits : ring.Fits length) {mem : Bytes} (mapped : mem.length = length)
    (index : Nat) : (ring.slot mem (UInt64.ofNat index)).length = ring.slotSize.toNat := by
  have := slot_bounds fits index
  rw [slot, length_window]
  omega

/-! Atomic words and slots occupy separate bytes, so a store moves one of them. -/

section Stores

variable {mem : Bytes}

@[simp] theorem length_storeHead (long : ringHdrBytes ≤ mem.length) (value : UInt64) :
    (storeHead mem value).length = mem.length :=
  length_patch (by simp [ringOffHead]; unfold ringHdrBytes at long; omega)

@[simp] theorem length_storeTail (long : ringHdrBytes ≤ mem.length) (value : UInt64) :
    (storeTail mem value).length = mem.length :=
  length_patch (by simp [ringOffTail]; unfold ringHdrBytes at long; omega)

theorem uint64At_patch {offset : Nat} (fits : offset + 8 ≤ mem.length) (value : UInt64) :
    uint64At (patch mem offset (uint64Bytes value)) offset = value := by
  have stored : window (patch mem offset (uint64Bytes value)) offset (uint64Bytes value).length =
      uint64Bytes value := window_patch_same (by simpa using fits)
  rw [length_uint64Bytes] at stored
  rw [uint64At, stored, uint64_ofLittleEndian]

theorem uint64At_patch_disjoint {offset start : Nat} {data : Bytes}
    (fits : offset + data.length ≤ mem.length)
    (disjoint : start + 8 ≤ offset ∨ offset + data.length ≤ start) :
    uint64At (patch mem offset data) start = uint64At mem start := by
  rw [uint64At, uint64At, window_patch_disjoint fits disjoint]

theorem head_storeHead (long : ringHdrBytes ≤ mem.length) (value : UInt64) :
    head (storeHead mem value) = value :=
  uint64At_patch (by unfold ringHdrBytes at long; unfold ringOffHead; omega) value

theorem tail_storeHead (long : ringHdrBytes ≤ mem.length) (value : UInt64) :
    tail (storeHead mem value) = tail mem :=
  uint64At_patch_disjoint
    (by rw [length_uint64Bytes]; unfold ringHdrBytes at long; unfold ringOffHead; omega)
    (by rw [length_uint64Bytes]; unfold ringOffHead ringOffTail; omega)

theorem tail_storeTail (long : ringHdrBytes ≤ mem.length) (value : UInt64) :
    tail (storeTail mem value) = value :=
  uint64At_patch (by unfold ringHdrBytes at long; unfold ringOffTail; omega) value

theorem head_storeTail (long : ringHdrBytes ≤ mem.length) (value : UInt64) :
    head (storeTail mem value) = head mem :=
  uint64At_patch_disjoint
    (by rw [length_uint64Bytes]; unfold ringHdrBytes at long; unfold ringOffTail; omega)
    (by rw [length_uint64Bytes]; unfold ringOffHead ringOffTail; omega)

theorem slot_storeHead (fits : ring.Fits mem.length) (value : UInt64) (index : Nat) :
    ring.slot (storeHead mem value) (UInt64.ofNat index) = ring.slot mem (UInt64.ofNat index) := by
  have bounds := slot_bounds fits index
  have long := fits.mapped
  unfold ringHdrBytes at bounds long
  exact window_patch_disjoint (by rw [length_uint64Bytes]; unfold ringOffHead; omega)
    (by rw [length_uint64Bytes]; unfold ringOffHead; omega)

theorem slot_storeTail (fits : ring.Fits mem.length) (value : UInt64) (index : Nat) :
    ring.slot (storeTail mem value) (UInt64.ofNat index) = ring.slot mem (UInt64.ofNat index) := by
  have bounds := slot_bounds fits index
  have long := fits.mapped
  unfold ringHdrBytes at bounds long
  exact window_patch_disjoint (by rw [length_uint64Bytes]; unfold ringOffTail; omega)
    (by rw [length_uint64Bytes]; unfold ringOffTail; omega)

/-- Store `data` into the slot of `index`, `offset` bytes into it. -/
def storeSlot (ring : Ring) (mem : Bytes) (index : UInt64) (offset : Nat) (data : Bytes) : Bytes :=
  patch mem (ring.slotOffset index + offset) data

variable {data : Bytes} {index offset : Nat}

theorem storeSlot_fits (fits : ring.Fits mem.length)
    (inside : offset + data.length ≤ ring.slotSize.toNat) :
    ring.slotOffset (UInt64.ofNat index) + offset + data.length ≤ mem.length := by
  have := slot_bounds fits index
  omega

theorem length_storeSlot (fits : ring.Fits mem.length)
    (inside : offset + data.length ≤ ring.slotSize.toNat) :
    (ring.storeSlot mem (UInt64.ofNat index) offset data).length = mem.length :=
  length_patch (storeSlot_fits fits inside)

theorem head_storeSlot (fits : ring.Fits mem.length)
    (inside : offset + data.length ≤ ring.slotSize.toNat) :
    head (ring.storeSlot mem (UInt64.ofNat index) offset data) = head mem := by
  have := slot_bounds fits index
  unfold ringHdrBytes at this
  exact uint64At_patch_disjoint (storeSlot_fits fits inside) (by unfold ringOffHead; omega)

theorem tail_storeSlot (fits : ring.Fits mem.length)
    (inside : offset + data.length ≤ ring.slotSize.toNat) :
    tail (ring.storeSlot mem (UInt64.ofNat index) offset data) = tail mem := by
  have := slot_bounds fits index
  unfold ringHdrBytes at this
  exact uint64At_patch_disjoint (storeSlot_fits fits inside) (by unfold ringOffTail; omega)

theorem slot_storeSlot_behind (fits : ring.Fits mem.length)
    (inside : offset + data.length ≤ ring.slotSize.toNat) {behind : Nat}
    (ordered : behind < index) (near : index < behind + ring.capacity.toNat) :
    ring.slot (ring.storeSlot mem (UInt64.ofNat index) offset data) (UInt64.ofNat behind) =
      ring.slot mem (UInt64.ofNat behind) := by
  have apart := slot_disjoint fits ordered near
  exact window_patch_disjoint (storeSlot_fits fits inside) (by omega)

theorem produceBegin_offset (began : ring.produceBegin mem = some offset) :
    offset = ring.slotOffset (head mem) := by
  simp only [produceBegin] at began
  split at began
  · cases began
  · exact (Option.some.inj began).symm

theorem slot_committed (fits : ring.Fits mem.length)
    (began : ring.produceBegin mem = some offset) (filled : data.length = ring.slotSize.toNat) :
    ring.slot (produceCommit (patch mem offset data)) (head mem) = data := by
  have bounds := (slot_bounds fits (head mem).toNat).2
  rw [UInt64.ofNat_toNat, ← produceBegin_offset began, ← filled] at bounds
  have length : (patch mem offset data).length = mem.length := length_patch bounds
  have kept := slot_storeHead (show ring.Fits (patch mem offset data).length by rwa [length])
    (head (patch mem offset data) + 1) (head mem).toNat
  rw [UInt64.ofNat_toNat] at kept
  rw [produceCommit, kept, slot, ← produceBegin_offset began, ← filled]
  exact window_patch_same bounds

end Stores

end Ring

end AimeeLearning.Bus
