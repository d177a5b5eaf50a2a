import AimeeLearning.Bus.Ring
import Mathlib

/-! The slots of an accepted ring. The slice of a slot is computed in Go's `int`
arithmetic; for the sizes a header can name it never wraps, and the slices of
two indices are the same exactly where the indices agree modulo the capacity. -/

set_option autoImplicit false

namespace AimeeLearning.Bus

open Library

/-- The product and the sum of the size computation, without wrapping. -/
def SizeExact (slotSize capacity : UInt32) : Prop :=
  goInt (slotSize.toNat * capacity.toNat) = slotSize.toNat * capacity.toNat ∧
    goInt (ringHdrBytes + goInt (slotSize.toNat * capacity.toNat)) =
      ringHdrBytes + slotSize.toNat * capacity.toNat

theorem sizeExact_of_power {slotSize capacity : UInt32} {bits : Nat}
    (power : capacity.toNat = 2 ^ bits) : SizeExact slotSize capacity := by
  have area := slotArea_small slotSize capacity (power_small power)
  have product : slotSize.toNat * capacity.toNat < 2 ^ 63 := by omega
  refine ⟨goInt_of_small ?_ ?_, goInt_affine area⟩
  · exact_mod_cast Nat.zero_le (slotSize.toNat * capacity.toNat)
  · exact_mod_cast product

namespace Ring

/-- The bounds of the slice `slot` returns. -/
def slotBounds (ring : Ring) (index : UInt64) : Int × Int :=
  let off := goInt (ring.slotsOff.toNat +
    goInt ((index &&& ring.mask.toUInt64).toNat * ring.slotSize.toNat))
  (off, goInt (off + ring.slotSize.toNat))

def slotRange (ring : Ring) (index : UInt64) : Set Int :=
  Set.Ico (ring.slotBounds index).1 (ring.slotBounds index).2

/-- The slots of a ring over `length` mapped bytes. An index is a 64-bit word or
a free-running counter seen through its low 64 bits. -/
structure InBounds (ring : Ring) (length : Nat) : Prop where
  inside : ∀ index : UInt64, ringHdrBytes ≤ (ring.slotBounds index).1 ∧
    (ring.slotBounds index).2 = (ring.slotBounds index).1 + ring.slotSize.toNat ∧
    (ring.slotBounds index).2 ≤ length
  same : ∀ left right : UInt64, ring.slotBounds left = ring.slotBounds right ↔
    left.toNat ≡ right.toNat [MOD ring.capacity.toNat]
  apart : ∀ left right : UInt64, ¬ left.toNat ≡ right.toNat [MOD ring.capacity.toNat] →
    Disjoint (ring.slotRange left) (ring.slotRange right)
  wrappedSame : ∀ left right : Nat,
    ring.slotBounds (UInt64.ofNat left) = ring.slotBounds (UInt64.ofNat right) ↔
      left ≡ right [MOD ring.capacity.toNat]
  wrappedApart : ∀ left right : Nat, ¬ left ≡ right [MOD ring.capacity.toNat] →
    Disjoint (ring.slotRange (UInt64.ofNat left)) (ring.slotRange (UInt64.ofNat right))

variable {ring : Ring} {length : Nat}

/-- Neither the offset nor the end of a slice wraps. -/
theorem slotBounds_eq (fits : ring.Fits length) (counter : Nat) :
    ring.slotBounds (UInt64.ofNat counter) =
      ((ring.slotOffset (UInt64.ofNat counter) : Int),
        ((ring.slotOffset (UInt64.ofNat counter) + ring.slotSize.toNat : Nat) : Int)) := by
  have inside := cell_end_le fits counter
  have area := fits.area_small
  have start : goInt (ring.slotsOff.toNat +
      goInt ((UInt64.ofNat counter &&& ring.mask.toUInt64).toNat * ring.slotSize.toNat)) =
      ring.slotOffset (UInt64.ofNat counter) := by
    rw [slotOffset_wrapped fits, cell_eq fits, fits.start, goInt_affine (by omega)]
    norm_cast
  have stop : goInt (ring.slotOffset (UInt64.ofNat counter) + ring.slotSize.toNat) =
      ((ring.slotOffset (UInt64.ofNat counter) + ring.slotSize.toNat : Nat) : Int) := by
    rw [slotOffset_wrapped fits]
    exact goInt_of_small (by omega) (by omega)
  rw [slotBounds, start, stop]

theorem slotBounds_same_iff (fits : ring.Fits length) (left right : Nat) :
    ring.slotBounds (UInt64.ofNat left) = ring.slotBounds (UInt64.ofNat right) ↔
      left ≡ right [MOD ring.capacity.toNat] := by
  constructor
  · intro same
    by_contra different
    have apart := slots_apart fits different
    have wide := fits.slots
    rw [slotBounds_eq fits, slotBounds_eq fits, Prod.mk.injEq] at same
    omega
  · intro congruent
    rw [slotBounds_eq fits, slotBounds_eq fits, slotOffset_wrapped fits, slotOffset_wrapped fits,
      congruent]

theorem slotRange_disjoint (fits : ring.Fits length) {left right : Nat}
    (different : ¬ left ≡ right [MOD ring.capacity.toNat]) :
    Disjoint (ring.slotRange (UInt64.ofNat left)) (ring.slotRange (UInt64.ofNat right)) := by
  have apart := slots_apart fits different
  rw [slotRange, slotRange, slotBounds_eq fits, slotBounds_eq fits, Set.Ico_disjoint_Ico]
  omega

theorem inBounds_of_fits (fits : ring.Fits length) : ring.InBounds length where
  inside index := by
    have bounds := slot_bounds fits index.toNat
    have slice := slotBounds_eq fits index.toNat
    rw [UInt64.ofNat_toNat] at bounds slice
    rw [slice]
    omega
  same left right := by
    have same := slotBounds_same_iff fits left.toNat right.toNat
    rwa [UInt64.ofNat_toNat, UInt64.ofNat_toNat] at same
  apart left right different := by
    have apart := slotRange_disjoint fits different
    rwa [UInt64.ofNat_toNat, UInt64.ofNat_toNat] at apart
  wrappedSame := slotBounds_same_iff fits
  wrappedApart _ _ := slotRange_disjoint fits

end Ring

/-- The slots of every accepted ring lie in the mapped bytes behind the header,
one for each residue of the index. -/
theorem attachRing_in_bounds {mem : Bytes} {ring : Ring} (attached : attachRing mem = .ok ring) :
    (∀ (slotSize capacity : UInt32) (bits : Nat), capacity.toNat = 2 ^ bits →
        SizeExact slotSize capacity) ∧
      ring.need = ringHdrBytes + ring.slotSize.toNat * ring.capacity.toNat ∧
      ring.InBounds mem.length := by
  have fits := (attachRing_fits attached).1
  obtain ⟨bits, -, power⟩ := fits.power
  refine ⟨fun _ _ _ => sizeExact_of_power, ?_, Ring.inBounds_of_fits fits⟩
  rw [Ring.need, fits.start]
  exact (sizeExact_of_power power).2

def fourSlots : Bytes :=
  uint32Bytes ringMagic ++ uint32Bytes 3 ++ uint32Bytes 4 ++ uint32Bytes 3 ++ uint32Bytes 192 ++
    List.replicate 184 0

/-- Four slots of three bytes. -/
theorem attachRing_in_bounds_four :
    (∀ (slotSize capacity : UInt32) (bits : Nat), capacity.toNat = 2 ^ bits →
        SizeExact slotSize capacity) ∧
      (⟨3, 4, 3, 192⟩ : Ring).need = 204 ∧ (⟨3, 4, 3, 192⟩ : Ring).InBounds 204 :=
  @attachRing_in_bounds fourSlots _ (by decide +kernel)

end AimeeLearning.Bus
