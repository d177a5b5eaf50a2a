import Mathlib.Data.List.Basic
import Mathlib.Tactic.Ring

/-! Byte strings, little-endian words and windows of a byte string. A mapped
region is a byte string too; storing into it replaces one window. -/

set_option autoImplicit false

namespace AimeeLearning.Library

abbrev Bytes := List UInt8

/-- The `width` little-endian bytes of `value`; higher bits are dropped. -/
def littleEndian : Nat → Nat → Bytes
  | 0, _ => []
  | width + 1, value => UInt8.ofNat value :: littleEndian width (value / 256)

def ofLittleEndian : Bytes → Nat
  | [] => 0
  | byte :: rest => byte.toNat + 256 * ofLittleEndian rest

@[simp] theorem length_littleEndian (width value : Nat) :
    (littleEndian width value).length = width := by
  induction width generalizing value with
  | zero => rfl
  | succ width ih => simp [littleEndian, ih]

theorem ofLittleEndian_littleEndian (width value : Nat) :
    ofLittleEndian (littleEndian width value) = value % 256 ^ width := by
  induction width generalizing value with
  | zero => simp [littleEndian, ofLittleEndian, Nat.mod_one]
  | succ width ih =>
      have digit : (UInt8.ofNat value).toNat = value % 256 := by simp
      rw [littleEndian, ofLittleEndian, ih, digit, pow_succ', Nat.mod_mul]

theorem ofLittleEndian_lt (bytes : Bytes) :
    ofLittleEndian bytes < 256 ^ bytes.length := by
  induction bytes with
  | nil => simp [ofLittleEndian]
  | cons byte rest ih =>
      have small : byte.toNat < 256 := byte.toNat_lt
      rw [ofLittleEndian, List.length_cons, pow_succ]
      omega

theorem littleEndian_ofLittleEndian (bytes : Bytes) :
    littleEndian bytes.length (ofLittleEndian bytes) = bytes := by
  induction bytes with
  | nil => rfl
  | cons byte rest ih =>
      have small : byte.toNat < 256 := byte.toNat_lt
      have quotient : (byte.toNat + 256 * ofLittleEndian rest) / 256 = ofLittleEndian rest := by
        omega
      have digit : UInt8.ofNat (byte.toNat + 256 * ofLittleEndian rest) = byte := by
        apply UInt8.toNat_inj.mp
        simp only [UInt8.toNat_ofNat']
        omega
      rw [List.length_cons, ofLittleEndian, littleEndian, quotient, ih, digit]

/-- The bytes from `offset`, at most `width` of them. -/
def window (bytes : Bytes) (offset width : Nat) : Bytes :=
  (bytes.drop offset).take width

theorem length_window (bytes : Bytes) (offset width : Nat) :
    (window bytes offset width).length = min width (bytes.length - offset) := by
  simp [window]

theorem getElem?_window (bytes : Bytes) (offset width index : Nat) :
    (window bytes offset width)[index]? =
      if index < width then bytes[offset + index]? else none := by
  simp [window, List.getElem?_take, List.getElem?_drop]

theorem window_window {bytes : Bytes} {offset width start size : Nat}
    (inside : start + size ≤ width) :
    window (window bytes offset width) start size = window bytes (offset + start) size := by
  apply List.ext_getElem?
  intro index
  simp only [getElem?_window]
  by_cases below : index < size
  · rw [if_pos below, if_pos below, if_pos (by omega), Nat.add_assoc]
  · rw [if_neg below, if_neg below]

theorem window_drop (bytes : Bytes) (base offset width : Nat) :
    window (bytes.drop base) offset width = window bytes (base + offset) width := by
  rw [window, window, List.drop_drop]

theorem window_adjacent {bytes : Bytes} {offset front next back : Nat}
    (adjacent : offset + front = next) :
    window bytes offset front ++ window bytes next back = window bytes offset (front + back) := by
  subst adjacent
  simp only [window]
  rw [List.take_add, List.drop_drop]

/-- Store `data` over the bytes from `offset`. -/
def patch (bytes : Bytes) (offset : Nat) (data : Bytes) : Bytes :=
  bytes.take offset ++ data ++ bytes.drop (offset + data.length)

theorem patch_drop (bytes : Bytes) (base offset : Nat) (data : Bytes) :
    bytes.take base ++ patch (bytes.drop base) offset data = patch bytes (base + offset) data := by
  simp only [patch, List.take_add, List.drop_drop, List.append_assoc, Nat.add_assoc]

@[simp] theorem length_patch {bytes data : Bytes} {offset : Nat}
    (fits : offset + data.length ≤ bytes.length) :
    (patch bytes offset data).length = bytes.length := by
  simp only [patch, List.length_append, List.length_take, List.length_drop]
  omega

theorem getElem?_patch_inside {bytes data : Bytes} {offset index : Nat}
    (fits : offset + data.length ≤ bytes.length)
    (lower : offset ≤ index) (upper : index < offset + data.length) :
    (patch bytes offset data)[index]? = data[index - offset]? := by
  have front : (bytes.take offset).length = offset := by
    rw [List.length_take]; omega
  rw [patch, List.append_assoc, List.getElem?_append_right (by omega), front,
    List.getElem?_append_left (by omega)]

theorem getElem?_patch_outside {bytes data : Bytes} {offset index : Nat}
    (fits : offset + data.length ≤ bytes.length)
    (outside : index < offset ∨ offset + data.length ≤ index) :
    (patch bytes offset data)[index]? = bytes[index]? := by
  have front : (bytes.take offset).length = offset := by
    rw [List.length_take]; omega
  rcases outside with before | after
  · rw [patch, List.append_assoc, List.getElem?_append_left (by omega),
      List.getElem?_take, if_pos before]
  · rw [patch, List.getElem?_append_right (by simp only [List.length_append, front]; omega),
      List.getElem?_drop]
    congr 1
    simp only [List.length_append, front]
    omega

theorem window_patch_disjoint {bytes data : Bytes} {offset start width : Nat}
    (fits : offset + data.length ≤ bytes.length)
    (disjoint : start + width ≤ offset ∨ offset + data.length ≤ start) :
    window (patch bytes offset data) start width = window bytes start width := by
  apply List.ext_getElem?
  intro index
  rw [getElem?_window, getElem?_window]
  split
  · exact getElem?_patch_outside fits (by omega)
  · rfl

theorem window_patch_same {bytes data : Bytes} {offset : Nat}
    (fits : offset + data.length ≤ bytes.length) :
    window (patch bytes offset data) offset data.length = data := by
  apply List.ext_getElem?
  intro index
  rw [getElem?_window]
  split
  · rw [getElem?_patch_inside fits (by omega) (by omega)]
    congr 1
    omega
  · rw [List.getElem?_eq_none (by omega)]

/-- The little-endian words of `encoding/binary`, read at an offset. -/
def uint16At (bytes : Bytes) (offset : Nat) : UInt16 :=
  UInt16.ofNat (ofLittleEndian (window bytes offset 2))

def uint32At (bytes : Bytes) (offset : Nat) : UInt32 :=
  UInt32.ofNat (ofLittleEndian (window bytes offset 4))

def uint64At (bytes : Bytes) (offset : Nat) : UInt64 :=
  UInt64.ofNat (ofLittleEndian (window bytes offset 8))

def uint16Bytes (value : UInt16) : Bytes := littleEndian 2 value.toNat

def uint32Bytes (value : UInt32) : Bytes := littleEndian 4 value.toNat

def uint64Bytes (value : UInt64) : Bytes := littleEndian 8 value.toNat

@[simp] theorem length_uint16Bytes (value : UInt16) : (uint16Bytes value).length = 2 := by
  simp [uint16Bytes]

@[simp] theorem length_uint32Bytes (value : UInt32) : (uint32Bytes value).length = 4 := by
  simp [uint32Bytes]

@[simp] theorem length_uint64Bytes (value : UInt64) : (uint64Bytes value).length = 8 := by
  simp [uint64Bytes]

theorem uint16_ofLittleEndian (value : UInt16) :
    UInt16.ofNat (ofLittleEndian (uint16Bytes value)) = value := by
  have small : value.toNat < 256 ^ 2 := value.toNat_lt
  rw [uint16Bytes, ofLittleEndian_littleEndian, Nat.mod_eq_of_lt small, UInt16.ofNat_toNat]

theorem uint32_ofLittleEndian (value : UInt32) :
    UInt32.ofNat (ofLittleEndian (uint32Bytes value)) = value := by
  have small : value.toNat < 256 ^ 4 := value.toNat_lt
  rw [uint32Bytes, ofLittleEndian_littleEndian, Nat.mod_eq_of_lt small, UInt32.ofNat_toNat]

theorem uint32Bytes_inj {first second : UInt32} :
    uint32Bytes first = uint32Bytes second ↔ first = second := by
  refine ⟨fun same => ?_, congrArg uint32Bytes⟩
  rw [← uint32_ofLittleEndian first, same, uint32_ofLittleEndian]

theorem uint64_ofLittleEndian (value : UInt64) :
    UInt64.ofNat (ofLittleEndian (uint64Bytes value)) = value := by
  have small : value.toNat < 256 ^ 8 := value.toNat_lt
  rw [uint64Bytes, ofLittleEndian_littleEndian, Nat.mod_eq_of_lt small, UInt64.ofNat_toNat]

theorem littleEndian_window {bytes : Bytes} {offset width : Nat}
    (inside : offset + width ≤ bytes.length) :
    littleEndian width (ofLittleEndian (window bytes offset width)) =
      window bytes offset width := by
  have length : (window bytes offset width).length = width := by
    rw [length_window]
    omega
  have written := littleEndian_ofLittleEndian (window bytes offset width)
  rwa [length] at written

theorem ofLittleEndian_window_lt (bytes : Bytes) (offset width : Nat) :
    ofLittleEndian (window bytes offset width) < 256 ^ width := by
  have short : (window bytes offset width).length ≤ width := by
    rw [length_window]
    exact Nat.min_le_left _ _
  exact (ofLittleEndian_lt _).trans_le (Nat.pow_le_pow_right (by decide) short)

theorem uint16Bytes_uint16At {bytes : Bytes} {offset : Nat} (inside : offset + 2 ≤ bytes.length) :
    uint16Bytes (uint16At bytes offset) = window bytes offset 2 := by
  have small : ofLittleEndian (window bytes offset 2) < 2 ^ 16 :=
    ofLittleEndian_window_lt bytes offset 2
  rw [uint16Bytes, uint16At, UInt16.toNat_ofNat', Nat.mod_eq_of_lt small,
    littleEndian_window inside]

theorem uint32Bytes_uint32At {bytes : Bytes} {offset : Nat} (inside : offset + 4 ≤ bytes.length) :
    uint32Bytes (uint32At bytes offset) = window bytes offset 4 := by
  have small : ofLittleEndian (window bytes offset 4) < 2 ^ 32 :=
    ofLittleEndian_window_lt bytes offset 4
  rw [uint32Bytes, uint32At, UInt32.toNat_ofNat', Nat.mod_eq_of_lt small,
    littleEndian_window inside]

theorem uint64Bytes_uint64At {bytes : Bytes} {offset : Nat} (inside : offset + 8 ≤ bytes.length) :
    uint64Bytes (uint64At bytes offset) = window bytes offset 8 := by
  have small : ofLittleEndian (window bytes offset 8) < 2 ^ 64 :=
    ofLittleEndian_window_lt bytes offset 8
  rw [uint64Bytes, uint64At, UInt64.toNat_ofNat', Nat.mod_eq_of_lt small,
    littleEndian_window inside]

theorem window_append_right {front back : Bytes} {offset width : Nat}
    (behind : front.length ≤ offset) :
    window (front ++ back) offset width = window back (offset - front.length) width := by
  simp only [window, List.drop_append]
  rw [List.drop_eq_nil_of_le behind, List.nil_append]

/-- A window that is exactly the first part of a concatenation. -/
theorem window_append_left {front back : Bytes} {width : Nat} (exactly : front.length = width) :
    window (front ++ back) 0 width = front := by
  simp [window, ← exactly]

theorem patch_patch (buffer front back : Bytes) :
    patch (patch buffer 0 front) front.length back =
      front ++ back ++ buffer.drop (front.length + back.length) := by
  simp [patch, List.drop_append]

end AimeeLearning.Library
