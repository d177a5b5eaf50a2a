import AimeeLearning.Library.CString

/-! Writes into C buffers. A store that would leave the buffer has no result, so
a computation that has one has stayed inside. -/

set_option autoImplicit false

namespace AimeeLearning.Library

/-- `size_t` arithmetic wraps at 64 bits. -/
def sizeT (value : Nat) : Nat := value % 2 ^ 64

/-- The difference of two `size_t`. -/
def sizeTSub (left right : Nat) : Nat := sizeT (left + (2 ^ 64 - right))

/-- A buffer as an object of C: its size fits `ptrdiff_t`. -/
structure CBuffer where
  bytes : Bytes
  object : bytes.length < 2 ^ 63

def storeAt (buffer : Bytes) (offset : Nat) (data : Bytes) : Option Bytes :=
  if offset + data.length ≤ buffer.length then some (patch buffer offset data) else none

/-- `snprintf` of a text to an offset: as much of it as `size` has room for, and a NUL. -/
def snprintfAt (buffer : Bytes) (offset size : Nat) (text : Bytes) : Option Bytes :=
  if size = 0 then some buffer else storeAt buffer offset (text.take (size - 1) ++ [0])

theorem sizeT_eq {value : Nat} (small : value < 2 ^ 64) : sizeT value = value :=
  Nat.mod_eq_of_lt small

theorem sizeTSub_eq {left right : Nat} (ordered : right ≤ left) (small : left < 2 ^ 64) :
    sizeTSub left right = left - right := by
  unfold sizeTSub sizeT
  omega

section Stores

variable {buffer data text : Bytes} {offset size : Nat}

theorem storeAt_some (inside : offset + data.length ≤ buffer.length) :
    storeAt buffer offset data = some (patch buffer offset data) := if_pos inside

theorem take_patch_append (inside : offset ≤ buffer.length) (rest : Bytes) :
    (patch buffer offset (data ++ rest)).take (offset + data.length) =
      buffer.take offset ++ data := by
  have front : (buffer.take offset ++ data).length = offset + data.length := by
    rw [List.length_append, List.length_take, Nat.min_eq_left inside]
  rw [patch, ← List.append_assoc (buffer.take offset), List.append_assoc, ← front, List.take_left']
  rfl

theorem take_patch (inside : offset ≤ buffer.length) :
    (patch buffer offset data).take (offset + data.length) = buffer.take offset ++ data := by
  simpa using take_patch_append inside []

theorem snprintfAt_some (room : text.length < size) (inside : offset + size ≤ buffer.length) :
    snprintfAt buffer offset size text = some (patch buffer offset (text ++ [0])) := by
  rw [snprintfAt, if_neg (by omega), List.take_of_length_le (by omega), storeAt_some]
  rw [List.length_append, List.length_singleton]
  omega

end Stores

/-- A `char` array of a fixed size. -/
structure CharArray (cap : Nat) where
  bytes : Bytes
  size : bytes.length = cap
  deriving DecidableEq

namespace CharArray

variable {cap : Nat}

/-- The text a pointer to the array denotes, if it is terminated. -/
def text (array : CharArray cap) : Bytes := cString array.bytes

def Terminated (array : CharArray cap) : Prop := 0 ∈ array.bytes

/-- `memset` to zero. -/
def zero (cap : Nat) : CharArray cap := ⟨List.replicate cap 0, List.length_replicate⟩

def store (array : CharArray cap) (data : Bytes) (fits : data.length ≤ cap) : CharArray cap where
  bytes := patch array.bytes 0 data
  size := (length_patch (by rw [array.size]; omega)).trans array.size

variable [positive : NeZero cap]

/-- `snprintf` of a text into the whole array. -/
def print (array : CharArray cap) (text : Bytes) : CharArray cap :=
  array.store (text.take (cap - 1) ++ [0]) (by
    have := positive.pos
    simp
    omega)

/-- `array[0] = 0` -/
def clear (array : CharArray cap) : CharArray cap := array.store [0] positive.pos

theorem terminated_zero : (zero cap).Terminated :=
  List.mem_replicate.mpr ⟨positive.ne, rfl⟩

theorem terminated_print (array : CharArray cap) (text : Bytes) : (array.print text).Terminated := by
  simp [Terminated, print, store, patch]

theorem terminated_clear (array : CharArray cap) : array.clear.Terminated := by
  simp [Terminated, clear, store, patch]

theorem text_print {text : Bytes} (free : 0 ∉ text) (array : CharArray cap) :
    (array.print text).text = text.take (cap - 1) := by
  have kept : 0 ∉ text.take (cap - 1) := fun member => free (List.mem_of_mem_take member)
  rw [CharArray.text, print, store]
  simp only [patch, List.take_zero, List.nil_append, List.append_assoc, List.singleton_append]
  exact cString_append_zero kept _

theorem text_clear (array : CharArray cap) : array.clear.text = [] := by
  rw [text, clear, store]
  simp [patch, cString]

omit positive in
theorem length_text_lt {array : CharArray cap} (terminated : array.Terminated) :
    array.text.length < cap := by
  have short : array.text.length ≤ array.bytes.length := (List.takeWhile_prefix _).length_le
  rw [array.size] at short
  refine Nat.lt_of_le_of_ne short fun same => ?_
  have whole : array.text = array.bytes :=
    (List.takeWhile_prefix _).eq_of_length (same.trans array.size.symm)
  exact cString_eq_self_iff.mp whole terminated

end CharArray

end AimeeLearning.Library
