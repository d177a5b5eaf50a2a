import AimeeLearning.Bus.Attach
import AimeeLearning.Library.Machine
import Mathlib

/-! The byte ranges of an accepted queue pair. The two offsets come from the
shared header and each extent from a ring header that is validated on its own,
against the end of the region and not against the other ring. -/

set_option autoImplicit false

namespace AimeeLearning.Bus

open Library

section Ranges

def Ring.extent (ring : Ring) : Nat := ringHdrBytes + ring.slotSize.toNat * ring.capacity.toNat

namespace QueuePair

def headerBytes : Set Nat := Set.Ico 0 qpBytes

/-- The header and all slots of the inbound ring, as bytes of the region. -/
def inboundBytes (pair : QueuePair) : Set Nat :=
  Set.Ico pair.inOff (pair.inOff + pair.inbound.extent)

def outboundBytes (pair : QueuePair) : Set Nat :=
  Set.Ico pair.outOff (pair.outOff + pair.outbound.extent)

end QueuePair

/-- The extent of the ring whose header stands at `base`, from its own words. -/
def ringSpan (mem : Bytes) (base : Nat) : Nat :=
  ringHdrBytes + (uint32At mem (base + ringOffSlot)).toNat * (uint32At mem (base + ringOffCap)).toNat

def inboundBase (mem : Bytes) : Nat := (uint32At mem qpOffInboundOff).toNat

def outboundBase (mem : Bytes) : Nat := (uint32At mem qpOffOutboundOff).toNat

/-- The six words of a region that place its rings: both behind the header, and
one of them ending where the other starts or before. -/
structure RingsPlaced (mem : Bytes) : Prop where
  inbound : qpBytes ≤ inboundBase mem
  outbound : qpBytes ≤ outboundBase mem
  ordered : inboundBase mem + ringSpan mem (inboundBase mem) ≤ outboundBase mem ∨
    outboundBase mem + ringSpan mem (outboundBase mem) ≤ inboundBase mem

theorem ringsPlaced_iff {mem : Bytes} : RingsPlaced mem ↔
    qpBytes ≤ inboundBase mem ∧ qpBytes ≤ outboundBase mem ∧
      (inboundBase mem + ringSpan mem (inboundBase mem) ≤ outboundBase mem ∨
        outboundBase mem + ringSpan mem (outboundBase mem) ≤ inboundBase mem) :=
  ⟨fun placed => ⟨placed.inbound, placed.outbound, placed.ordered⟩,
    fun ⟨inbound, outbound, ordered⟩ => ⟨inbound, outbound, ordered⟩⟩

instance (mem : Bytes) : Decidable (RingsPlaced mem) := decidable_of_iff _ ringsPlaced_iff.symm

end Ranges

section Writer

/-- What the client does to its region on its sending side. A slot that
ProduceBegin handed out may be written at any time after. -/
inductive PairWrite where
  | produceBegin
  | writeSlot (slot offset : Nat) (data : Bytes)
  | produceCommit
  | setHeartbeat (now : UInt64)

/-- The region, and where the slots handed out so far start in it. -/
structure PairWriter where
  mem : Bytes
  slots : List Nat

/-- The region after an operation on the outbound ring. -/
def QueuePair.onOutbound (pair : QueuePair) (operation : Bytes → Bytes) (mem : Bytes) : Bytes :=
  mem.take pair.outOff ++ operation (mem.drop pair.outOff)

/-- A write outside a slot that was handed out is no step: the slice ends there. -/
def pairWriter (pair : QueuePair) : Machine PairWriter PairWrite Unit where
  step writer action :=
    match action with
    | .produceBegin =>
        match pair.outbound.produceBegin (writer.mem.drop pair.outOff) with
        | none => some (writer, [])
        | some offset => some ({ writer with slots := (pair.outOff + offset) :: writer.slots }, [])
    | .writeSlot slot offset data =>
        if slot ∈ writer.slots ∧ offset + data.length ≤ pair.outbound.slotSize.toNat then
          some ({ writer with mem := patch writer.mem (slot + offset) data }, [])
        else none
    | .produceCommit => some ({ writer with mem := pair.onOutbound Ring.produceCommit writer.mem }, [])
    | .setHeartbeat now => some ({ writer with mem := QueuePair.setHeartbeat writer.mem now }, [])

end Writer

/-- The rings and the header share no byte and lie in the region, and whatever
the region holds later, no run of the writer changes a byte of the inbound ring. -/
structure QueuePair.RingsApart (pair : QueuePair) : Prop where
  inside : headerBytes ∪ pair.inboundBytes ∪ pair.outboundBytes ⊆ Set.Iio pair.mem.length
  rings : Disjoint pair.inboundBytes pair.outboundBytes
  inbound : Disjoint headerBytes pair.inboundBytes
  outbound : Disjoint headerBytes pair.outboundBytes
  kept : ∀ (mem : Bytes) (writes : List PairWrite) (later : PairWriter) (outputs : List Unit),
    mem.length = pair.mem.length → (pairWriter pair).Run ⟨mem, []⟩ writes later outputs →
      ∀ byte ∈ pair.inboundBytes, later.mem[byte]? = mem[byte]?

section Frame

variable {mem start : Bytes} {pair : QueuePair} {ring : Ring} {base : Nat}

theorem uint32At_drop (mem : Bytes) (base offset : Nat) :
    uint32At (mem.drop base) offset = uint32At mem (base + offset) := by
  rw [uint32At, window_drop, uint32At]

theorem attachRing_span (attached : attachRing (mem.drop base) = .ok ring) :
    ring.extent = ringSpan mem base ∧ base + ring.extent ≤ mem.length := by
  obtain ⟨fits, fields, -⟩ := attachRing_fits attached
  have mapped := fits.mapped
  rw [List.length_drop] at mapped
  refine ⟨?_, ?_⟩
  · rw [Ring.extent, ringSpan, ← uint32At_drop, ← uint32At_drop, fields]
    rfl
  · rw [Ring.extent]
    unfold ringHdrBytes at mapped ⊢
    omega

theorem QueuePair.onOutbound_commit (pair : QueuePair) (mem : Bytes) :
    pair.onOutbound Ring.produceCommit mem =
      patch mem (pair.outOff + ringOffHead)
        (uint64Bytes (Ring.head (mem.drop pair.outOff) + 1)) := by
  rw [onOutbound, Ring.produceCommit, Ring.storeHead, patch_drop]

/-- What the writer has changed lies in the header or in the outbound ring. -/
structure WriterKeeps (pair : QueuePair) (start : Bytes) (writer : PairWriter) : Prop where
  size : writer.mem.length = start.length
  slots : ∀ slot ∈ writer.slots, pair.outOff ≤ slot ∧
    slot + pair.outbound.slotSize.toNat ≤ pair.outOff + pair.outbound.extent
  bytes : ∀ byte, byte ∉ QueuePair.headerBytes → byte ∉ pair.outboundBytes →
    writer.mem[byte]? = start[byte]?

theorem WriterKeeps.patched {writer : PairWriter} {offset : Nat} {data : Bytes}
    (keeps : WriterKeeps pair start writer) (fits : offset + data.length ≤ start.length)
    (owned : ∀ byte, offset ≤ byte → byte < offset + data.length →
      byte ∈ QueuePair.headerBytes ∨ byte ∈ pair.outboundBytes) :
    WriterKeeps pair start { writer with mem := patch writer.mem offset data } where
  size := (length_patch (keeps.size.symm ▸ fits)).trans keeps.size
  slots := keeps.slots
  bytes byte header outbound := by
    have outside : byte < offset ∨ offset + data.length ≤ byte := by
      by_contra within
      exact (owned byte (by omega) (by omega)).elim header outbound
    rw [← keeps.bytes byte header outbound]
    exact getElem?_patch_outside (keeps.size.symm ▸ fits) outside

theorem WriterKeeps.step {writer next : PairWriter} {write : PairWrite} {outputs : List Unit}
    (header : qpBytes ≤ start.length) (fits : pair.outbound.Fits (start.length - pair.outOff))
    (keeps : WriterKeeps pair start writer)
    (taken : (pairWriter pair).step writer write = some (next, outputs)) :
    WriterKeeps pair start next := by
  have mapped := fits.mapped
  have region : pair.outOff + pair.outbound.extent ≤ start.length := by
    have nonempty : 0 < ringHdrBytes := by decide
    rw [Ring.extent]
    omega
  cases write with
  | produceBegin =>
      simp only [pairWriter] at taken
      split at taken
      · obtain ⟨rfl, -⟩ := Prod.mk.inj (Option.some.inj taken)
        exact keeps
      · rename_i offset begun
        obtain ⟨rfl, -⟩ := Prod.mk.inj (Option.some.inj taken)
        refine ⟨keeps.size, fun slot handed => ?_, keeps.bytes⟩
        rcases List.mem_cons.mp handed with rfl | earlier
        · have inside := Ring.cell_end_le fits (Ring.head (writer.mem.drop pair.outOff)).toNat
          have place := Ring.slotOffset_wrapped fits (Ring.head (writer.mem.drop pair.outOff)).toNat
          rw [UInt64.ofNat_toNat, ← Ring.produceBegin_offset begun] at place
          rw [Ring.extent]
          omega
        · exact keeps.slots slot earlier
  | writeSlot slot offset data =>
      simp only [pairWriter] at taken
      split at taken
      · rename_i allowed
        obtain ⟨rfl, -⟩ := Prod.mk.inj (Option.some.inj taken)
        have handed := keeps.slots slot allowed.1
        refine keeps.patched (by omega) fun byte lower upper => .inr ⟨?_, ?_⟩
        · omega
        · omega
      · cases taken
  | produceCommit =>
      obtain ⟨rfl, -⟩ := Prod.mk.inj (Option.some.inj taken)
      rw [QueuePair.onOutbound_commit]
      have words : ringOffHead + 8 ≤ pair.outbound.extent := by
        unfold Ring.extent ringHdrBytes ringOffHead
        omega
      refine keeps.patched ?_ fun byte lower upper => .inr ⟨by omega, ?_⟩
      · rw [length_uint64Bytes]
        omega
      · rw [length_uint64Bytes] at upper
        omega
  | setHeartbeat now =>
      obtain ⟨rfl, -⟩ := Prod.mk.inj (Option.some.inj taken)
      have word : qpOffHeartbeat + 8 ≤ qpBytes := by decide
      refine keeps.patched ?_ fun byte lower upper => .inl ⟨Nat.zero_le _, ?_⟩
      · rw [length_uint64Bytes]
        omega
      · rw [length_uint64Bytes] at upper
        omega

theorem WriterKeeps.run {writes : List PairWrite} {later : PairWriter} {outputs : List Unit}
    (header : qpBytes ≤ start.length) (fits : pair.outbound.Fits (start.length - pair.outOff))
    (run : (pairWriter pair).Run ⟨start, []⟩ writes later outputs) :
    WriterKeeps pair start later := by
  refine run.invariant (fun _ state _ => WriterKeeps pair start state) ?_ ?_
  · exact ⟨rfl, nofun, fun _ _ _ => rfl⟩
  · intro _ _ _ _ _ _ _ keeps taken
    exact keeps.step header fits taken

end Frame

theorem ringSpan_pos (mem : Bytes) (base : Nat) : 0 < ringSpan mem base :=
  Nat.add_pos_left (by decide) _

/-- An accepted queue pair keeps its rings apart exactly when the six words of
the region that place them do; nothing in the attach compares them. -/
theorem attachQueuePair_apart_iff {mem : Bytes} {pair : QueuePair}
    (accepted : attachQueuePair mem = .ok pair) : pair.RingsApart ↔ RingsPlaced mem := by
  obtain ⟨region, inOff, outOff, header, inbound, outbound⟩ := attachQueuePair_ok accepted
  rw [show (uint32At mem qpOffInboundOff).toNat = inboundBase mem from rfl] at inOff
  rw [show (uint32At mem qpOffOutboundOff).toNat = outboundBase mem from rfl] at outOff
  obtain ⟨inSpan, inEnd⟩ := attachRing_span inbound
  obtain ⟨outSpan, outEnd⟩ := attachRing_span outbound
  have inWide : 0 < pair.inbound.extent := inSpan ▸ ringSpan_pos mem pair.inOff
  have outWide : 0 < pair.outbound.extent := outSpan ▸ ringSpan_pos mem pair.outOff
  have headerWide : 0 < qpBytes := by decide
  constructor
  · rintro ⟨-, rings, inbound, outbound, -⟩
    rw [QueuePair.inboundBytes, QueuePair.outboundBytes, Set.Ico_disjoint_Ico] at rings
    rw [QueuePair.headerBytes, QueuePair.inboundBytes, Set.Ico_disjoint_Ico] at inbound
    rw [QueuePair.headerBytes, QueuePair.outboundBytes, Set.Ico_disjoint_Ico] at outbound
    refine ⟨?_, ?_, ?_⟩
    · rw [← inOff]
      omega
    · rw [← outOff]
      omega
    · rw [← inOff, ← outOff, ← inSpan, ← outSpan]
      omega
  · rintro ⟨inBehind, outBehind, ordered⟩
    rw [← inOff] at inBehind
    rw [← outOff] at outBehind
    rw [← inOff, ← outOff, ← inSpan, ← outSpan] at ordered
    have rings : Disjoint pair.inboundBytes pair.outboundBytes := by
      rw [QueuePair.inboundBytes, QueuePair.outboundBytes, Set.Ico_disjoint_Ico]
      omega
    have behind : Disjoint QueuePair.headerBytes pair.inboundBytes := by
      rw [QueuePair.headerBytes, QueuePair.inboundBytes, Set.Ico_disjoint_Ico]
      omega
    refine ⟨?_, rings, behind, ?_, ?_⟩
    · rintro byte ((inHeader | inInbound) | inOutbound)
      · exact region ▸ inHeader.2.trans_le header
      · exact region ▸ inInbound.2.trans_le inEnd
      · exact region ▸ inOutbound.2.trans_le outEnd
    · rw [QueuePair.headerBytes, QueuePair.outboundBytes, Set.Ico_disjoint_Ico]
      omega
    · intro start writes later outputs same run byte member
      rw [region] at same
      have fits := (attachRing_fits outbound).1
      rw [List.length_drop, ← same] at fits
      have keeps := WriterKeeps.run (same.symm ▸ header) fits run
      exact keeps.bytes byte (fun inHeader => Set.disjoint_left.mp behind inHeader member)
        (Set.disjoint_left.mp rings member)

def ringHeader (slotSize capacity : UInt32) : Bytes :=
  uint32Bytes ringMagic ++ uint32Bytes slotSize ++ uint32Bytes capacity ++
    uint32Bytes (capacity - 1) ++ uint32Bytes 192

/-- An otherwise empty region with two rings of two slots. -/
def pairRegion (length : Nat) (inOff outOff inSlot outSlot : UInt32) : Bytes :=
  let header := patch (List.replicate length 0) 0 (uint32Bytes qpMagic)
  let offsets := patch header qpOffInboundOff (uint32Bytes inOff ++ uint32Bytes outOff)
  patch (patch offsets inOff.toNat (ringHeader inSlot 2)) outOff.toNat (ringHeader outSlot 2)

def regionPair (length : Nat) (inOff outOff inSlot outSlot : UInt32) : QueuePair :=
  { mem := pairRegion length inOff outOff inSlot outSlot
    inOff := inOff.toNat
    outOff := outOff.toNat
    inbound := ⟨inSlot, 2, 1, 192⟩
    outbound := ⟨outSlot, 2, 1, 192⟩ }

/-- The outbound ring behind the inbound one. -/
theorem attachQueuePair_apart : (regionPair 496 96 296 4 4).RingsApart := by
  have accepted : attachQueuePair (pairRegion 496 96 296 4 4) = .ok (regionPair 496 96 296 4 4) := by
    decide +kernel
  exact (attachQueuePair_apart_iff accepted).mpr (by decide +kernel)

/-- The whole outbound ring inside the slots of the inbound one: a commit on it
counts up a word of an inbound slot. -/
theorem attachQueuePair_overlaps :
    attachQueuePair (pairRegion 544 96 288 128 1) = .ok (regionPair 544 96 288 128 1) ∧
      ¬ (regionPair 544 96 288 128 1).RingsApart := by
  refine ⟨by decide +kernel, fun apart => ?_⟩
  have kept := apart.kept (pairRegion 544 96 288 128 1) [.produceBegin, .produceCommit] _ _ rfl
    (.snoc (.snoc .nil rfl) rfl) (288 + ringOffHead) ⟨by decide, by decide⟩
  revert kept
  decide +kernel

end AimeeLearning.Bus
