import AimeeLearning.Bus.Ring
import AimeeLearning.Library.Machine

/-! One producer and one consumer on a shared ring, at the grain of single
atomic loads and stores and single slot bytes. Either side may begin again
without committing, as `emit` does when a frame does not encode. -/

set_option autoImplicit false

namespace AimeeLearning.Bus

open Library

/-- Where the producer is between ProduceBegin and ProduceCommit. -/
inductive ProducerPc where
  | idle
  | begun (head : UInt64)
  | filling (head : UInt64)
  | committing (head loaded : UInt64)
  deriving DecidableEq, Repr

/-- Where the consumer is between ConsumeBegin and ConsumeCommit; `reads` are
the slot bytes it has loaded so far, each with its offset in the slot. -/
inductive ConsumerPc where
  | idle
  | begun (tail : UInt64)
  | reading (tail : UInt64) (reads : List (Nat × UInt8))
  | committing (tail loaded : UInt64) (reads : List (Nat × UInt8))
  deriving DecidableEq, Repr

structure SharedRing where
  mem : Bytes
  producer : ProducerPc
  consumer : ConsumerPc
  deriving DecidableEq, Repr

inductive RingAction where
  | produceLoadHead
  | produceLoadTail
  | fill (offset : Nat) (byte : UInt8)
  | commitLoadHead
  | commitStoreHead
  | consumeLoadTail
  | consumeLoadHead
  | read (offset : Nat)
  | releaseLoadTail
  | releaseStoreTail
  deriving DecidableEq, Repr

inductive RingOutput where
  | committed (content : Bytes)
  | consumed (reads : List (Nat × UInt8))
  deriving DecidableEq, Repr

/-- One atomic access of either side. -/
def ringStep (ring : Ring) (state : SharedRing) (action : RingAction) :
    Option (SharedRing × List RingOutput) :=
  match action, state.producer, state.consumer with
  | .produceLoadHead, .idle, _ | .produceLoadHead, .filling _, _ =>
      some ({ state with producer := .begun (Ring.head state.mem) }, [])
  | .produceLoadTail, .begun head, _ =>
      if head - Ring.tail state.mem ≥ ring.capacity.toUInt64 then
        some ({ state with producer := .idle }, [])
      else some ({ state with producer := .filling head }, [])
  | .fill offset byte, .filling head, _ =>
      if offset < ring.slotSize.toNat then
        some ({ state with mem := ring.storeSlot state.mem head offset [byte] }, [])
      else none
  | .commitLoadHead, .filling head, _ =>
      some ({ state with producer := .committing head (Ring.head state.mem) }, [])
  | .commitStoreHead, .committing head loaded, _ =>
      some ({ state with mem := Ring.storeHead state.mem (loaded + 1), producer := .idle },
        [.committed (ring.slot state.mem head)])
  | .consumeLoadTail, _, .idle | .consumeLoadTail, _, .reading _ _ =>
      some ({ state with consumer := .begun (Ring.tail state.mem) }, [])
  | .consumeLoadHead, _, .begun tail =>
      if Ring.head state.mem = tail then some ({ state with consumer := .idle }, [])
      else some ({ state with consumer := .reading tail [] }, [])
  | .read offset, _, .reading tail reads =>
      match (ring.slot state.mem tail)[offset]? with
      | some byte => some ({ state with consumer := .reading tail (reads ++ [(offset, byte)]) }, [])
      | none => none
  | .releaseLoadTail, _, .reading tail reads =>
      some ({ state with consumer := .committing tail (Ring.tail state.mem) reads }, [])
  | .releaseStoreTail, _, .committing _ loaded reads =>
      some ({ state with mem := Ring.storeTail state.mem (loaded + 1), consumer := .idle },
        [.consumed reads])
  | _, _, _ => none

def ringMachine (ring : Ring) : Machine SharedRing RingAction RingOutput where
  step := ringStep ring

def SharedRing.initial (mem : Bytes) : SharedRing where
  mem := mem
  producer := .idle
  consumer := .idle

/-- The slot contents published so far, oldest first. -/
def committedOf (outputs : List RingOutput) : List Bytes :=
  outputs.filterMap fun
    | .committed content => some content
    | .consumed _ => none

/-- What the consumer read of each slot it released, oldest first. -/
def consumedOf (outputs : List RingOutput) : List (List (Nat × UInt8)) :=
  outputs.filterMap fun
    | .committed _ => none
    | .consumed reads => some reads

/-- The slot contents from the tail up to the head, oldest first. -/
def unreadSlots (ring : Ring) (mem : Bytes) : List Bytes :=
  (List.range (Ring.count mem).toNat).map fun position =>
    ring.slot mem (Ring.tail mem + UInt64.ofNat position)

/-- Everything the consumer is ever to read, in order. -/
def ringStream (ring : Ring) (mem : Bytes) (outputs : List RingOutput) : List Bytes :=
  unreadSlots ring mem ++ committedOf outputs

/-- The slot between the producer's begin and the end of its commit. -/
def SharedRing.Fills (state : SharedRing) (index : UInt64) : Prop :=
  state.producer = .filling index ∨ ∃ loaded, state.producer = .committing index loaded

/-- The slot between the consumer's begin and the end of its commit. -/
def SharedRing.Holds (state : SharedRing) (index : UInt64) (reads : List (Nat × UInt8)) : Prop :=
  state.consumer = .reading index reads ∨ ∃ loaded, state.consumer = .committing index loaded reads

/-- An index the producer published and the consumer did not release. -/
def SharedRing.Unread (state : SharedRing) (index : UInt64) : Prop :=
  (index - Ring.tail state.mem).toNat < (Ring.count state.mem).toNat

/-- Every byte read is the byte of that content at that offset. -/
def ReadsOf (reads : List (Nat × UInt8)) (content : Bytes) : Prop :=
  ∀ access ∈ reads, content[access.1]? = some access.2

theorem ReadsOf.copies {reads : List (Nat × UInt8)} {content : Bytes}
    (faithful : ReadsOf reads content)
    (whole : reads.map Prod.fst = List.range content.length) :
    reads.map Prod.snd = content := by
  have same : reads.length = content.length := by
    simpa using congrArg List.length whole
  apply List.ext_getElem (by simpa using same)
  intro position inReads inContent
  have bound : position < reads.length := by simpa using inReads
  have offset : reads[position].1 = position := by
    have := congrArg (·[position]?) whole
    simpa [bound, same ▸ bound] using this
  have value := faithful reads[position] (List.getElem_mem bound)
  rw [offset, List.getElem?_eq_getElem inContent] at value
  simpa using (Option.some.inj value).symm

theorem produceBegin_steps (ring : Ring) (state : SharedRing) (idle : state.producer = .idle) :
    (ringMachine ring).execute state [.produceLoadHead, .produceLoadTail] =
      some ({ state with
        producer := if (ring.produceBegin state.mem).isSome then .filling (Ring.head state.mem)
          else .idle }, []) := by
  by_cases full : Ring.head state.mem - Ring.tail state.mem ≥ ring.capacity.toUInt64 <;>
    simp [Machine.execute, ringMachine, ringStep, idle, Ring.produceBegin, full]

theorem consumeBegin_steps (ring : Ring) (state : SharedRing) (idle : state.consumer = .idle) :
    (ringMachine ring).execute state [.consumeLoadTail, .consumeLoadHead] =
      some ({ state with
        consumer := if (ring.consumeBegin state.mem).isSome then .reading (Ring.tail state.mem) []
          else .idle }, []) := by
  by_cases empty : Ring.head state.mem = Ring.tail state.mem
  · simp [Machine.execute, ringMachine, ringStep, idle, Ring.consumeBegin, empty]
  · simp [Machine.execute, ringMachine, ringStep, idle, Ring.consumeBegin, empty]

end AimeeLearning.Bus
