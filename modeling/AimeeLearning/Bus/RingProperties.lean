import AimeeLearning.Bus.RingInterleaving

/-! The ring is a first-in first-out channel under every interleaving of its
two sides. Counters are tracked as naturals `first + position`; the stored words
are those naturals wrapped at 64 bits, so no case distinguishes the wrap. A side
that acts on a stale index of the other only ever underestimates its room. -/

set_option autoImplicit false

namespace AimeeLearning.Bus

open Library

section Invariant

variable (ring : Ring) (first : Nat)

/-- What the producer's private loads mean; `published` slots were committed
and `released` of them were given back. -/
def ProducerOk (published released : Nat) : ProducerPc → Prop
  | .idle => True
  | .begun head => head = UInt64.ofNat (first + published)
  | .filling head =>
      head = UInt64.ofNat (first + published) ∧ published < released + ring.capacity.toNat
  | .committing head loaded =>
      head = UInt64.ofNat (first + published) ∧ published < released + ring.capacity.toNat ∧
        loaded = head

/-- What the consumer's private loads mean. -/
def ConsumerOk (stream : List Bytes) (released : Nat) : ConsumerPc → Prop
  | .idle => True
  | .begun tail => tail = UInt64.ofNat (first + released)
  | .reading tail reads =>
      tail = UInt64.ofNat (first + released) ∧
        ∃ content : Bytes, stream[released]? = some content ∧ ReadsOf reads content
  | .committing tail loaded reads =>
      tail = UInt64.ofNat (first + released) ∧ loaded = tail ∧
        ∃ content : Bytes, stream[released]? = some content ∧ ReadsOf reads content

/-- The state of a ring whose stream so far is `stream` and of which the
consumer released `consumed`. -/
structure RingInv (stream : List Bytes) (consumed : List (List (Nat × UInt8)))
    (state : SharedRing) : Prop where
  fits : ring.Fits state.mem.length
  tail : Ring.tail state.mem = UInt64.ofNat (first + consumed.length)
  head : Ring.head state.mem = UInt64.ofNat (first + stream.length)
  ordered : consumed.length ≤ stream.length
  bounded : stream.length ≤ consumed.length + ring.capacity.toNat
  unread : ∀ position : Nat, consumed.length ≤ position → position < stream.length →
    stream[position]? = some (ring.slot state.mem (UInt64.ofNat (first + position)))
  history : ∀ (position : Nat) (reads : List (Nat × UInt8)), consumed[position]? = some reads →
    ∃ content : Bytes, stream[position]? = some content ∧ ReadsOf reads content
  producer : ProducerOk ring first stream.length consumed.length state.producer
  consumer : ConsumerOk first stream consumed.length state.consumer

end Invariant

section Steps

variable {ring : Ring} {first : Nat} {stream : List Bytes}
  {consumed : List (List (Nat × UInt8))} {state : SharedRing}

theorem Ring.Fits.long {length : Nat} (fits : ring.Fits length) : ringHdrBytes ≤ length := by
  have := fits.mapped
  omega

theorem RingInv.near (valid : RingInv ring first stream consumed state) :
    first + stream.length < first + consumed.length + 2 ^ 64 := by
  have small : ring.capacity.toNat < 2 ^ 32 := ring.capacity.toNat_lt
  have := valid.bounded
  omega

theorem RingInv.count (valid : RingInv ring first stream consumed state) :
    (Ring.count state.mem).toNat = stream.length - consumed.length := by
  rw [Ring.count, valid.head, valid.tail,
    wrapped_distance (by have := valid.ordered; omega) valid.near]
  omega

theorem RingInv.room (valid : RingInv ring first stream consumed state)
    (room : ¬ UInt64.ofNat (first + stream.length) - Ring.tail state.mem ≥
      ring.capacity.toUInt64) :
    stream.length < consumed.length + ring.capacity.toNat := by
  have below := UInt64.lt_iff_toNat_lt.mp (UInt64.not_le.mp room)
  rw [valid.tail, wrapped_distance (by have := valid.ordered; omega) valid.near,
    UInt32.toNat_toUInt64] at below
  omega

theorem RingInv.nonempty (valid : RingInv ring first stream consumed state)
    (different : ¬ Ring.head state.mem = UInt64.ofNat (first + consumed.length)) :
    consumed.length < stream.length := by
  by_contra none
  have same : stream.length = consumed.length := by have := valid.ordered; omega
  exact different (by rw [valid.head, same])

theorem ConsumerOk.extend {released : Nat} {pc : ConsumerPc} (content : Bytes)
    (valid : ConsumerOk first stream released pc) :
    ConsumerOk first (stream ++ [content]) released pc := by
  cases pc with
  | idle => trivial
  | begun tail => exact valid
  | reading tail reads =>
      obtain ⟨index, old, found, faithful⟩ := valid
      exact ⟨index, old, List.getElem?_append_left (List.getElem?_eq_some_iff.mp found).1 ▸ found,
        faithful⟩
  | committing tail loaded reads =>
      obtain ⟨index, same, old, found, faithful⟩ := valid
      exact ⟨index, same, old,
        List.getElem?_append_left (List.getElem?_eq_some_iff.mp found).1 ▸ found, faithful⟩

theorem ProducerOk.release {published released : Nat} {pc : ProducerPc}
    (valid : ProducerOk ring first published released pc) :
    ProducerOk ring first published (released + 1) pc := by
  cases pc with
  | idle => trivial
  | begun head => exact valid
  | filling head => exact ⟨valid.1, by have := valid.2; omega⟩
  | committing head loaded => exact ⟨valid.1, by have := valid.2.1; omega, valid.2.2⟩

theorem RingInv.withPcs (valid : RingInv ring first stream consumed state)
    (producer : ProducerPc) (consumer : ConsumerPc)
    (produced : ProducerOk ring first stream.length consumed.length producer)
    (consumes : ConsumerOk first stream consumed.length consumer) :
    RingInv ring first stream consumed { state with producer, consumer } :=
  { valid with producer := produced, consumer := consumes }

theorem RingInv.fill (valid : RingInv ring first stream consumed state) {head : UInt64}
    (filling : state.producer = .filling head) {offset : Nat} {data : Bytes}
    (inside : offset + data.length ≤ ring.slotSize.toNat) :
    RingInv ring first stream consumed
      { state with mem := ring.storeSlot state.mem head offset data } := by
  have producer := valid.producer
  rw [filling] at producer
  obtain ⟨rfl, room⟩ := producer
  have kept : (ring.storeSlot state.mem (UInt64.ofNat (first + stream.length)) offset
      data).length = state.mem.length := Ring.length_storeSlot valid.fits inside
  refine { valid with
    fits := ?_
    tail := ?_
    head := ?_
    unread := ?_ }
  · rw [kept]; exact valid.fits
  · exact (Ring.tail_storeSlot valid.fits inside).trans valid.tail
  · exact (Ring.head_storeSlot valid.fits inside).trans valid.head
  · intro position lower upper
    rw [valid.unread position lower upper,
      Ring.slot_storeSlot_behind valid.fits inside (by omega) (by omega)]

theorem RingInv.publish (valid : RingInv ring first stream consumed state) {head loaded : UInt64}
    (committing : state.producer = .committing head loaded) :
    RingInv ring first (stream ++ [ring.slot state.mem head]) consumed
      { state with mem := Ring.storeHead state.mem (loaded + 1), producer := .idle } := by
  have producer := valid.producer
  rw [committing] at producer
  obtain ⟨rfl, room, rfl⟩ := producer
  have long := valid.fits.long
  have ordered := valid.ordered
  refine
    { fits := by rw [Ring.length_storeHead long]; exact valid.fits
      tail := by rw [Ring.tail_storeHead long]; exact valid.tail
      head := ?_
      ordered := by rw [List.length_append]; omega
      bounded := by rw [List.length_append, List.length_singleton]; omega
      unread := ?_
      history := ?_
      producer := trivial
      consumer := valid.consumer.extend _ }
  · rw [Ring.head_storeHead long, wrapped_succ, List.length_append, List.length_singleton]
    rfl
  · intro position lower upper
    rw [List.length_append, List.length_singleton] at upper
    rw [Ring.slot_storeHead valid.fits]
    by_cases old : position < stream.length
    · rw [List.getElem?_append_left old]
      exact valid.unread position lower old
    · obtain rfl : position = stream.length := by omega
      rw [List.getElem?_concat_length]
  · intro position reads member
    obtain ⟨content, found, faithful⟩ := valid.history position reads member
    exact ⟨content,
      List.getElem?_append_left (List.getElem?_eq_some_iff.mp found).1 ▸ found, faithful⟩

theorem RingInv.release (valid : RingInv ring first stream consumed state) {tail loaded : UInt64}
    {reads : List (Nat × UInt8)} (committing : state.consumer = .committing tail loaded reads) :
    RingInv ring first stream (consumed ++ [reads])
      { state with mem := Ring.storeTail state.mem (loaded + 1), consumer := .idle } := by
  have consumer := valid.consumer
  rw [committing] at consumer
  obtain ⟨rfl, rfl, content, found, faithful⟩ := consumer
  have long := valid.fits.long
  have unreleased := (List.getElem?_eq_some_iff.mp found).1
  refine
    { fits := by rw [Ring.length_storeTail long]; exact valid.fits
      tail := ?_
      head := by rw [Ring.head_storeTail long]; exact valid.head
      ordered := by rw [List.length_append, List.length_singleton]; omega
      bounded := by
        have := valid.bounded
        rw [List.length_append, List.length_singleton]; omega
      unread := ?_
      history := ?_
      producer := by
        rw [List.length_append, List.length_singleton]
        exact valid.producer.release
      consumer := trivial }
  · rw [Ring.tail_storeTail long, wrapped_succ, List.length_append, List.length_singleton]
    rfl
  · intro position lower upper
    rw [List.length_append, List.length_singleton] at lower
    rw [Ring.slot_storeTail valid.fits]
    exact valid.unread position (by omega) upper
  · intro position earlier member
    by_cases old : position < consumed.length
    · rw [List.getElem?_append_left old] at member
      exact valid.history position earlier member
    · rw [List.getElem?_append_right (by omega)] at member
      have last : position - consumed.length = 0 := by
        by_contra beyond
        rw [List.getElem?_eq_none (by simp only [List.length_singleton]; omega)] at member
        cases member
      rw [last] at member
      obtain rfl : reads = earlier := Option.some.inj member
      obtain rfl : position = consumed.length := by omega
      exact ⟨content, found, faithful⟩

theorem RingInv.read (valid : RingInv ring first stream consumed state) {tail : UInt64}
    {reads : List (Nat × UInt8)} (reading : state.consumer = .reading tail reads)
    {offset : Nat} {byte : UInt8} (loaded : (ring.slot state.mem tail)[offset]? = some byte) :
    RingInv ring first stream consumed
      { state with consumer := .reading tail (reads ++ [(offset, byte)]) } := by
  have consumer := valid.consumer
  rw [reading] at consumer
  obtain ⟨rfl, content, found, faithful⟩ := consumer
  have current := valid.unread consumed.length (Nat.le_refl _)
    (List.getElem?_eq_some_iff.mp found).1
  rw [found] at current
  obtain rfl := Option.some.inj current
  refine { valid with consumer := ⟨rfl, _, found, ?_⟩ }
  intro access member
  rcases List.mem_append.mp member with earlier | latest
  · exact faithful access earlier
  · obtain rfl := List.mem_singleton.mp latest
    exact loaded

theorem ringStep_preserves (valid : RingInv ring first stream consumed state)
    {action : RingAction} {next : SharedRing} {emitted : List RingOutput}
    (taken : ringStep ring state action = some (next, emitted)) :
    RingInv ring first (stream ++ committedOf emitted) (consumed ++ consumedOf emitted) next := by
  unfold ringStep at taken
  split at taken
  · cases taken
    simpa [committedOf, consumedOf] using
      valid.withPcs (.begun _) _ valid.head valid.consumer
  · cases taken
    simpa [committedOf, consumedOf] using
      valid.withPcs (.begun _) _ valid.head valid.consumer
  · rename_i head begun
    have producer := valid.producer
    rw [begun] at producer
    obtain rfl : head = UInt64.ofNat (first + stream.length) := producer
    split at taken
    · cases taken
      simpa [committedOf, consumedOf] using valid.withPcs .idle _ trivial valid.consumer
    · rename_i room
      cases taken
      simpa [committedOf, consumedOf] using
        valid.withPcs (.filling _) _ ⟨rfl, valid.room room⟩ valid.consumer
  · rename_i filling
    split at taken
    · rename_i inside
      cases taken
      simpa [committedOf, consumedOf] using
        @RingInv.fill _ _ _ _ _ valid _ filling _ [_] inside
    · cases taken
  · rename_i head filling
    cases taken
    have producer := valid.producer
    rw [filling] at producer
    simpa [committedOf, consumedOf] using
      valid.withPcs (.committing head (Ring.head state.mem)) _
        ⟨producer.1, producer.2, by rw [producer.1]; exact valid.head⟩ valid.consumer
  · rename_i committing
    cases taken
    simpa [committedOf, consumedOf] using valid.publish committing
  · cases taken
    simpa [committedOf, consumedOf] using
      valid.withPcs _ (.begun _) valid.producer valid.tail
  · cases taken
    simpa [committedOf, consumedOf] using
      valid.withPcs _ (.begun _) valid.producer valid.tail
  · rename_i tail begun
    have consumer := valid.consumer
    rw [begun] at consumer
    obtain rfl : tail = UInt64.ofNat (first + consumed.length) := consumer
    split at taken
    · cases taken
      simpa [committedOf, consumedOf] using valid.withPcs _ .idle valid.producer trivial
    · rename_i different
      cases taken
      have nonempty := valid.nonempty different
      simpa [committedOf, consumedOf] using
        valid.withPcs _ (.reading _ []) valid.producer
          ⟨rfl, _, List.getElem?_eq_getElem nonempty, by intro access member; cases member⟩
  · rename_i reading
    split at taken
    · rename_i loaded
      cases taken
      simpa [committedOf, consumedOf] using valid.read reading loaded
    · cases taken
  · rename_i tail reads reading
    cases taken
    have consumer := valid.consumer
    rw [reading] at consumer
    simpa [committedOf, consumedOf] using
      valid.withPcs _ (.committing tail (Ring.tail state.mem) reads) valid.producer
        ⟨consumer.1, by rw [consumer.1]; exact valid.tail, consumer.2⟩
  · rename_i committing
    cases taken
    simpa [committedOf, consumedOf] using valid.release committing
  · cases taken

end Steps

theorem ringInv_initial {mem : Bytes} {ring : Ring} (attached : attachRing mem = .ok ring) :
    RingInv ring (Ring.tail mem).toNat (unreadSlots ring mem) [] (.initial mem) := by
  obtain ⟨fits, -, occupied⟩ := attachRing_fits attached
  have size : (unreadSlots ring mem).length = (Ring.count mem).toNat := by
    simp [unreadSlots]
  refine
    { fits := fits
      tail := by simp [SharedRing.initial]
      head := ?_
      ordered := Nat.zero_le _
      bounded := by rw [size]; simpa using occupied
      unread := ?_
      history := by intro position reads member; simp at member
      producer := trivial
      consumer := trivial }
  · rw [size]
    have := wrapped_of_distance (Ring.head mem) (Ring.tail mem).toNat
    rwa [UInt64.ofNat_toNat] at this
  · intro position _ upper
    have bound : position < (Ring.count mem).toNat := size ▸ upper
    simp [unreadSlots, bound, SharedRing.initial, UInt64.ofNat_add]

theorem committedOf_append (left right : List RingOutput) :
    committedOf (left ++ right) = committedOf left ++ committedOf right := by
  simp [committedOf]

theorem consumedOf_append (left right : List RingOutput) :
    consumedOf (left ++ right) = consumedOf left ++ consumedOf right := by
  simp [consumedOf]

theorem ringInv_run {mem : Bytes} {ring : Ring} (attached : attachRing mem = .ok ring)
    {actions : List RingAction} {state : SharedRing} {outputs : List RingOutput}
    (run : (ringMachine ring).Run (.initial mem) actions state outputs) :
    RingInv ring (Ring.tail mem).toNat (ringStream ring mem outputs) (consumedOf outputs) state := by
  refine run.invariant (fun _ state outputs =>
    RingInv ring (Ring.tail mem).toNat (ringStream ring mem outputs) (consumedOf outputs) state) ?_ ?_
  · simpa [ringStream, committedOf, consumedOf] using ringInv_initial attached
  · intro actions state outputs action next emitted _ valid taken
    rw [ringStream, committedOf_append, ← List.append_assoc, consumedOf_append]
    exact ringStep_preserves valid taken

/-- First in, first out, as seen from outside after a history from `mem`. -/
structure RingFifo (ring : Ring) (mem : Bytes) (state : SharedRing)
    (outputs : List RingOutput) : Prop where
  /-- The modular count of occupied slots never leaves `[0, capacity]`. -/
  occupied : (Ring.count state.mem).toNat ≤ ring.capacity.toNat
  /-- The slot being filled shares no byte with an unread or a held slot. -/
  exclusive : ∀ filled other reads, state.Fills filled →
    state.Unread other ∨ state.Holds other reads →
    ring.slotOffset other + ring.slotSize.toNat ≤ ring.slotOffset filled ∨
      ring.slotOffset filled + ring.slotSize.toNat ≤ ring.slotOffset other
  /-- Released slots were read in stream order, byte for byte. -/
  inOrder : ∀ (position : Nat) (reads : List (Nat × UInt8)),
    (consumedOf outputs)[position]? = some reads →
    ∃ content : Bytes, (ringStream ring mem outputs)[position]? = some content ∧
      ReadsOf reads content ∧
      (reads.map Prod.fst = List.range content.length → reads.map Prod.snd = content)
  /-- The held slot is the next of the stream, and is being read untorn. -/
  untorn : ∀ held reads, state.Holds held reads →
    ∃ content : Bytes, (ringStream ring mem outputs)[(consumedOf outputs).length]? = some content ∧
      ReadsOf reads content
  /-- What was not released yet is still in the ring, in order. -/
  remaining : (ringStream ring mem outputs).drop (consumedOf outputs).length =
    unreadSlots ring state.mem

section Fifo

variable {ring : Ring} {first : Nat} {stream : List Bytes}
  {consumed : List (List (Nat × UInt8))} {state : SharedRing}

theorem RingInv.fills (valid : RingInv ring first stream consumed state) {index : UInt64}
    (fills : state.Fills index) :
    index = UInt64.ofNat (first + stream.length) ∧
      stream.length < consumed.length + ring.capacity.toNat := by
  have producer := valid.producer
  rcases fills with filling | ⟨loaded, committing⟩
  · rw [filling] at producer
    exact producer
  · rw [committing] at producer
    exact ⟨producer.1, producer.2.1⟩

theorem RingInv.holds (valid : RingInv ring first stream consumed state) {index : UInt64}
    {reads : List (Nat × UInt8)} (holds : state.Holds index reads) :
    index = UInt64.ofNat (first + consumed.length) ∧
      ∃ content : Bytes, stream[consumed.length]? = some content ∧ ReadsOf reads content := by
  have consumer := valid.consumer
  rcases holds with reading | ⟨loaded, committing⟩
  · rw [reading] at consumer
    exact consumer
  · rw [committing] at consumer
    exact ⟨consumer.1, consumer.2.2⟩

theorem RingInv.position (valid : RingInv ring first stream consumed state) {index : UInt64}
    {reads : List (Nat × UInt8)} (owned : state.Unread index ∨ state.Holds index reads) :
    ∃ position, index = UInt64.ofNat (first + position) ∧
      consumed.length ≤ position ∧ position < stream.length := by
  rcases owned with unread | holds
  · have distance := wrapped_of_distance index (first + consumed.length)
    unfold SharedRing.Unread at unread
    rw [valid.count, valid.tail] at unread
    refine ⟨consumed.length + (index - UInt64.ofNat (first + consumed.length)).toNat, ?_, ?_, ?_⟩
    · rw [← Nat.add_assoc]
      exact distance
    · omega
    · omega
  · obtain ⟨same, content, found, -⟩ := valid.holds holds
    exact ⟨consumed.length, same, Nat.le_refl _, (List.getElem?_eq_some_iff.mp found).1⟩

theorem RingInv.unreadSlots (valid : RingInv ring first stream consumed state) :
    stream.drop consumed.length = unreadSlots ring state.mem := by
  apply List.ext_getElem?
  intro offset
  rw [List.getElem?_drop]
  by_cases within : consumed.length + offset < stream.length
  · have bound : offset < (Ring.count state.mem).toNat := by rw [valid.count]; omega
    rw [valid.unread _ (by omega) within]
    simp [Bus.unreadSlots, bound, valid.tail, UInt64.ofNat_add, UInt64.add_assoc]
  · have bound : ¬ offset < (Ring.count state.mem).toNat := by rw [valid.count]; omega
    rw [List.getElem?_eq_none (by omega), List.getElem?_eq_none]
    simpa [Bus.unreadSlots] using bound

end Fifo

/-- Every interleaving of the atomic accesses of one producer and one consumer
on an attached ring is a first-in first-out channel, whatever the capacity, the
slot size and the starting indices. -/
theorem ring_fifo {mem : Bytes} {ring : Ring} (attached : attachRing mem = .ok ring)
    {actions : List RingAction} {state : SharedRing} {outputs : List RingOutput}
    (run : (ringMachine ring).Run (.initial mem) actions state outputs) :
    RingFifo ring mem state outputs := by
  have valid := ringInv_run attached run
  refine
    { occupied := ?_
      exclusive := ?_
      inOrder := ?_
      untorn := fun _ _ holds => (valid.holds holds).2
      remaining := valid.unreadSlots }
  · have := valid.bounded
    rw [valid.count]
    omega
  · intro filled other reads fills owned
    obtain ⟨rfl, room⟩ := valid.fills fills
    obtain ⟨position, rfl, lower, upper⟩ := valid.position owned
    exact Ring.slot_disjoint valid.fits (by omega) (by omega)
  · intro position reads member
    obtain ⟨content, found, faithful⟩ := valid.history position reads member
    exact ⟨content, found, faithful, faithful.copies⟩

/-- A ring of two one-byte slots whose counters are about to wrap. -/
def wrappingRing : Bytes :=
  uint32Bytes ringMagic ++ uint32Bytes 1 ++ uint32Bytes 2 ++ uint32Bytes 1 ++ uint32Bytes 192 ++
    List.replicate 44 0 ++ uint64Bytes (0 - 1) ++ List.replicate 56 0 ++ uint64Bytes (0 - 1) ++
    List.replicate 56 0 ++ [0, 0]

/-- One slot sent and received while both counters wrap past `2 ^ 64`. -/
theorem ring_fifo_wrapping :
    ∃ state, (ringMachine ⟨1, 2, 1, 192⟩).Run (.initial wrappingRing)
        [.produceLoadHead, .produceLoadTail, .fill 0 7, .commitLoadHead, .consumeLoadTail,
          .commitStoreHead, .consumeLoadHead, .read 0, .releaseLoadTail, .releaseStoreTail]
        state [.committed [7], .consumed [(0, 7)]] ∧
      RingFifo ⟨1, 2, 1, 192⟩ wrappingRing state [.committed [7], .consumed [(0, 7)]] := by
  have attached : attachRing wrappingRing = .ok ⟨1, 2, 1, 192⟩ := by decide +kernel
  have executed : ((ringMachine ⟨1, 2, 1, 192⟩).execute (.initial wrappingRing)
      [.produceLoadHead, .produceLoadTail, .fill 0 7, .commitLoadHead, .consumeLoadTail,
        .commitStoreHead, .consumeLoadHead, .read 0, .releaseLoadTail, .releaseStoreTail]).map
        Prod.snd = some [.committed [7], .consumed [(0, 7)]] := by decide +kernel
  obtain ⟨⟨state, outputs⟩, ran, rfl⟩ := Option.map_eq_some_iff.mp executed
  have run := Machine.run_of_execute ran
  exact ⟨state, run, ring_fifo attached run⟩

end AimeeLearning.Bus
