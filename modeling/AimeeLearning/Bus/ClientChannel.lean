import AimeeLearning.Bus.ClientRelay
import AimeeLearning.Bus.RingProperties

/-! Two clients on one ring: the calls of the sender and the Polls of the
receiver, cut at their atomic accesses to the shared bytes. A slot is filled in
one action because nobody else may look at it before its commit. A foreign
producer on the sender's side may commit slots that do not decode. -/

set_option autoImplicit false

namespace AimeeLearning.Bus

open Library

/-- A call that publishes on the outbound ring. -/
inductive SendCall where
  | publish (kind : UInt32) (payload : Bytes)
  | requestFragment (kind : UInt32) (corr : UInt64) (payload : Bytes) (more : Bool)
  | replyFragment (kind : UInt32) (corr : UInt64) (payload : Bytes) (more : Bool)
  | cancel (kind : UInt32) (corr : UInt64)
  deriving DecidableEq, Repr

namespace SendCall

def kind : SendCall → UInt32
  | .publish kind _ | .requestFragment kind _ _ _ | .replyFragment kind _ _ _ | .cancel kind _ => kind

def correlation : SendCall → UInt64
  | .publish _ _ => 0
  | .requestFragment _ corr _ _ | .replyFragment _ corr _ _ | .cancel _ corr => corr

def payload : SendCall → Bytes
  | .publish _ payload | .requestFragment _ _ payload _ | .replyFragment _ _ payload _ => payload
  | .cancel _ _ => []

def pattern : SendCall → UInt16
  | .publish _ _ => fNotification
  | .requestFragment _ _ _ _ => fRequest
  | .replyFragment _ _ _ _ => fReply
  | .cancel _ _ => fCancel

def more : SendCall → Bool
  | .requestFragment _ _ _ more | .replyFragment _ _ _ more => more
  | .publish _ _ | .cancel _ _ => false

/-- The argument checks made before `emit`. -/
def fault : SendCall → Bool
  | .publish _ _ => false
  | .requestFragment _ corr payload more | .replyFragment _ corr payload more =>
      Client.fragmentFault corr payload more
  | .cancel _ corr => corr == 0

/-- The header flags handed to `emit`. -/
def flags (call : SendCall) : UInt16 := Client.fragmentFlags call.pattern call.more

/-- The event a peer is to receive. -/
def event (call : SendCall) (sender : Client) : Event :=
  sender.sentEvent call.flags call.kind call.correlation call.payload

end SendCall

/-- The whole call, uninterrupted. -/
def Client.send (client : Client) (epoch : UInt64) (mem : Bytes) :
    SendCall → Except BusError Unit × Bytes
  | .publish kind payload => client.publish epoch mem kind payload
  | .requestFragment kind corr payload more =>
      client.requestFragment epoch mem kind corr payload more
  | .replyFragment kind corr payload more => client.replyFragment epoch mem kind corr payload more
  | .cancel kind corr => client.cancel epoch mem kind corr

theorem Client.send_eq (client : Client) (epoch : UInt64) (mem : Bytes) (call : SendCall) :
    client.send epoch mem call =
      if call.fault then (.error .errProtocol, mem)
      else client.emit epoch mem call.flags call.kind call.correlation call.payload := by
  cases call <;> rfl

/-- What the producing side of the ring commits. -/
inductive Commit where
  | send (call : SendCall)
  | foreign (content : Bytes)
  deriving DecidableEq, Repr

/-- The bytes of the slot once it is filled. -/
def Commit.fill (sender : Client) (slot : Bytes) : Commit → Except BusError Bytes
  | .send call =>
      Client.fillSlot (sender.frame call.flags call.kind call.correlation call.payload)
        call.payload slot
  | .foreign content => .ok content

/-- Where a publishing call is. -/
inductive SenderPc where
  | idle
  | entered (what : Commit)
  | begun (what : Commit) (head : UInt64)
  | filling (what : Commit) (head : UInt64)
  | filled (what : Commit) (head : UInt64)
  | committing (what : Commit) (head loaded : UInt64)
  deriving DecidableEq, Repr

/-- Where a Poll is. -/
inductive ReceiverPc where
  | idle
  | entered
  | releasing (loaded : UInt64)
  | looking
  | begun (tail : UInt64)
  | reading (tail : UInt64)
  | spoiled
  | skipping (loaded : UInt64)
  deriving DecidableEq, Repr

structure Channel where
  mem : Bytes
  sender : SenderPc
  receiver : ReceiverPc
  pendingRead : Bool
  deriving DecidableEq, Repr

inductive ChannelAction where
  /-- Enter a call: its argument checks and those of `emit` before the ring. -/
  | send (epoch : UInt64) (call : SendCall)
  /-- A foreign producer begins to commit a slot. -/
  | intrude (content : Bytes)
  | produceLoadHead
  | produceLoadTail
  | fill
  | commitLoadHead
  | commitStoreHead
  | poll (epoch : UInt64)
  | releaseLoadTail
  | releaseStoreTail
  | consumeLoadTail
  | consumeLoadHead
  | read
  | skipLoadTail
  | skipStoreTail
  deriving DecidableEq, Repr

inductive ChannelOutput where
  | committed (what : Commit)
  | refused (call : SendCall) (failure : BusError)
  | skipped
  | polled (outcome : Client.PollOutcome)
  deriving DecidableEq, Repr

/-- A call that ends with an error. -/
def Commit.refused (failure : BusError) : Commit → List ChannelOutput
  | .send call => [.refused call failure]
  | .foreign _ => []

def senderStep (sender : Client) (state : Channel) :
    ChannelAction → SenderPc → Option (Channel × List ChannelOutput)
  | .send epoch call, .idle =>
      if call.fault then some (state, [.refused call .errProtocol])
      else
        match sender.admits epoch call.payload with
        | .error failure => some (state, [.refused call failure])
        | .ok () => some ({ state with sender := .entered (.send call) }, [])
  | .intrude content, .idle =>
      if content.length = sender.outbound.slotSize.toNat ∧ (decode content {}).1 ≠ .ok then
        some ({ state with sender := .entered (.foreign content) }, [])
      else none
  | .produceLoadHead, .entered what =>
      some ({ state with sender := .begun what (Ring.head state.mem) }, [])
  | .produceLoadTail, .begun what head =>
      if head - Ring.tail state.mem ≥ sender.outbound.capacity.toUInt64 then
        some ({ state with sender := .idle }, what.refused .errWouldBlock)
      else some ({ state with sender := .filling what head }, [])
  | .fill, .filling what head =>
      match what.fill sender (sender.outbound.slot state.mem head) with
      | .error failure => some ({ state with sender := .idle }, what.refused failure)
      | .ok content =>
          some ({ state with
            mem := patch state.mem (sender.outbound.slotOffset head) content
            sender := .filled what head }, [])
  | .commitLoadHead, .filled what head =>
      some ({ state with sender := .committing what head (Ring.head state.mem) }, [])
  | .commitStoreHead, .committing what _ loaded =>
      some ({ state with mem := Ring.storeHead state.mem (loaded + 1), sender := .idle },
        [.committed what])
  | _, _ => none

def receiverStep (receiver : Client) (state : Channel) :
    ChannelAction → ReceiverPc → Option (Channel × List ChannelOutput)
  | .poll epoch, .idle =>
      if !receiver.control then some (state, [.polled (.failed .errProtocol)])
      else if receiver.epochChanged epoch then some (state, [.polled (.failed .errEpoch)])
      else some ({ state with receiver := if state.pendingRead then .entered else .looking }, [])
  | .releaseLoadTail, .entered =>
      some ({ state with receiver := .releasing (Ring.tail state.mem) }, [])
  | .releaseStoreTail, .releasing loaded =>
      some ({ state with
        mem := Ring.storeTail state.mem (loaded + 1), receiver := .looking, pendingRead := false }, [])
  | .consumeLoadTail, .looking =>
      some ({ state with receiver := .begun (Ring.tail state.mem) }, [])
  | .consumeLoadHead, .begun tail =>
      if Ring.head state.mem = tail then
        some ({ state with receiver := .idle }, [.polled .empty])
      else some ({ state with receiver := .reading tail }, [])
  | .read, .reading tail =>
      match receiver.readSlot state.mem (receiver.inbound.slotOffset tail) with
      | .empty => some ({ state with receiver := .spoiled }, [])
      | outcome => some ({ state with receiver := .idle, pendingRead := true }, [.polled outcome])
  | .skipLoadTail, .spoiled =>
      some ({ state with receiver := .skipping (Ring.tail state.mem) }, [])
  | .skipStoreTail, .skipping loaded =>
      some ({ state with mem := Ring.storeTail state.mem (loaded + 1), receiver := .idle },
        [.skipped, .polled .empty])
  | _, _ => none

section ReceiverSteps

variable (receiver : Client) (state : Channel) (loaded tail : UInt64)

@[simp] theorem receiverStep_poll (epoch : UInt64) :
    receiverStep receiver state (.poll epoch) .idle =
      if !receiver.control then some (state, [.polled (.failed .errProtocol)])
      else if receiver.epochChanged epoch then some (state, [.polled (.failed .errEpoch)])
      else some ({ state with receiver := if state.pendingRead then .entered else .looking }, []) :=
  rfl

@[simp] theorem receiverStep_releaseLoadTail :
    receiverStep receiver state .releaseLoadTail .entered =
      some ({ state with receiver := .releasing (Ring.tail state.mem) }, []) := rfl

@[simp] theorem receiverStep_releaseStoreTail :
    receiverStep receiver state .releaseStoreTail (.releasing loaded) =
      some ({ state with
        mem := Ring.storeTail state.mem (loaded + 1), receiver := .looking, pendingRead := false }, []) :=
  rfl

@[simp] theorem receiverStep_consumeLoadTail :
    receiverStep receiver state .consumeLoadTail .looking =
      some ({ state with receiver := .begun (Ring.tail state.mem) }, []) := rfl

@[simp] theorem receiverStep_consumeLoadHead :
    receiverStep receiver state .consumeLoadHead (.begun tail) =
      if Ring.head state.mem = tail then some ({ state with receiver := .idle }, [.polled .empty])
      else some ({ state with receiver := .reading tail }, []) := rfl

@[simp] theorem receiverStep_read :
    receiverStep receiver state .read (.reading tail) =
      match receiver.readSlot state.mem (receiver.inbound.slotOffset tail) with
      | .empty => some ({ state with receiver := .spoiled }, [])
      | outcome => some ({ state with receiver := .idle, pendingRead := true }, [.polled outcome]) :=
  rfl

@[simp] theorem receiverStep_skipLoadTail :
    receiverStep receiver state .skipLoadTail .spoiled =
      some ({ state with receiver := .skipping (Ring.tail state.mem) }, []) := rfl

@[simp] theorem receiverStep_skipStoreTail :
    receiverStep receiver state .skipStoreTail (.skipping loaded) =
      some ({ state with mem := Ring.storeTail state.mem (loaded + 1), receiver := .idle },
        [.skipped, .polled .empty]) := rfl

theorem receiverStep_enabled {action : ChannelAction} {pc : ReceiverPc}
    {result : Channel × List ChannelOutput}
    (stepped : receiverStep receiver state action pc = some result) :
    (∃ epoch, action = .poll epoch ∧ pc = .idle) ∨ (action = .releaseLoadTail ∧ pc = .entered) ∨
      (∃ loaded, action = .releaseStoreTail ∧ pc = .releasing loaded) ∨
      (action = .consumeLoadTail ∧ pc = .looking) ∨
      (∃ tail, action = .consumeLoadHead ∧ pc = .begun tail) ∨
      (∃ tail, action = .read ∧ pc = .reading tail) ∨ (action = .skipLoadTail ∧ pc = .spoiled) ∨
      ∃ loaded, action = .skipStoreTail ∧ pc = .skipping loaded := by
  cases action <;> cases pc <;> first | cases stepped; done | simp

end ReceiverSteps

def ChannelAction.sends : ChannelAction → Bool
  | .send _ _ | .intrude _ | .produceLoadHead | .produceLoadTail | .fill | .commitLoadHead
  | .commitStoreHead => true
  | _ => false

def channelStep (sender receiver : Client) (state : Channel) (action : ChannelAction) :
    Option (Channel × List ChannelOutput) :=
  if action.sends then senderStep sender state action state.sender
  else receiverStep receiver state action state.receiver

def channelMachine (sender receiver : Client) : Machine Channel ChannelAction ChannelOutput where
  step := channelStep sender receiver

def Channel.initial (mem : Bytes) : Channel := ⟨mem, .idle, .idle, false⟩

section Calls

variable {sender receiver : Client}

/-- What a call that was not interrupted emits. -/
def SendCall.outputs (call : SendCall) : Except BusError Unit → List ChannelOutput
  | .ok () => [.committed (.send call)]
  | .error failure => [.refused call failure]

theorem send_steps (state : Channel) (idle : state.sender = .idle) (epoch : UInt64)
    (call : SendCall) :
    ∃ actions, (channelMachine sender receiver).Run state actions
      { state with mem := (sender.send epoch state.mem call).2 }
      (call.outputs (sender.send epoch state.mem call).1) := by
  obtain ⟨mem, pc, polling, pendingRead⟩ := state
  obtain rfl : pc = .idle := idle
  rw [Client.send_eq]
  by_cases faulty : call.fault = true
  · refine ⟨[.send epoch call], Machine.run_of_execute ?_⟩
    simp [Machine.execute, channelMachine, channelStep, ChannelAction.sends, senderStep, faulty,
      SendCall.outputs]
  · rw [if_neg faulty, Client.emit]
    cases admitted : sender.admits epoch call.payload with
    | error failure =>
        refine ⟨[.send epoch call], Machine.run_of_execute ?_⟩
        simp [Machine.execute, channelMachine, channelStep, ChannelAction.sends, senderStep, faulty,
          admitted, SendCall.outputs]
    | ok fine =>
        by_cases full : Ring.head mem - Ring.tail mem ≥ sender.outbound.capacity.toUInt64
        · refine ⟨[.send epoch call, .produceLoadHead, .produceLoadTail], Machine.run_of_execute ?_⟩
          simp [Machine.execute, channelMachine, channelStep, ChannelAction.sends, senderStep,
            faulty, admitted, Ring.produceBegin, full, Commit.refused, SendCall.outputs]
        · cases written : Client.fillSlot (sender.frame call.flags call.kind call.correlation
              call.payload) call.payload (sender.outbound.slot mem (Ring.head mem)) with
          | error failure =>
              refine ⟨[.send epoch call, .produceLoadHead, .produceLoadTail, .fill], Machine.run_of_execute ?_⟩
              have filled := written
              rw [Ring.slot] at filled
              simp [Machine.execute, channelMachine, channelStep, ChannelAction.sends, senderStep,
                faulty, admitted, Ring.produceBegin, full, Commit.refused, Commit.fill, written,
                filled, SendCall.outputs]
          | ok content =>
              refine ⟨[.send epoch call, .produceLoadHead, .produceLoadTail, .fill,
                .commitLoadHead, .commitStoreHead], Machine.run_of_execute ?_⟩
              have filled := written
              rw [Ring.slot] at filled
              simp [Machine.execute, channelMachine, channelStep, ChannelAction.sends, senderStep,
                faulty, admitted, Ring.produceBegin, full, Commit.fill, written, filled,
                SendCall.outputs, Ring.produceCommit]

/-- What a Poll emits; the marker tells a skipped slot from an empty ring. -/
def pollOutputs (outcome : Client.PollOutcome) (skipped : Bool) : List ChannelOutput :=
  if skipped then [.skipped, .polled outcome] else [.polled outcome]

theorem look_steps (mem : Bytes) (sending : SenderPc) :
    ∃ actions skipped outcome pendingRead after,
      (channelMachine sender receiver).Run ⟨mem, sending, .looking, false⟩ actions
        ⟨after, sending, .idle, pendingRead⟩ (pollOutputs outcome skipped) ∧
      (match receiver.inbound.consumeBegin mem with
        | none => (.empty, { receiver with pendingRead := false }, mem)
        | some offset =>
            match receiver.readSlot mem offset with
            | .empty => (.empty, { receiver with pendingRead := false }, Ring.consumeCommit mem)
            | outcome => (outcome, { receiver with pendingRead := true }, mem)) =
        (outcome, { receiver with pendingRead }, after) := by
  by_cases bare : Ring.head mem = Ring.tail mem
  · refine ⟨[.consumeLoadTail, .consumeLoadHead], false, .empty, false, mem,
      Machine.run_of_execute ?_, by simp [Ring.consumeBegin, bare]⟩
    simp [Machine.execute, channelMachine, channelStep, ChannelAction.sends, bare,
      pollOutputs]
  · have begun : receiver.inbound.consumeBegin mem =
        some (receiver.inbound.slotOffset (Ring.tail mem)) := by
      simp [Ring.consumeBegin, bare]
    rw [begun]
    cases look : receiver.readSlot mem (receiver.inbound.slotOffset (Ring.tail mem)) with
    | empty =>
        refine ⟨[.consumeLoadTail, .consumeLoadHead, .read, .skipLoadTail, .skipStoreTail], true,
          .empty, false, Ring.consumeCommit mem, Machine.run_of_execute ?_, by simp [look]⟩
        simp [Machine.execute, channelMachine, channelStep, ChannelAction.sends, bare,
          look, pollOutputs, Ring.consumeCommit]
    | _ =>
        refine ⟨[.consumeLoadTail, .consumeLoadHead, .read], false,
          receiver.readSlot mem (receiver.inbound.slotOffset (Ring.tail mem)), true, mem,
          Machine.run_of_execute ?_, by simp [look]⟩
        simp [Machine.execute, channelMachine, channelStep, ChannelAction.sends, bare,
          look, pollOutputs]

/-- The accesses of one Poll in a row are the Poll of a client whose record
stands as the channel says. -/
theorem poll_steps (state : Channel) (idle : state.receiver = .idle)
    (current : receiver.pendingRead = state.pendingRead) (epoch : UInt64) :
    ∃ actions skipped outcome pendingRead mem,
      (channelMachine sender receiver).Run state actions { state with mem, pendingRead }
        (pollOutputs outcome skipped) ∧
      receiver.poll epoch state.mem = (outcome, { receiver with pendingRead }, mem) := by
  obtain ⟨mem, sending, pc, pendingRead⟩ := state
  obtain rfl : pc = .idle := idle
  obtain rfl : receiver.pendingRead = pendingRead := current
  by_cases detached : receiver.control = false
  · refine ⟨[.poll epoch], false, .failed .errProtocol, receiver.pendingRead, mem,
      Machine.run_of_execute ?_, by rw [Client.poll, if_pos (by simp [detached])]⟩
    simp [Machine.execute, channelMachine, channelStep, ChannelAction.sends, detached,
      pollOutputs]
  · by_cases restarted : receiver.epochChanged epoch = true
    · refine ⟨[.poll epoch], false, .failed .errEpoch, receiver.pendingRead, mem,
        Machine.run_of_execute ?_,
        by rw [Client.poll, if_neg (by simp [detached]), if_pos restarted]⟩
      simp [Machine.execute, channelMachine, channelStep, ChannelAction.sends,
        detached, restarted, pollOutputs]
    · have entered : ∃ actions, (channelMachine sender receiver).Run
          ⟨mem, sending, .idle, receiver.pendingRead⟩ actions
          ⟨receiver.released mem, sending, .looking, false⟩ [] := by
        cases pending : receiver.pendingRead with
        | false =>
            refine ⟨[.poll epoch], Machine.run_of_execute ?_⟩
            simp [Machine.execute, channelMachine, channelStep, ChannelAction.sends,
              detached, restarted, Client.released, pending]
        | true =>
            refine ⟨[.poll epoch, .releaseLoadTail, .releaseStoreTail], Machine.run_of_execute ?_⟩
            simp [Machine.execute, channelMachine, channelStep, ChannelAction.sends,
              detached, restarted, Client.released, pending, Ring.consumeCommit]
      obtain ⟨entering, entered⟩ := entered
      obtain ⟨looking, skipped, outcome, pending, after, looked, same⟩ :=
        @look_steps sender receiver (receiver.released mem) sending
      refine ⟨entering ++ looking, skipped, outcome, pending, after, entered.append looked, ?_⟩
      rw [Client.poll, if_neg (by simp [detached]), if_neg restarted]
      exact same

end Calls

end AimeeLearning.Bus
