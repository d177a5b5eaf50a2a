import AimeeLearning.Bus.AttachCalls
import AimeeLearning.Bus.AttachGeometry
import Mathlib.Tactic.Abel

/-! Who holds the descriptors and the mappings. Whatever the kernel answers, no
call touches a handle that is not held, none is given back twice, and only an
attached client leaves handles behind: its three mappings. -/

set_option autoImplicit false

namespace AimeeLearning.Bus.System

open Library

inductive Handle where
  | descriptor (fd : Descriptor)
  | mapping (address : Nat)
  deriving DecidableEq

def Regions.handles (regions : Regions) : List Handle :=
  (regions.ctlMem.toList ++ regions.arena.toList ++ regions.qpMem.toList).map .mapping

/-- Which calls work on which handles, and which ones they close or bring. -/
def systemCustody : Custody SystemCall.Answer Handle where
  uses
    | .connect fd _ => [.descriptor fd]
    | .sendmsg sock _ => [.descriptor sock]
    | .recvmsg sock => [.descriptor sock]
    | .mmap fd _ => [.descriptor fd]
    | .view address => [.mapping address]
    | .touch address => [.mapping address]
    | .serve regions _ => regions.handles
    | _ => []
  releases
    | .munmap address => [.mapping address]
    | .close fd => [.descriptor fd]
    | _ => []
  acquires
    | .socket, .ok fd => [.descriptor fd]
    | .recvmsg _, .ok delivery => (parseRights delivery.controls).map .descriptor
    | .mmap _ _, .ok address => [.mapping address]
    | _, _ => []

variable {needs : Multiset Handle}

section Release

theorem close_keeps (fd : Descriptor) :
    systemCustody.Keeps (needs + {.descriptor fd}) (close fd) fun _ => needs :=
  (Custody.Keeps.release rfl rfl fun _ => rfl).bind fun _ => .pure rfl

theorem munmap_keeps (address : Nat) :
    systemCustody.Keeps (needs + {.mapping address}) (munmap address) fun _ => needs :=
  (Custody.Keeps.release rfl rfl fun _ => rfl).bind fun _ => .pure rfl

theorem closeAll_keeps (fds : List Descriptor) :
    systemCustody.Keeps (needs + ↑(fds.map Handle.descriptor)) (closeAll fds) fun _ => needs := by
  induction fds with
  | nil => exact .pure (by simp)
  | cons fd rest ih =>
      refine Custody.Keeps.congr ((close_keeps fd).bind fun _ => ih) ?_ fun _ => rfl
      rw [List.map_cons, ← Multiset.cons_coe, ← Multiset.singleton_add]
      abel

theorem unmapRegion_keeps (region : Option Nat) :
    systemCustody.Keeps (needs + ↑(region.toList.map Handle.mapping)) (unmapRegion region)
      fun _ => needs := by
  cases region with
  | none => exact .pure (by simp)
  | some address => exact (munmap_keeps address).bind fun _ => .pure rfl

theorem detach_keeps (regions : Regions) :
    systemCustody.Keeps (needs + ↑regions.handles) (detach regions) fun _ => needs := by
  have split : needs + ↑regions.handles =
      needs + ↑(regions.qpMem.toList.map Handle.mapping) +
        ↑(regions.arena.toList.map Handle.mapping) +
        ↑(regions.ctlMem.toList.map Handle.mapping) := by
    simp only [Regions.handles, List.map_append, ← Multiset.coe_add]
    abel
  refine Custody.Keeps.congr ?_ split fun _ => rfl
  exact (unmapRegion_keeps _).bind fun _ => (unmapRegion_keeps _).bind fun _ =>
    (unmapRegion_keeps _).bind fun _ => .pure rfl

end Release

section Attach

/-- What a mapping call brings. -/
def mappedBy : Except Errno Nat → Multiset Handle
  | .ok address => {.mapping address}
  | .error _ => 0

/-- What an attach leaves behind. -/
def leftBy : Except AttachError AttachedClient → Multiset Handle
  | .ok client => client.regions.handles
  | .error _ => 0

theorem view_keeps {address : Nat} (mapped : .mapping address ∈ needs) :
    systemCustody.Keeps needs (view address) fun _ => needs := by
  refine Custody.Keeps.use ?_ rfl fun _ => rfl
  simpa [systemCustody] using mapped

theorem mmap_keeps {fd : Descriptor} (held : .descriptor fd ∈ needs) (length : Int) :
    systemCustody.Keeps needs (mmap fd length) fun answer => needs + mappedBy answer := by
  refine Custody.Keeps.congr (Custody.Keeps.take ?_ rfl) rfl fun answer => ?_
  · simpa [systemCustody] using held
  · cases answer with
    | error errno => rfl
    | ok address => rfl

theorem refused_keeps (fds : List Descriptor) (failure : AttachError) :
    systemCustody.Keeps (needs + ↑(fds.map Handle.descriptor))
      (do
        closeAll fds
        return .error failure)
      fun result => needs + leftBy result :=
  (closeAll_keeps fds).bind fun _ => .pure (by simp [leftBy])

theorem validateRegions_keeps (buffer : Bytes) (ctlMem arena qpMem : Nat) :
    systemCustody.Keeps (needs + ↑(Regions.handles ⟨some ctlMem, some arena, some qpMem⟩))
      (validateRegions buffer ctlMem arena qpMem) fun result => needs + leftBy result := by
  have gives : ∀ failure : AttachError, systemCustody.Keeps
      (needs + ↑(Regions.handles ⟨some ctlMem, some arena, some qpMem⟩))
      (do
        let _ ← detach ⟨some ctlMem, some arena, some qpMem⟩
        return .error failure)
      fun result => needs + leftBy result :=
    fun failure => (detach_keeps _).bind fun _ => .pure (by simp [leftBy])
  refine (view_keeps ?_).bind fun ctlView => ?_
  · simp [Regions.handles]
  split
  · exact gives _
  refine (view_keeps ?_).bind fun qpView => ?_
  · simp [Regions.handles]
  split
  · exact gives _
  · exact .pure rfl

theorem mapRegions_keeps (buffer : Bytes) (ctlFd arenaFd qpFd : Descriptor) :
    systemCustody.Keeps (needs + ↑([ctlFd, arenaFd, qpFd].map Handle.descriptor))
      (mapRegions buffer ctlFd arenaFd qpFd) fun result => needs + leftBy result := by
  let received := [ctlFd, arenaFd, qpFd].map Handle.descriptor
  have among : ∀ fd ∈ [ctlFd, arenaFd, qpFd], ∀ more : Multiset Handle,
      .descriptor fd ∈ needs + ↑received + more := by
    intro fd member more
    refine Multiset.mem_add.mpr (.inl (Multiset.mem_add.mpr (.inr ?_)))
    exact Multiset.mem_coe.mpr (List.mem_map_of_mem member)
  refine (mmap_keeps (by simp) _).bind fun ctlMem => ?_
  cases ctlMem with
  | error errno => exact (refused_keeps _ _).congr (add_zero _) fun _ => rfl
  | ok ctlMem =>
  refine (mmap_keeps (among arenaFd (by simp) _) _).bind fun arena => ?_
  cases arena with
  | error errno =>
      refine Custody.Keeps.congr ((munmap_keeps ctlMem).bind fun _ => refused_keeps _ _) ?_
        fun _ => rfl
      exact add_zero _
  | ok arena =>
  refine (mmap_keeps (add_assoc (needs + ↑received) _ _ ▸ among qpFd (by simp) _) _).bind
    fun qpMem => ?_
  cases qpMem with
  | error errno =>
      refine Custody.Keeps.congr ((munmap_keeps ctlMem).bind fun _ =>
        (munmap_keeps arena).bind fun _ => refused_keeps _ _) ?_ fun _ => rfl
      simp only [mappedBy]
      abel
  | ok qpMem =>
      refine Custody.Keeps.congr ((closeAll_keeps [ctlFd, arenaFd, qpFd]).bind fun _ =>
        validateRegions_keeps buffer ctlMem arena qpMem) ?_ fun _ => rfl
      have regions : (↑(Regions.handles ⟨some ctlMem, some arena, some qpMem⟩) : Multiset Handle) =
          {.mapping ctlMem} + {.mapping arena} + {.mapping qpMem} := rfl
      simp only [mappedBy, regions]
      abel

theorem acceptReply_keeps (delivery : Delivery) (fds : List Descriptor) :
    systemCustody.Keeps (needs + ↑(fds.map Handle.descriptor)) (acceptReply delivery fds)
      fun result => needs + leftBy result := by
  unfold acceptReply
  split
  · exact refused_keeps _ _
  split
  · exact refused_keeps _ _
  split
  · exact mapRegions_keeps _ _ _ _
  · exact refused_keeps _ _

/-- AttachAs closes every descriptor it receives and unmaps what it mapped,
except for the regions of the client it returns. -/
theorem attachAs_keeps {sock : Descriptor} (held : .descriptor sock ∈ needs)
    (principalClass principalRef : UInt32) :
    systemCustody.Keeps needs (attachAs sock principalClass principalRef)
      fun result => needs + leftBy result := by
  refine Custody.Keeps.bind (Custody.Keeps.use ?_ rfl fun _ => rfl) fun sent => ?_
  · simpa [systemCustody] using held
  cases sent with
  | error errno => exact .pure (by simp [leftBy])
  | ok _ =>
  refine Custody.Keeps.bind (Custody.Keeps.take ?_ rfl) fun delivered => ?_
  · simpa [systemCustody] using held
  cases delivered with
  | error errno => exact .pure (by simp [leftBy, systemCustody])
  | ok delivery => exact acceptReply_keeps _ _

end Attach

section Connect

/-- What a try to connect leaves behind. -/
def heldAfter : Option (Except ConnectError AttachedClient) → Multiset Handle
  | some (.ok client) => client.regions.handles
  | _ => 0

theorem connectRound_keeps (socketPath : String) (principalClass principalRef : UInt32) :
    systemCustody.Keeps needs (connectRound socketPath principalClass principalRef)
      fun result => needs + heldAfter result := by
  refine Custody.Keeps.bind (Custody.Keeps.take (by simp [systemCustody]) rfl) fun opened => ?_
  cases opened with
  | error errno => exact .pure (by simp [heldAfter, systemCustody])
  | ok fd =>
  have sock : Handle.descriptor fd ∈
      needs + ↑(systemCustody.acquires .socket (Except.ok fd)) := by
    simp [systemCustody]
  refine Custody.Keeps.bind (Custody.Keeps.use ?_ rfl fun _ => rfl) fun connected => ?_
  · simp [systemCustody]
  cases connected with
  | ok _ =>
      refine (attachAs_keeps sock principalClass principalRef).bind fun result => ?_
      have closed : systemCustody.Keeps (needs + leftBy result + {.descriptor fd}) (close fd)
          fun _ => needs + leftBy result := close_keeps fd
      refine Custody.Keeps.congr (closed.bind fun _ => .pure ?_) ?_ fun _ => rfl
      · cases result <;> rfl
      · exact add_right_comm _ _ _
  | error errno =>
      refine (close_keeps fd).bind fun _ => ?_
      split
      · exact .pure (add_zero _)
      refine Custody.Keeps.bind (Custody.Keeps.use (by simp [systemCustody]) rfl fun _ => rfl)
        fun ended => ?_
      split <;> exact .pure (add_zero _)

theorem serveAttached_keeps (process : ModuleProcessConfig) (stages : StageTable)
    (client : AttachedClient) :
    systemCustody.Keeps (needs + ↑client.regions.handles) (serveAttached process stages client)
      fun _ => needs := by
  refine Custody.Keeps.bind (Custody.Keeps.use ?_ rfl fun _ => rfl) fun result => ?_
  · intro handle member
    exact Multiset.mem_add.mpr (.inr (Multiset.mem_coe.mpr member))
  · exact (detach_keeps client.regions).bind fun _ => .pure rfl

theorem runModuleProcess_keeps (process : ModuleProcessConfig) (rounds : Nat) :
    systemCustody.Keeps needs (runModuleProcess process rounds) fun _ => needs := by
  unfold runModuleProcess
  split
  · exact .pure rfl
  refine ((connectRound_keeps _ _ _).retried (add_zero _) rounds).bind fun result => ?_
  rcases result with _ | failure | client
  · exact .pure (by simp [heldAfter])
  · refine Custody.Keeps.bind (Custody.Keeps.use (by simp [systemCustody]) rfl fun _ => rfl)
      fun ended => ?_
    split <;> exact .pure (add_zero _).symm
  · exact (serveAttached_keeps process _ client).bind fun _ => .pure rfl

end Connect

section Agreement

/-- What the socket of a kernel delivers. -/
def exchangeBy (kernel : (request : SystemCall) → request.Answer) (sock : Descriptor)
    (request : Bytes) : Option AttachReply :=
  match kernel (.sendmsg sock request), kernel (.recvmsg sock) with
  | .ok (), .ok delivery =>
      some ⟨delivery.buffer, delivery.received, (parseRights delivery.controls).length⟩
  | _, _ => none

/-- What it maps of one of the descriptors that came along. -/
def mmapBy (kernel : (request : SystemCall) → request.Answer) (sock : Descriptor)
    (index : Nat) (length : Int) : Option Bytes :=
  match kernel (.recvmsg sock) with
  | .error _ => none
  | .ok delivery =>
      match (parseRights delivery.controls)[index]? with
      | none => none
      | some fd =>
          match kernel (.mmap fd length) with
          | .error _ => none
          | .ok address => some (kernel (.view address))

variable {kernel : (request : SystemCall) → request.Answer}

@[simp] theorem under_sendmsg (sock : Descriptor) (request : Bytes) :
    (sendmsg sock request).under kernel = kernel (.sendmsg sock request) := rfl

@[simp] theorem under_recvmsg (sock : Descriptor) :
    (recvmsg sock).under kernel = kernel (.recvmsg sock) := rfl

@[simp] theorem under_mmap (fd : Descriptor) (length : Int) :
    (mmap fd length).under kernel = kernel (.mmap fd length) := rfl

@[simp] theorem under_view (address : Nat) :
    (view address).under kernel = kernel (.view address) := rfl

@[simp] theorem under_pure {α : Type} (value : α) :
    (pure value : SystemProgram α).under kernel = value := rfl

theorem validateRegions_under (buffer : Bytes) (ctlMem arena qpMem : Nat) :
    ((validateRegions buffer ctlMem arena qpMem).under kernel).map (·.attached) =
      match attachControl (kernel (.view ctlMem)), attachQueuePair (kernel (.view qpMem)) with
      | .ok control, .ok queuePair => .ok ⟨replyClient buffer queuePair, control, queuePair⟩
      | .error failure, _ => .error (.bus failure)
      | .ok _, .error failure => .error (.bus failure) := by
  simp only [validateRegions, Program.under_bind, under_view]
  cases attachControl (kernel (.view ctlMem)) with
  | error failure => rfl
  | ok control =>
      simp only [Program.under_bind, under_view]
      cases attachQueuePair (kernel (.view qpMem)) with
      | error failure => rfl
      | ok queuePair => rfl

/-- The fields, the checks and the mapping lengths are those of the handshake. -/
theorem attachAs_under (sock : Descriptor) (principalClass principalRef : UInt32) :
    ((attachAs sock principalClass principalRef).under kernel).map (·.attached) =
      Bus.attachAs (exchangeBy kernel sock) (mmapBy kernel sock) principalClass principalRef := by
  simp only [attachAs, Bus.attachAs, Program.under_bind, under_sendmsg, exchangeBy]
  cases kernel (.sendmsg sock (attachRequest principalClass principalRef)) with
  | error errno => rfl
  | ok _ =>
  simp only [Program.under_bind, under_recvmsg]
  cases received : kernel (.recvmsg sock) with
  | error errno => rfl
  | ok delivery =>
  have refused : ∀ failure : AttachError, (do
      closeAll (parseRights delivery.controls)
      return .error failure : SystemProgram (Except AttachError AttachedClient)).under kernel =
        .error failure := fun _ => Program.under_bind _ _ _
  simp only [acceptReply]
  split
  · rw [refused, Except.map]
  split
  · rw [refused, Except.map]
  split
  · rename_i ctlFd arenaFd qpFd fds
    simp only [fds, List.length_cons, List.length_nil, Nat.zero_add, Nat.reduceAdd, bne_self_eq_false,
      Bool.false_eq_true, if_false, mmapBy, received, mapRegions, Program.under_bind, under_mmap,
      List.getElem?_cons_zero, List.getElem?_cons_succ]
    cases kernel (.mmap ctlFd ctlBytes) with
    | error errno => rfl
    | ok ctlMem =>
    simp only [Program.under_bind, under_mmap]
    cases kernel (.mmap arenaFd (goInt (16 + uint64At delivery.buffer 32).toNat)) with
    | error errno => rfl
    | ok arena =>
    simp only [Program.under_bind, under_mmap]
    cases kernel (.mmap qpFd (qpairBytes (uint32At delivery.buffer 16)
        (uint32At delivery.buffer 24))) with
    | error errno => rfl
    | ok qpMem => exact validateRegions_under _ _ _ _
  · rename_i other
    have three : (parseRights delivery.controls).length ≠ 3 := by
      intro length
      obtain ⟨ctlFd, arenaFd, qpFd, fds⟩ := List.length_eq_three.mp length
      exact other _ _ _ fds
    rw [if_pos (by simpa using three), refused, Except.map]

end Agreement

section Whole

/-- All three regions are there. -/
def Regions.Whole (regions : Regions) : Prop :=
  ∃ ctlMem arena qpMem, regions = ⟨some ctlMem, some arena, some qpMem⟩

/-- A client, if there is one, has all three regions. -/
def WholeClient {ε : Type} (result : Except ε AttachedClient) : Prop :=
  ∀ client, result = .ok client → client.regions.Whole

theorem WholeClient.mapError {ε δ : Type} {result : Except ε AttachedClient}
    (whole : WholeClient result) (change : ε → δ) : WholeClient (result.mapError change) := by
  intro client same
  cases result with
  | error failure => cases same
  | ok found =>
      obtain rfl := Except.ok.inj same
      exact whole _ rfl

theorem wholeClient_error {ε : Type} (failure : ε) :
    WholeClient (.error failure : Except ε AttachedClient) := by
  intro client same
  cases same

theorem validateRegions_whole (buffer : Bytes) (ctlMem arena qpMem : Nat) :
    (validateRegions buffer ctlMem arena qpMem).Ensures WholeClient := by
  refine .bind fun ctlView => ?_
  split
  · exact .bind fun _ => .pure (wholeClient_error _)
  refine .bind fun qpView => ?_
  split
  · exact .bind fun _ => .pure (wholeClient_error _)
  refine .pure fun client same => ?_
  obtain rfl := Except.ok.inj same
  exact ⟨ctlMem, arena, qpMem, rfl⟩

theorem mapRegions_whole (buffer : Bytes) (ctlFd arenaFd qpFd : Descriptor) :
    (mapRegions buffer ctlFd arenaFd qpFd).Ensures WholeClient := by
  refine .bind fun ctlMem => ?_
  cases ctlMem with
  | error errno => exact .bind fun _ => .pure (wholeClient_error _)
  | ok ctlMem =>
  refine .bind fun arena => ?_
  cases arena with
  | error errno => exact .bind fun _ => .bind fun _ => .pure (wholeClient_error _)
  | ok arena =>
  refine .bind fun qpMem => ?_
  cases qpMem with
  | error errno =>
      exact .bind fun _ => .bind fun _ => .bind fun _ => .pure (wholeClient_error _)
  | ok qpMem => exact .bind fun _ => validateRegions_whole _ _ _ _

theorem attachAs_whole (sock : Descriptor) (principalClass principalRef : UInt32) :
    (attachAs sock principalClass principalRef).Ensures WholeClient := by
  refine .bind fun sent => ?_
  cases sent with
  | error errno => exact .pure (wholeClient_error _)
  | ok _ =>
  refine .bind fun delivered => ?_
  cases delivered with
  | error errno => exact .pure (wholeClient_error _)
  | ok delivery =>
  simp only [acceptReply]
  split
  · exact .bind fun _ => .pure (wholeClient_error _)
  split
  · exact .bind fun _ => .pure (wholeClient_error _)
  split
  · exact mapRegions_whole _ _ _ _
  · exact .bind fun _ => .pure (wholeClient_error _)

end Whole

section Runs

variable {process : ModuleProcessConfig} {rounds : Nat} {sock : Descriptor}
  {principalClass principalRef : UInt32} {trace : List (Exchange SystemCall.Answer)}

/-- AttachAs over any answers: every call works on a handle that is held at that
moment, every descriptor received is closed once, and what is not unmapped are
the three regions of the client it returns. The client is the one of the handshake. -/
theorem attachAs_run {result : Except AttachError AttachedClient} {frame : Multiset Handle}
    (ran : (attachAs sock principalClass principalRef).Ran trace result)
    (open_ : .descriptor sock ∈ frame) :
    systemCustody.ledger frame trace = some (frame + leftBy result) ∧
      systemCustody.acquired trace = leftBy result + systemCustody.released trace ∧
      (∀ client, result = .ok client → client.regions.Whole) ∧
      ∀ kernel : (request : SystemCall) → request.Answer,
        (∀ exchange ∈ trace, exchange.answer = kernel exchange.request) →
        result.map (·.attached) =
          Bus.attachAs (exchangeBy kernel sock) (mmapBy kernel sock) principalClass principalRef := by
  have settled : systemCustody.ledger frame trace = some (frame + leftBy result) := by
    have kept := attachAs_keeps open_ principalClass principalRef 0 trace result ran
    rwa [zero_add, zero_add] at kept
  refine ⟨settled, ?_, attachAs_whole sock principalClass principalRef trace result ran,
    fun kernel answered => ?_⟩
  · have balance := Custody.ledger_balance settled
    rw [add_assoc] at balance
    exact add_left_cancel balance
  · rw [← attachAs_under, ran.under answered]

/-- A kernel on which the daemon accepts at once and the module is stopped later. -/
def acceptingKernel : (request : SystemCall) → request.Answer
  | .socket => .ok 3
  | .connect _ _ => .ok ()
  | .sendmsg _ _ => .ok ()
  | .recvmsg _ => .ok ⟨((geometryReply 192 128 []).map (·.buffer)).getD [], 48,
      [⟨solSocket, scmRights, [4, 5, 6]⟩]⟩
  | .mmap fd _ => .ok fd.toNat
  | .munmap _ => .ok ()
  | .close _ => .ok ()
  | .touch _ => ()
  | .view address => ((geometryRegions 192 128 192 (address - 4) 0)).getD []
  | .retry => false
  | .ctxErr => true
  | .serve _ _ => .ok ()

/-- The three descriptors are closed, and the client keeps its three mappings. -/
theorem attachAs_run_accepted :
    ((attachAs 3 1 1).under acceptingKernel).map (·.attached) = .ok (geometryAttached 192 128 192) ∧
      systemCustody.ledger {.descriptor 3} ((attachAs 3 1 1).trace acceptingKernel) =
        some {.descriptor 3, .mapping 4, .mapping 5, .mapping 6} := by
  have run := attachAs_run ((attachAs 3 1 1).ran_under acceptingKernel)
    (Multiset.mem_singleton_self (Handle.descriptor 3))
  refine ⟨by decide +kernel, run.1.trans ?_⟩
  decide +kernel

/-- What a round that goes on has seen: a refused connect on a socket that it
closed, and the retry timer. -/
theorem connectRound_none {socketPath : String}
    (ran : (connectRound socketPath principalClass principalRef).Ran trace none) :
    ∃ fd closed, trace = [⟨.socket, .ok fd⟩, ⟨.connect fd socketPath, .error connRefused⟩,
      ⟨.close fd, closed⟩, ⟨.retry, false⟩] := by
  obtain ⟨_, _, opened, first, later, rfl⟩ := Program.ran_bind_iff.mp ran
  obtain rfl := Program.ran_perform_iff.mp first
  cases opened with
  | error errno => cases (Program.ran_pure_iff.mp later).2
  | ok fd =>
  obtain ⟨_, _, connected, second, closing, rfl⟩ := Program.ran_bind_iff.mp later
  obtain rfl := Program.ran_perform_iff.mp second
  cases connected with
  | ok _ =>
      obtain ⟨_, _, result, -, returns, rfl⟩ := Program.ran_bind_iff.mp closing
      obtain ⟨_, _, _, -, returned, rfl⟩ := Program.ran_bind_iff.mp returns
      cases (Program.ran_pure_iff.mp returned).2
  | error errno =>
  obtain ⟨_, _, _, third, decides, rfl⟩ := Program.ran_bind_iff.mp closing
  obtain ⟨_, _, closed, answered, done, rfl⟩ := Program.ran_bind_iff.mp third
  obtain rfl := Program.ran_perform_iff.mp answered
  obtain ⟨rfl, -⟩ := Program.ran_pure_iff.mp done
  split at decides
  · cases (Program.ran_pure_iff.mp decides).2
  rename_i same
  obtain rfl : errno = connRefused := by simpa using same
  obtain ⟨_, _, ended, fourth, goesOn, rfl⟩ := Program.ran_bind_iff.mp decides
  obtain rfl := Program.ran_perform_iff.mp fourth
  cases ended with
  | true => cases (Program.ran_pure_iff.mp goesOn).2
  | false =>
      obtain ⟨rfl, -⟩ := Program.ran_pure_iff.mp goesOn
      exact ⟨fd, closed, rfl⟩

/-- A round, as the plain loop sees it. -/
def roundDial : Except ConnectError AttachedClient → Dial
  | .error .system => .connectFailed
  | .error .context => .refused true
  | .error (.attach failure) => .connected (.error failure)
  | .ok client => .connected (.ok client.attached.client)

theorem connectModule_dials (count : Nat) (dials : List Dial) :
    Bus.connectModule (List.replicate count (.refused false) ++ dials) =
      Bus.connectModule dials := by
  induction count with
  | zero => rfl
  | succ count ih => simpa [List.replicate_succ, Bus.connectModule] using ih

theorem connectModule_roundDial (result : Except ConnectError AttachedClient) :
    Bus.connectModule [roundDial result] = some (result.map (·.attached.client)) := by
  rcases result with (_ | failure | _) | client <;> rfl

/-- The answers to the calls that are made once in a run. -/
def AnswersAs (ended : Bool) (runModuleClient : RuntimeConfig → Except RuntimeError Unit) :
    Exchange SystemCall.Answer → Prop
  | ⟨.ctxErr, answer⟩ => answer = ended
  | ⟨.serve _ config, answer⟩ => answer = runModuleClient config
  | _ => True

/-- The trace begins with so many refused rounds and one that is not. -/
def Dialled (process : ModuleProcessConfig) (trace : List (Exchange SystemCall.Answer))
    (refused : Nat) (last : Option (Except ConnectError AttachedClient)) : Prop :=
  ∃ (earlier : List (List (Exchange SystemCall.Answer)))
    (final rest : List (Exchange SystemCall.Answer)), trace = earlier.flatten ++ final ++ rest ∧ earlier.length = refused ∧
    (∀ piece ∈ earlier, ∃ fd closed, piece = [⟨.socket, .ok fd⟩,
      ⟨.connect fd process.socketPath, .error connRefused⟩, ⟨.close fd, closed⟩,
      ⟨.retry, false⟩]) ∧
    ∀ result ∈ last,
      (connectRound process.socketPath process.principalClass process.principalRef).Ran final
        (some result)

theorem connectModule_run {result : Option (Except ConnectError AttachedClient)}
    (ran : (connectModule process rounds).Ran trace result) :
    ∃ refused, Dialled process trace refused result ∧ refused + result.toList.length ≤ rounds ∧
      result.map (·.map (·.attached.client)) = Bus.connectModule
        (List.replicate refused (.refused false) ++ result.toList.map roundDial) := by
  obtain ⟨earlier, unsettled, shape⟩ := Program.Ran.rounds ran
  have pieces := fun piece member => connectRound_none (unsettled piece member)
  simp only [connectModule_dials]
  rcases shape with ⟨rfl, rfl, rfl⟩ | ⟨value, last, rfl, fewer, final, rfl⟩
  · exact ⟨earlier.length, ⟨earlier, [], [], by simp, rfl, pieces, by simp⟩, by simp, rfl⟩
  · refine ⟨earlier.length, ⟨earlier, last, [], by simp, rfl, pieces, ?_⟩, fewer, ?_⟩
    · intro result member
      obtain rfl := Option.some.inj member
      exact final
    · exact (connectModule_roundDial value).symm

theorem Dialled.append {refused : Nat} {last : Option (Except ConnectError AttachedClient)}
    (dialled : Dialled process trace refused last) (more : List (Exchange SystemCall.Answer)) :
    Dialled process (trace ++ more) refused last := by
  obtain ⟨earlier, final, rest, rfl, shape⟩ := dialled
  exact ⟨earlier, final, rest ++ more, by simp, shape⟩

/-- RunModuleProcess over any answers holds at the end what it held at the start:
it closes every descriptor and unmaps every region it got, each once, and works on
none before or after. Its result is that of the plain loop over the same rounds. -/
theorem runModuleProcess_run {result : Option (Except ProcessError Unit)}
    (ran : (runModuleProcess process rounds).Ran trace result) :
    (∀ frame, systemCustody.ledger frame trace = some frame) ∧
      systemCustody.acquired trace = systemCustody.released trace ∧
      ∃ refused last, Dialled process trace refused last ∧ refused + last.toList.length ≤ rounds ∧
        ∀ ended runModuleClient, (∀ exchange ∈ trace, AnswersAs ended runModuleClient exchange) →
          result = Bus.runModuleProcess process
            (List.replicate refused (.refused false) ++ last.toList.map roundDial) ended
            runModuleClient := by
  have settled : ∀ frame, systemCustody.ledger frame trace = some frame := by
    intro frame
    have kept := @runModuleProcess_keeps 0 process rounds frame trace result ran
    rwa [add_zero] at kept
  refine ⟨settled, add_left_cancel (Custody.ledger_balance (settled 0)), ?_⟩
  unfold runModuleProcess at ran
  split at ran
  · rename_i failure invalid
    obtain ⟨rfl, rfl⟩ := Program.ran_pure_iff.mp ran
    refine ⟨0, none, ⟨[], [], [], rfl, rfl, by simp, by simp⟩, Nat.zero_le _, fun _ _ _ => ?_⟩
    simp [Bus.runModuleProcess, invalid]
  rename_i stages valid
  obtain ⟨dials, later, last, connecting, goesOn, rfl⟩ := Program.ran_bind_iff.mp ran
  obtain ⟨refused, dialled, within, agrees⟩ := connectModule_run connecting
  refine ⟨refused, last, dialled.append later, within, fun ended runModuleClient answers => ?_⟩
  simp only [Bus.runModuleProcess, valid, ← agrees]
  rcases last with _ | failure | client
  · exact (Program.ran_pure_iff.mp goesOn).2
  · obtain ⟨_, _, answer, asked, returns, rfl⟩ := Program.ran_bind_iff.mp goesOn
    obtain rfl := Program.ran_perform_iff.mp asked
    obtain rfl : answer = ended := answers ⟨.ctxErr, answer⟩ (by simp)
    cases answer <;> exact (Program.ran_pure_iff.mp returns).2
  · obtain ⟨_, _, served, serving, returns, rfl⟩ := Program.ran_bind_iff.mp goesOn
    obtain ⟨rfl, rfl⟩ := Program.ran_pure_iff.mp returns
    obtain ⟨_, _, answer, asked, detaching, rfl⟩ := Program.ran_bind_iff.mp serving
    obtain rfl := Program.ran_perform_iff.mp asked
    obtain ⟨_, _, _, -, done, rfl⟩ := Program.ran_bind_iff.mp detaching
    obtain ⟨rfl, rfl⟩ := Program.ran_pure_iff.mp done
    obtain rfl : answer = runModuleClient (process.runtime stages client.attached.client) :=
      answers ⟨.serve client.regions _, answer⟩ (by simp)
    simp only [Option.map_some, Except.map]
    cases runModuleClient (process.runtime stages client.attached.client) <;> rfl

theorem runModuleProcess_run_accepted :
    (runModuleProcess servingProcess 1).under acceptingKernel = some (.ok ()) ∧
      systemCustody.ledger 0 ((runModuleProcess servingProcess 1).trace acceptingKernel) =
        some 0 :=
  ⟨by decide +kernel,
    (runModuleProcess_run ((runModuleProcess servingProcess 1).ran_under acceptingKernel)).1 0⟩

end Runs

end AimeeLearning.Bus.System
