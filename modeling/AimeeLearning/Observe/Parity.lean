import AimeeLearning.Observe.Observation

/-! Parity of the two handlers. They differ only in what a NUL among the
declared signal bytes means: the Go switch compares the whole byte string, the
C policy stops at the NUL. -/

set_option autoImplicit false

namespace AimeeLearning.Observe

open Library Bus

section Words

private theorem or_shift {low high bits : Nat} (small : low < 2 ^ bits) :
    low ||| high <<< bits = low + 2 ^ bits * high := by
  rw [Nat.or_comm, ← Nat.shiftLeft_add_eq_or_of_lt small, Nat.shiftLeft_eq, Nat.mul_comm,
    Nat.add_comm]

theorem getU32_eq (input : Bytes) (long : 4 ≤ input.length) : getU32 input = uint32At input 0 := by
  obtain ⟨a, b, c, d, rest, rfl⟩ : ∃ a b c d rest, input = a :: b :: c :: d :: rest := by
    match input, long with
    | a :: b :: c :: d :: rest, _ => exact ⟨a, b, c, d, rest, rfl⟩
  have aSmall : a.toNat < 256 := a.toNat_lt
  have bSmall : b.toNat < 256 := b.toNat_lt
  have cSmall : c.toNat < 256 := c.toNat_lt
  have dSmall : d.toNat < 256 := d.toNat_lt
  have second : b.toNat <<< 8 % 4294967296 = b.toNat <<< 8 :=
    Nat.mod_eq_of_lt (by rw [Nat.shiftLeft_eq]; omega)
  have third : c.toNat <<< 16 % 4294967296 = c.toNat <<< 16 :=
    Nat.mod_eq_of_lt (by rw [Nat.shiftLeft_eq]; omega)
  have fourth : d.toNat <<< 24 % 4294967296 = d.toNat <<< 24 :=
    Nat.mod_eq_of_lt (by rw [Nat.shiftLeft_eq]; omega)
  apply UInt32.toNat_inj.mp
  simp only [getU32, byteAt, uint32At, window, ofLittleEndian, UInt32.toNat_or,
    UInt32.toNat_shiftLeft, List.getElem?_cons_zero, List.getElem?_cons_succ, Option.getD_some,
    UInt8.toNat_toUInt32, UInt32.toNat_ofNat', List.drop_zero, List.take_succ_cons,
    List.take_zero]
  simp only [UInt32.reduceToNat, Nat.reduceMod, Nat.reducePow, second, third, fourth]
  have two : a.toNat ||| b.toNat <<< 8 = a.toNat + 2 ^ 8 * b.toNat := or_shift (by omega)
  have three : a.toNat + 2 ^ 8 * b.toNat ||| c.toNat <<< 16 =
      a.toNat + 2 ^ 8 * b.toNat + 2 ^ 16 * c.toNat := or_shift (by omega)
  rw [two, three, or_shift (by omega)]
  omega

theorem putU32_eq (value : UInt32) : putU32 value = uint32Bytes value := by
  have byte : ∀ bits : UInt32, (value >>> bits).toUInt8 =
      UInt8.ofNat (value.toNat >>> (bits.toNat % 32)) := by
    intro bits
    apply UInt8.toNat_inj.mp
    simp
  simp only [putU32, uint32Bytes, littleEndian, byte, UInt32.reduceToNat, Nat.reduceMod,
    Nat.shiftRight_eq_div_pow, Nat.div_div_eq_div_mul]
  simp

end Words

section Signals

variable {signal : Bytes}

/-- The signal names the policy routes to a sink. -/
def classified : List Bytes :=
  [cstr "thumb_up", cstr "thumb_down", cstr "correction", cstr "preference_statement",
    cstr "mark_rule", cstr "workflow_repetition"]

theorem zero_notMem_classified {name : Bytes} (member : name ∈ classified) : 0 ∉ name := by
  have checked : ∀ name ∈ classified, 0 ∉ name := by decide
  exact checked name member

theorem goMask_eq_zero_iff : goMask signal = 0 ↔ signal ∉ classified := by
  unfold goMask classified
  by_cases up : signal = cstr "thumb_up"
  · simp [up, sinkReranker]
  by_cases down : signal = cstr "thumb_down"
  · simp [down, sinkReranker]
  by_cases correction : signal = cstr "correction"
  · simp [correction, sinkReranker, sinkSupersede, sinkRule]
    decide
  by_cases preference : signal = cstr "preference_statement"
  · simp [preference, sinkRule]
    decide
  by_cases rule : signal = cstr "mark_rule"
  · simp [rule, sinkRule]
    decide
  by_cases workflow : signal = cstr "workflow_repetition"
  · simp [workflow, sinkWorkflow]
    decide
  · simp [up, down, correction, preference, rule, workflow]

/-- The C policy is the Go switch on the text in front of the first NUL, with
the empty text refused. -/
theorem signalPolicySinkMask_eq (buffer : Bytes) :
    signalPolicySinkMask buffer =
      if cString buffer = [] then none else some (goMask (cString buffer)) := by
  unfold signalPolicySinkMask goMask
  simp only
  split_ifs <;> rfl

/-- No NUL among the declared bytes, or a text in front of it that is neither
empty nor classified. -/
def SignalAgrees (signal : Bytes) : Prop :=
  0 ∉ signal ∨ cString signal ≠ [] ∧ cString signal ∉ classified

instance (signal : Bytes) : Decidable (SignalAgrees signal) :=
  inferInstanceAs (Decidable (_ ∨ _))

theorem mask_agrees_iff (nonempty : signal ≠ []) :
    signalPolicySinkMask (terminated signal) = some (goMask signal) ↔ SignalAgrees signal := by
  rw [signalPolicySinkMask_eq, cString_terminated, SignalAgrees]
  by_cases free : 0 ∉ signal
  · rw [cString_eq_self_iff.mpr free, if_neg nonempty]
    simp [free]
  · have unknown : goMask signal = 0 :=
      goMask_eq_zero_iff.mpr fun member => free (zero_notMem_classified member)
    by_cases empty : cString signal = []
    · simp [empty, free]
    · rw [if_neg empty, unknown, Option.some.injEq, goMask_eq_zero_iff]
      simp [free, empty]

end Signals

/-- The two handlers end alike. -/
def Parity (stageID : UInt32) (cancelled : Bool) (request : Bytes) (responseCapacity : Nat) :
    Prop :=
  (handle stageID cancelled request).2 =
      (aimeeModuleHandler stageID cancelled request responseCapacity).1 ∧
    ((handle stageID cancelled request).2 = moduleStatusOK →
      (handle stageID cancelled request).1 =
        (aimeeModuleHandler stageID cancelled request responseCapacity).2)

def declaredSignal (request : Bytes) : Bytes := window request 8 (byteAt request 6).toNat

section Requests

variable {stageID : UInt32} {request : Bytes} {responseCapacity : Nat}

theorem requestDecode_eq :
    requestDecode request (signalMax.toNat + 1) =
      if goRefuses stageObserve request then none
      else some (terminated (declaredSignal request)) := by
  unfold requestDecode goRefuses
  by_cases sized : request.length = requestLen
  · have word := getU32_eq request (by rw [sized]; decide)
    by_cases large : byteAt request 6 > signalMax
    · simp [large]
    · have fits : (byteAt request 6).toNat < signalMax.toNat + 1 :=
        Nat.lt_succ_of_le (UInt8.le_iff_toNat_le.mp (UInt8.not_lt.mp large))
      simp [sized, word, large, not_le.mpr fits, declaredSignal]
  · simp [sized]

theorem goRefuses_stage : goRefuses stageID request =
    (stageID != stageObserve || goRefuses stageObserve request) := by
  simp [goRefuses, Bool.or_assoc]

theorem declaredSignal_ne_nil (accepted : goRefuses stageObserve request = false) :
    declaredSignal request ≠ [] := by
  simp only [goRefuses, bne_self_eq_false, Bool.false_or, Bool.or_eq_false_iff,
    bne_eq_false_iff_eq, beq_eq_false_iff_ne] at accepted
  obtain ⟨⟨⟨⟨⟨⟨sized, -⟩, -⟩, -⟩, -⟩, present⟩, -⟩ := accepted
  have declared : (byteAt request 6).toNat ≠ 0 := fun zero => present (UInt8.toNat_inj.mp zero)
  have behind : 8 < request.length := by rw [sized]; decide
  intro empty
  have short := congrArg List.length empty
  rw [declaredSignal, length_window, List.length_nil] at short
  omega

/-- The handlers agree exactly when the request is refused, the invocation is
cancelled, or the declared bytes mean the same text on both sides. -/
theorem observation_parity_iff (cancelled : Bool) (room : responseLen ≤ responseCapacity) :
    Parity stageID cancelled request responseCapacity ↔
      goRefuses stageID request = true ∨ cancelled = true ∨
        SignalAgrees (declaredSignal request) := by
  have small : ¬ responseCapacity < responseLen := not_lt.mpr room
  unfold Parity handle aimeeModuleHandler
  simp only [requestDecode_eq, @goRefuses_stage stageID request]
  by_cases other : stageID = stageObserve
  · subst other
    by_cases refused : goRefuses stageObserve request = true
    · simp [refused, small]
    · have accepted : goRefuses stageObserve request = false := by simpa using refused
      have declared := declaredSignal_ne_nil accepted
      by_cases stopped : cancelled = true
      · simp [accepted, small, stopped]
      · have agrees := mask_agrees_iff declared
        simp only [accepted, small, stopped, bne_self_eq_false, Bool.false_or, decide_false,
          Bool.false_eq_true, if_false, false_or]
        rw [← agrees, ← declaredSignal]
        cases masked : signalPolicySinkMask (terminated (declaredSignal request)) with
        | none => simp [moduleStatusOK, moduleStatusInternal]
        | some mask => simp [putU32_eq, uint32Bytes_inj, eq_comm]
  · simp [other]

/-- A request that declares `size` bytes of which `name` are the first. -/
def observeRequest (size : UInt8) (name : Bytes) : Bytes :=
  uint32Bytes requestMagic ++ [observeVersion, 0, size, 0] ++ name ++
    List.replicate (32 - name.length) 0

/-- A name followed by a declared NUL: unknown to Go, a thumb up to C. A
leading NUL: unknown to Go, an internal error to C. -/
theorem observation_differs_nul :
    handle stageObserve false (observeRequest 9 (cstr "thumb_up")) =
        (uint32Bytes responseMagic ++ uint32Bytes 0, moduleStatusOK) ∧
      aimeeModuleHandler stageObserve false (observeRequest 9 (cstr "thumb_up")) responseLen =
        (moduleStatusOK, uint32Bytes responseMagic ++ uint32Bytes sinkReranker) ∧
      ¬ Parity stageObserve false (observeRequest 9 (cstr "thumb_up")) responseLen ∧
      (handle stageObserve false (observeRequest 1 [])).2 = moduleStatusOK ∧
      (aimeeModuleHandler stageObserve false (observeRequest 1 []) responseLen).1 =
        moduleStatusInternal := by
  refine ⟨by decide +kernel, by decide +kernel, fun parity => ?_, by decide +kernel,
    by decide +kernel⟩
  exact absurd (parity.2 (by decide +kernel)) (by decide +kernel)

/-- A correction means the same on both sides. -/
theorem observation_parity_correction :
    Parity stageObserve false (observeRequest 10 (cstr "correction")) responseLen :=
  (observation_parity_iff false (le_refl responseLen)).mpr (.inr (.inr (by decide +kernel)))

end Requests

end AimeeLearning.Observe
