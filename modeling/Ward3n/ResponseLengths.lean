import Ward3n.ResponseDelivery
import Ward3n.UsbDescriptors

/-!
# How long a response gets

The device tells the host that its messages have at most
`dwMaxCCIDMessageLength` bytes. The driver does not look at that number: its
responses are as long as what they answer makes them, and only the answer to
SetParameters, which repeats the length it is given, can get longer.
-/

namespace ResponseLengths

open CellMemory MachineWords ApduCodec CryptoBackend PivApplet CcidDriver Firmware TracedRuns
  FirmwareSteps TransmitBuffer ResponseDelivery UsbDescriptors

section Headers

variable {msg msg' : Memory UInt8}

/-- The header of a message lies in its first ten bytes. -/
theorem readHeader_congr (h : Agree ccidHeaderLen msg msg') : readHeader msg = readHeader msg' := by
  have hlength : read (advance msg 1) 4 = read (advance msg' 1) 4 :=
    read_congr fun i hi => h (1 + i) (show 1 + i < 10 by omega)
  simp only [readHeader, hlength, h 0 (by decide), h 6 (by decide), h 9 (by decide)]

theorem readHeader_write (p q : Memory UInt8) {bytes : List UInt8}
    (hlen : ccidHeaderLen ≤ bytes.length) :
    readHeader (write p 0 bytes) = readHeader (write q 0 bytes) := by
  refine readHeader_congr fun i hi => ?_
  have hinside : i < bytes.length := Nat.lt_of_lt_of_le hi hlen
  simp only [write, Nat.zero_le, if_true, Nat.sub_zero, List.getElem?_eq_getElem hinside,
    Option.getD_some]

end Headers

section Responses

variable (k : Backend) (amb : Ambient) (s : Ccid) (card : Card) (msg : Memory UInt8) (msgLen : Nat)

/-- The answer to SetParameters is as long as the parameters it declares. -/
theorem parameters_responseLen (htype : (readHeader msg).messageType = pcToRdrSetParameters)
    (hlen : ccidHeaderLen ≤ msgLen) :
    (processMessage k amb s card msg msgLen).ccid.responseLen =
      ccidHeaderLen + parameterLength msg := by
  rw [processMessage_setParameters k amb s card msg msgLen htype hlen]
  simp only [queue, setParameters_eq]

/-- An APDU is answered with at most 256 bytes and a status word. -/
theorem xfrBlock_responseLen (htype : (readHeader msg).messageType = pcToRdrXfrBlock) :
    (processXfrBlock k amb s card msg msgLen).ccid.responseLen ≤ ccidHeaderLen + 258 := by
  by_cases hfwd : Forwards s msg msgLen
  · obtain ⟨r, _, hbody, hanswer⟩ := forward_answer k amb s card msg
    have hcount : (forward k amb s card msg).answer.length = r.body.length + 2 := by
      rw [← swBytes_length r.sw, ← List.length_append]
      exact congrArg List.length (hanswer s.txBuf)
    rw [Handled.answer, read_length] at hcount
    rw [processXfrBlock_forwards k amb s card msg msgLen hfwd]
    simp only [queue]
    omega
  · rw [processXfrBlock_refuses k amb s card msg msgLen htype hfwd]
    exact (by decide : ccidHeaderLen + 0 ≤ ccidHeaderLen + 258)

/-- Nothing but the answer to SetParameters is longer than the answer to an APDU. -/
theorem other_responseLen (hother : (readHeader msg).messageType ≠ pcToRdrSetParameters)
    (hlen : ccidHeaderLen ≤ msgLen) :
    (processMessage k amb s card msg msgLen).ccid.responseLen ≤ ccidHeaderLen + 258 := by
  have hheader : ccidHeaderLen ≤ ccidHeaderLen + 258 := by decide
  simp only [processMessage]
  simp only [if_neg (Nat.not_lt.mpr hlen)]
  repeat' split
  · exact (by decide : ccidHeaderLen + atr.length ≤ ccidHeaderLen + 258)
  · exact hheader
  · exact hheader
  · exact xfrBlock_responseLen k amb s card msg msgLen (by assumption)
  · exact hheader
  · exact (by decide : ccidHeaderLen + 8 ≤ ccidHeaderLen + 258)
  · exact hheader

end Responses

/-- The lengths the driver and the endpoint hold are within the limit. -/
structure Limited (limit : Nat) (s : State) : Prop where
  short : s.ccid.responsePending = true → s.ccid.responseLen ≤ limit
  within : ∀ t, s.inTransfer = some t → t.sent.length ≤ t.total ∧ t.total ≤ limit

/-- A response or a transfer is within the limit. -/
def Within (limit : Nat) : Observation → Prop
  | .response bytes | .transmitted bytes => bytes.length ≤ limit
  | _ => True

section Steps

variable {k : Backend} {limit : Nat} {s : State}

/-- The lengths stay within a limit that every new response keeps. -/
theorem limited_step (h : Limited limit s) (e : Event)
    (hmessage : ∀ bytes amb, e = .bulkOut bytes amb → ccidHeaderLen ≤ bytes.length →
      (processed k s bytes amb).ccid.responseLen ≤ limit) : Limited limit (step k s e).1 := by
  cases e with
  | bulkOut bytes amb =>
    by_cases hlen : ccidHeaderLen ≤ bytes.length
    · have hshort := hmessage bytes amb rfl hlen
      rw [step_message k s amb hlen]
      exact ⟨fun _ => hshort, h.within⟩
    · rw [step_fragment k s amb hlen]
      exact ⟨h.short, h.within⟩
  | inRead n =>
    simp only [step]
    cases hin : s.inTransfer with
    | none => exact h
    | some t =>
      refine ⟨h.short, fun t' ht' => ?_⟩
      cases ht'
      have hwithin := h.within t hin
      simp only [List.length_append, read_length]
      exact ⟨by omega, hwithin.2⟩
  | inComplete =>
    simp only [step]
    split
    · exact h
    · split
      · exact ⟨h.short, fun t ht => by cases ht⟩
      · exact h
  | ccidTask available =>
    simp only [step, ccidTask]
    by_cases hpending : s.ccid.responsePending = false
    · simp only [if_pos hpending]
      exact h
    simp only [if_neg hpending]
    by_cases hclaim : (available && s.inTransfer.isNone) = false
    · simp only [if_pos hclaim]
      exact h
    simp only [if_neg hclaim]
    have hshort := h.short (by simpa using hpending)
    refine ⟨(fun hno => by cases hno), fun t ht => ?_⟩
    cases ht
    exact ⟨Nat.zero_le _, Nat.le_trans (Nat.mod_le _ _) hshort⟩
  | busReset => exact ⟨(fun hno => by cases hno), fun t ht => by cases ht⟩
  | umount | gpioIrq | poll | tick => exact ⟨h.short, h.within⟩

theorem limited_boot : Limited limit boot :=
  ⟨(fun hno => by cases hno), fun t ht => by cases ht⟩

theorem within_aside {o : Observation} (h : Aside o) : Within limit o := by
  cases o with
  | response => cases h.1
  | transmitted => cases h.2
  | powerOn | powerOff | busReset | signCall | moved | exchange | fallingEdge | pressConfirmed =>
    trivial

/-- What a message shows besides its response has no length. -/
theorem within_messageObs {p : Processed} (hlen : p.ccid.responseLen ≤ limit) (now : Nat) :
    ∀ o ∈ messageObs s p now, Within limit o := by
  obtain ⟨hresponses, htransmitted⟩ := messageObs_responses s p now
  intro o ho
  cases o with
  | response bytes =>
    have hmem : bytes ∈ responses (messageObs s p now) := List.mem_filterMap.mpr ⟨_, ho, rfl⟩
    rw [hresponses, List.mem_singleton] at hmem
    rw [hmem, Within, Ccid.response, read_length]
    exact hlen
  | transmitted bytes =>
    have hmem : bytes ∈ ResponseDelivery.transmitted (messageObs s p now) :=
      List.mem_filterMap.mpr ⟨_, ho, rfl⟩
    rw [htransmitted] at hmem
    cases hmem
  | powerOn | powerOff | busReset | signCall | moved | exchange | fallingEdge | pressConfirmed =>
    trivial

theorem within_step (h : Limited limit s) (e : Event)
    (hmessage : ∀ bytes amb, e = .bulkOut bytes amb → ccidHeaderLen ≤ bytes.length →
      (processed k s bytes amb).ccid.responseLen ≤ limit) :
    ∀ o ∈ (step k s e).2, Within limit o := by
  cases e with
  | bulkOut bytes amb =>
    by_cases hlen : ccidHeaderLen ≤ bytes.length
    · rw [step_message k s amb hlen]
      exact within_messageObs (hmessage bytes amb rfl hlen) amb.now
    · rw [step_fragment k s amb hlen]
      intro o ho
      cases ho
  | inComplete =>
    simp only [step]
    split
    · intro o ho
      cases ho
    · rename_i t hin
      split
      · rename_i hall
        intro o ho
        rw [List.mem_singleton.mp ho, Within, hall]
        exact (h.within t hin).2
      · intro o ho
        cases ho
  | inRead n =>
    simp only [step]
    split <;>
    · intro o ho
      cases ho
  | ccidTask available =>
    simp only [step]
    split <;>
    · intro o ho
      cases ho
  | busReset =>
    intro o ho
    rw [List.mem_singleton.mp ho]
    trivial
  | umount now | tick now => exact fun o ho => within_aside (aside_movedObs o ho)
  | gpioIrq gpio now => exact forall_mem_ite trivial
  | poll sample =>
    intro o ho
    rcases List.mem_append.mp ho with ho | ho
    · exact forall_mem_ite (o := .pressConfirmed sample.stamp) trivial o ho
    · exact within_aside (aside_movedObs o ho)

end Steps

/-- The header of a message, whatever the receive buffer held. -/
def headerOf (bytes : List UInt8) : Header := readHeader (write (fun _ => 0) 0 bytes)

/-- A SetParameters message asks for an answer above the limit. -/
def Oversteps (bytes : List UInt8) : Prop :=
  ccidHeaderLen ≤ bytes.length ∧ (headerOf bytes).messageType = pcToRdrSetParameters ∧
    dwMaxCcidMessageLength < ccidHeaderLen + (headerOf bytes).dwLength ∧
    (headerOf bytes).dwLength ≤ ccidBufSize - ccidHeaderLen

/-- A message of a host that keeps to the limit, and sends the parameters it declares. -/
def Modest (bytes : List UInt8) : Prop :=
  bytes.length ≤ dwMaxCcidMessageLength ∧
    (ccidHeaderLen ≤ bytes.length → (headerOf bytes).messageType = pcToRdrSetParameters →
      ccidHeaderLen + (headerOf bytes).dwLength ≤ bytes.length)

section Runs

variable {k : Backend} {s : State} {bytes : List UInt8}

theorem received_header (hlen : ccidHeaderLen ≤ bytes.length) :
    readHeader (received s bytes) = headerOf bytes :=
  readHeader_write s.ccid.rxBuf (fun _ => 0) hlen

/-- A response is above the limit exactly if it was asked to be. -/
theorem responseLen_oversteps (amb : Ambient) (hlen : ccidHeaderLen ≤ bytes.length) :
    dwMaxCcidMessageLength < (processed k s bytes amb).ccid.responseLen ↔ Oversteps bytes := by
  have hheader : readHeader (received s bytes) = headerOf bytes := received_header hlen
  have hlimit : dwMaxCcidMessageLength = 271 := by decide
  have hten : ccidHeaderLen = 10 := rfl
  by_cases htype : (headerOf bytes).messageType = pcToRdrSetParameters
  · have hcount : (processed k s bytes amb).ccid.responseLen =
        ccidHeaderLen + parameterLength (received s bytes) :=
      parameters_responseLen k amb (receive s bytes) s.card (received s bytes) bytes.length
        (by rw [hheader, htype]) hlen
    rw [hcount, parameterLength, hheader]
    constructor
    · intro hover
      by_cases hbig : (headerOf bytes).dwLength > ccidBufSize - ccidHeaderLen
      · rw [if_pos hbig] at hover
        omega
      · rw [if_neg hbig] at hover
        exact ⟨hlen, htype, hover, Nat.le_of_not_lt hbig⟩
    · rintro ⟨_, _, hover, hsmall⟩
      rwa [if_neg (Nat.not_lt.mpr hsmall)]
  · have hshort : (processed k s bytes amb).ccid.responseLen ≤ ccidHeaderLen + 258 :=
      other_responseLen k amb (receive s bytes) s.card (received s bytes) bytes.length
        (by rwa [hheader]) hlen
    constructor
    · intro hover
      omega
    · rintro ⟨_, hno, _⟩
      exact absurd hno htype

theorem modest_within (h : Modest bytes) : ¬ Oversteps bytes := by
  rintro ⟨hlen, htype, hover, _⟩
  have hcarried := h.2 hlen htype
  exact absurd h.1 (by omega)

/-- While no message oversteps, the run keeps to the limit. -/
theorem run_within {es : List Event}
    (hkeep : ∀ bytes amb, Event.bulkOut bytes amb ∈ es → ¬ Oversteps bytes) :
    ∀ o ∈ history k es, Within dwMaxCcidMessageLength o := by
  have hguard : AllSteps (step k)
      (fun _ e => ∀ bytes amb, e = .bulkOut bytes amb → ¬ Oversteps bytes) boot es := by
    apply allSteps_of_mem
    rintro e he bytes amb rfl
    exact hkeep bytes amb he
  refine (guarded_history (h := [])
    (J := fun h s => Limited dwMaxCcidMessageLength s ∧
      ∀ o ∈ h, Within dwMaxCcidMessageLength o) ?_ ⟨limited_boot, ?_⟩ hguard).2
  · rintro h s e hmodest ⟨hlimited, hpast⟩
    have hmessage : ∀ bytes amb, e = .bulkOut bytes amb → ccidHeaderLen ≤ bytes.length →
        (processed k s bytes amb).ccid.responseLen ≤ dwMaxCcidMessageLength := by
      intro bytes amb heq hlen
      refine Nat.le_of_not_lt fun hover => ?_
      exact hmodest bytes amb heq ((responseLen_oversteps amb hlen).mp hover)
    refine ⟨limited_step hlimited e hmessage, fun o ho => ?_⟩
    rcases List.mem_append.mp ho with ho | ho
    · exact hpast o ho
    · exact within_step hlimited e hmessage o ho
  · intro o ho
    cases ho

/-- Along every run, everything the driver answers and sends is within the length the device
tells the host, exactly if no SetParameters message declares parameters that go beyond it. A host
that keeps to that length itself, and sends the parameters it declares, sees nothing longer. -/
theorem advertised_length_kept (k : Backend) (es : List Event) :
    ((∀ o ∈ history k es, Within dwMaxCcidMessageLength o) ↔
        ∀ bytes amb, Event.bulkOut bytes amb ∈ es → ¬ Oversteps bytes) ∧
      ((∀ bytes amb, Event.bulkOut bytes amb ∈ es → Modest bytes) →
        ∀ o ∈ history k es, Within dwMaxCcidMessageLength o) := by
  refine ⟨⟨?_, run_within⟩, fun hmodest => run_within fun bytes amb he =>
    modest_within (hmodest bytes amb he)⟩
  intro hall bytes amb he hover
  obtain ⟨before, after, rfl⟩ := List.append_of_mem he
  have hlen := hover.1
  have hresponse : Observation.response (processed k (run k before) bytes amb).ccid.response ∈
      history k (before ++ .bulkOut bytes amb :: after) := by
    rw [history_append, List.mem_append]
    refine Or.inr ?_
    rw [trace, step_message k (run k before) amb hlen]
    simp [messageObs]
  have hwithin := hall _ hresponse
  rw [Within, Ccid.response, read_length] at hwithin
  exact absurd ((responseLen_oversteps amb hlen).mpr hover) (Nat.not_lt.mpr hwithin)

end Runs

end ResponseLengths
