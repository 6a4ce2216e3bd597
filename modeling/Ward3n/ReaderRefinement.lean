import Ward3n.FirmwareSteps
import Ward3n.ResponseDelivery
import Ward3n.StepSimulation
import Ward3n.TokenRefinement

/-!
# The firmware refines the reader

A host that sends well-formed messages, carrying encoded commands, sees the
abstract reader: the same responses byte for byte and the same calls of the
signature function, in the same order, along every run of the firmware. The
buffers, the pending response, the state of the IN endpoint and the moments at
which the loop gets to its calls do not show.
-/

namespace ReaderRefinement

open CellMemory MachineWords ApduCodec CryptoBackend DeviceState UserButton PivApplet CcidDriver
  Firmware TracedRuns StepSimulation ShortApdus AppletEffects FirmwareSteps TransmitBuffer
  ResponseDelivery ReaderSpecification TokenRefinement

/-- A message as the dispatcher finds it in the receive buffer. -/
structure Arrived (msg : Memory UInt8) (m : Message) : Prop where
  header : readHeader msg =
    { messageType := m.request.messageType, dwLength := m.request.payload.length, seq := m.seq,
      specific2 := m.request.specific2 }
  payload : read (advance msg ccidHeaderLen) m.request.payload.length = m.request.payload

/-- The driver and the card behind a message, and what was seen meanwhile, are those of the
reader. -/
structure Performs (p : Processed) (now : Nat) (out : Reader × List Sight) : Prop where
  powered : p.ccid.iccPowered = out.1.powered
  token : Holds p.card out.1.token
  sights : p.signed.toList.map (Sight.signCall now) ++ [.response p.ccid.response] = out.2

section Messages

theorem command_length (c : ShortCommand) : 4 ≤ c.bytes.length ∧ c.bytes.length ≤ 261 := by
  have hshort := c.data_short
  have hle : (leBytes c.le).length ≤ 1 := by
    rw [leBytes, List.length_map]
    cases c.le <;> simp
  have hbody : (bodyBytes c.data).length ≤ 256 := by
    cases hdata : c.data with
    | nil => exact Nat.zero_le _
    | cons b data =>
      rw [hdata, List.length_cons] at hshort
      simp only [bodyBytes, List.length_cons]
      omega
  simp only [ShortCommand.bytes, List.length_append, List.length_cons, List.length_nil]
  omega

theorem payload_length (q : Request) : q.payload.length ≤ 502 := by
  cases q with
  | xfrBlock c => exact Nat.le_trans (command_length c).2 (by decide)
  | setParameters _ _ fits | setDataRateAndClock _ fits | other _ _ fits => exact fits
  | iccPowerOn | iccPowerOff | getSlotStatus | abort => exact Nat.zero_le _

theorem message_length (m : Message) :
    m.bytes.length = ccidHeaderLen + m.request.payload.length := by
  simp only [Message.bytes, List.length_append, toBytes_length, List.length_cons, List.length_nil]
  have hheader : ccidHeaderLen = 10 := rfl
  omega

theorem arrived_write (rx : Memory UInt8) (m : Message) : Arrived (write rx 0 m.bytes) m := by
  have hread := read_write_zero rx m.bytes
  generalize hraw : write rx 0 m.bytes = msg at hread
  have hlen := payload_length m.request
  have htype : msg 0 = m.request.messageType := cell_of_read hread rfl
  have hseq : msg 6 = m.seq := cell_of_read hread rfl
  have hlast : msg 9 = m.request.specific2 := cell_of_read hread rfl
  have hcount : read (advance msg 1) 4 = toBytes 4 m.request.payload.length := by
    have hsplit : read msg m.bytes.length = [m.request.messageType] ++
        toBytes 4 m.request.payload.length ++
          ([0, m.seq, 0, 0, m.request.specific2] ++ m.request.payload) :=
      hread.trans (by simp only [Message.bytes, List.append_assoc])
    have hblock := read_between hsplit
    rwa [toBytes_length] at hblock
  constructor
  · simp only [readHeader, htype, hseq, hlast, hcount]
    rw [ofBytes_toBytes_of_lt (by omega)]
  · have hsplit : read msg m.bytes.length = [m.request.messageType] ++
        toBytes 4 m.request.payload.length ++ [0, m.seq, 0, 0, m.request.specific2] ++
          m.request.payload ++ [] := hread.trans (List.append_nil _).symm
    have hblock := read_between hsplit
    rwa [List.length_append, List.length_append, toBytes_length] at hblock

end Messages

section Performing

variable {k : Backend} {amb : Ambient} {s : Ccid} {card : Card} {msg : Memory UInt8} {m : Message}
  {r : Reader}

/-- A message that only builds a response. -/
theorem performs_queue {response : Memory UInt8 × Nat} {bytes : List UInt8} {r' : Reader}
    (hpowered : s.iccPowered = r'.powered) (hold : Holds card r'.token)
    (hbytes : read response.1 response.2 = bytes) :
    Performs { ccid := queue s response, card := card, exchange := none, signed := none } amb.now
      (r', [.response bytes]) :=
  ⟨hpowered, hold, congrArg (fun b => [Sight.response b]) hbytes⟩

theorem holds_init (hold : Holds card r.token) :
    Holds { card with piv := pivInit card.piv } r.token.reset :=
  ⟨rfl, rfl, rfl, hold.phase⟩

/-- The answer to SetDataRateAndClockFrequency, on a message that carries what it declares. -/
theorem setDataRateAndClock_exact (out : Memory UInt8) (harrived : Arrived msg m) :
    read (setDataRateAndClock out msg (ccidHeaderLen + m.request.payload.length)).1
        (setDataRateAndClock out msg (ccidHeaderLen + m.request.payload.length)).2 =
      headerBytes rdrToPcDataRateAndClock 8 m.seq (cmdOk ||| iccActive) 0 0 ++
        if 8 ≤ m.request.payload.length then m.request.payload.take 8 else defaultRates := by
  have hlen := headerBytes_length rdrToPcDataRateAndClock 8 m.seq (cmdOk ||| iccActive) 0 0
  simp only [setDataRateAndClock, harrived.header]
  by_cases hlong : 8 ≤ m.request.payload.length
  · have hecho : m.request.payload.length ≥ 8 ∧
        ccidHeaderLen + 8 ≤ ccidHeaderLen + m.request.payload.length := by omega
    have hbody : read (advance msg ccidHeaderLen) 8 = m.request.payload.take 8 := by
      rw [← read_take _ hlong, harrived.payload]
    simp only [if_pos hecho, if_pos hlong, ← hbody]
    have hblock := read_block out hlen (read (advance msg ccidHeaderLen) 8)
    rwa [read_length] at hblock
  · have hecho : ¬ (m.request.payload.length ≥ 8 ∧
        ccidHeaderLen + 8 ≤ ccidHeaderLen + m.request.payload.length) := fun h => hlong h.1
    simp only [if_neg hecho, if_neg hlong]
    rw [defaultRates, ← List.append_assoc, ← read_block out hlen]
    exact read_write_append _ (ccidHeaderLen + 4) (toBytes 4 0x000025CD)

theorem xfrBlock_performs {c : ShortCommand} (hrequest : m.request = .xfrBlock c)
    (harrived : Arrived msg m) (hwhole : Whole c) (hpowered : s.iccPowered = r.powered)
    (hold : Holds card r.token) :
    Performs (processXfrBlock k amb s card msg (ccidHeaderLen + c.bytes.length)) amb.now
      (r.xfrBlock m.seq (objects k) (signer k amb) amb.now c) := by
  have hlen := command_length c
  have hheader := harrived.header
  have hpayload := harrived.payload
  rw [hrequest] at hheader hpayload
  have htype : (readHeader msg).messageType = pcToRdrXfrBlock := congrArg Header.messageType hheader
  have hcount : (readHeader msg).dwLength = c.bytes.length := congrArg Header.dwLength hheader
  have hseq : (readHeader msg).seq = m.seq := congrArg Header.seq hheader
  have hsum : add32 ccidHeaderLen c.bytes.length = ccidHeaderLen + c.bytes.length := by
    have hten : ccidHeaderLen = 10 := rfl
    exact add32_of_lt (by omega)
  simp only [Reader.xfrBlock]
  by_cases hoff : r.powered = false
  · have hfwd : ¬ Forwards s msg (ccidHeaderLen + c.bytes.length) := by
      rintro ⟨_, hon, _⟩
      rw [hpowered, hoff] at hon
      cases hon
    rw [if_pos hoff, processXfrBlock_refuses k amb s card msg _ htype hfwd, hseq, hpowered, hoff]
    refine performs_queue (hpowered.trans rfl) hold ?_
    rw [makeDataBlock_bytes, List.append_nil]
    rfl
  · have hfwd : Forwards s msg (ccidHeaderLen + c.bytes.length) := by
      refine ⟨htype, hpowered.trans (by simpa using hoff), ?_, ?_⟩
      · omega
      · rw [hcount, hsum]
    obtain ⟨htoken, hbytes, hsigned⟩ : Answers (forward k amb s card msg)
        (r.token.answer c (objects k) (signer k amb) amb.now) := by
      rw [forward, hcount]
      exact pivProcessApdu_answers hpayload hwhole hold
    have hresponse := forwarded_response k amb s card msg (ccidHeaderLen + c.bytes.length) hfwd
    rw [hseq, hbytes] at hresponse
    rw [if_neg hoff]
    rw [processXfrBlock_forwards k amb s card msg _ hfwd] at hresponse ⊢
    exact ⟨hpowered, htoken, by rw [hsigned, hresponse]⟩

/-- What the dispatcher makes of a message is what the reader makes of it. -/
theorem processMessage_performs (harrived : Arrived msg m)
    (hwhole : ∀ c, m.request = .xfrBlock c → Whole c) (hpowered : s.iccPowered = r.powered)
    (hold : Holds card r.token) :
    Performs (processMessage k amb s card msg m.bytes.length) amb.now
      (r.receive (objects k) (signer k amb) amb.now m) := by
  have hlen : ccidHeaderLen ≤ m.bytes.length := by
    rw [message_length]
    exact Nat.le_add_right _ _
  have hseq : (readHeader msg).seq = m.seq := congrArg Header.seq harrived.header
  have htype : (readHeader msg).messageType = m.request.messageType :=
    congrArg Header.messageType harrived.header
  have hslot : ∀ cmdStatus, read
      (makeSlotStatus s.iccPowered s.txBuf (readHeader msg).seq cmdStatus 0 0).1
      (makeSlotStatus s.iccPowered s.txBuf (readHeader msg).seq cmdStatus 0 0).2 =
        r.slotStatus m.seq cmdStatus := by
    intro cmdStatus
    rw [makeSlotStatus_bytes, List.append_nil, hseq, hpowered]
    rfl
  simp only [Reader.receive]
  cases hrequest : m.request with
  | xfrBlock c =>
    rw [hrequest] at htype
    rw [processMessage_xfrBlock k amb s card msg _ htype hlen, message_length, hrequest]
    exact xfrBlock_performs hrequest harrived (hwhole c hrequest) hpowered hold
  | setParameters protocolNum parameters fits =>
    have hcount := harrived.header
    have hbody := harrived.payload
    rw [hrequest] at htype hcount hbody
    have hdw : (readHeader msg).dwLength = parameters.length := congrArg Header.dwLength hcount
    have hplen : parameterLength msg = parameters.length := by
      have hsize : ccidBufSize - ccidHeaderLen = 502 := rfl
      rw [parameterLength, if_neg (by omega), hdw]
    have hfull : ¬ ShortParameters msg m.bytes.length := by
      rintro ⟨_, _, _, hshort⟩
      rw [message_length, hrequest, hdw] at hshort
      exact Nat.lt_irrefl _ hshort
    rw [processMessage_setParameters k amb s card msg _ htype hlen]
    refine performs_queue hpowered hold ?_
    rw [setParameters_bytes s.txBuf htype hfull, parametersHeader, hplen, hseq,
      congrArg Header.specific2 hcount]
    exact congrArg (_ ++ ·) hbody
  | setDataRateAndClock rates fits =>
    have hexact := setDataRateAndClock_exact s.txBuf harrived
    rw [hrequest] at htype hexact
    rw [processMessage_setDataRateAndClock k amb s card msg _ htype hlen, message_length, hrequest]
    exact performs_queue hpowered hold hexact
  | iccPowerOn =>
    rw [hrequest] at htype
    have hbytes := makeDataBlock_bytes true s.txBuf (readHeader msg).seq cmdOk 0 atr
    simp only [processMessage, htype]
    rw [if_neg (Nat.not_lt.mpr hlen)]
    refine performs_queue rfl (holds_init hold) ?_
    rw [← hseq]
    exact hbytes
  | iccPowerOff =>
    rw [hrequest] at htype
    have hbytes := makeSlotStatus_bytes false s.txBuf (readHeader msg).seq cmdOk 0 0
    simp only [processMessage, htype]
    rw [if_neg (Nat.not_lt.mpr hlen)]
    refine performs_queue rfl hold ?_
    rw [← hseq]
    exact hbytes.trans (List.append_nil _)
  | getSlotStatus | abort =>
    rw [hrequest] at htype
    simp only [processMessage, htype]
    rw [if_neg (Nat.not_lt.mpr hlen)]
    exact performs_queue hpowered hold (hslot cmdOk)
  | other messageType payload fits unknown =>
    have hother : (readHeader msg).messageType = messageType := by rw [htype, hrequest]; rfl
    simp only [knownTypes, List.mem_cons, List.not_mem_nil, or_false, not_or] at unknown
    obtain ⟨h1, h2, h3, h4, h5, h6, h7⟩ := unknown
    simp only [processMessage, hother]
    rw [if_neg (Nat.not_lt.mpr hlen), if_neg h1, if_neg h2, if_neg h3, if_neg h4, if_neg h5,
      if_neg h6, if_neg h7]
    exact performs_queue hpowered hold (hslot cmdFailed)

end Performing

/-- What happens to the firmware of a well-behaved host: a whole message, or anything that
carries none. -/
inductive Happening
  | message (m : Message) (amb : Ambient)
  | other (e : Event) (quiet : ∀ bytes amb, e = .bulkOut bytes amb → bytes.length < ccidHeaderLen)

def Happening.event : Happening → Event
  | .message m amb => .bulkOut m.bytes amb
  | .other e _ => e

/-- The commands it carries hold the tags they declare. -/
def Happening.Whole : Happening → Prop
  | .message m _ => ∀ c, m.request = .xfrBlock c → TokenRefinement.Whole c
  | .other .. => True

/-- The part of an event that concerns the reader. -/
def noticed : Event → List Occurrence
  | .busReset => [.busReset]
  | .umount _ => [.unplugged]
  | .gpioIrq gpio now => [.edge gpio now]
  | .poll sample => [.poll sample]
  | .tick now => [.tick now]
  | _ => []

def occurrences (k : Backend) : Happening → List Occurrence
  | .message m amb => [.message m amb.now (signer k amb)]
  | .other e _ => noticed e

def sight : Observation → Option Sight
  | .response bytes => some (.response bytes)
  | .signCall now hash => some (.signCall now hash)
  | _ => none

/-- The firmware is in a state of the reader. -/
structure Models (s : State) (r : Reader) : Prop where
  powered : s.ccid.iccPowered = r.powered
  button : s.button = r.button
  token : Holds s.card r.token

section Steps

variable {k : Backend} {s : State} {r : Reader}

theorem sight_movedObs (d d' : Device) (now : Nat) : (movedObs d d' now).filterMap sight = [] := by
  refine List.filterMap_eq_nil_iff.mpr fun o ho => ?_
  rw [(mem_movedObs ho).2]
  rfl

theorem messageObs_sights (s : State) (p : Processed) (now : Nat) :
    (messageObs s p now).filterMap sight =
      p.signed.toList.map (Sight.signCall now) ++ [.response p.ccid.response] := by
  have hpower : (powerObs (readHeader p.ccid.rxBuf).messageType).filterMap sight = [] := by
    simp only [powerObs]
    repeat' split
    all_goals rfl
  have hexchange : (p.exchange.toList.map Observation.exchange).filterMap sight = [] := by
    cases p.exchange <;> rfl
  have hsigned : (p.signed.toList.map fun hash => Observation.signCall now hash).filterMap sight =
      p.signed.toList.map (Sight.signCall now) := by
    cases p.signed <;> rfl
  simp only [messageObs, List.filterMap_append, hpower, hexchange, hsigned, sight_movedObs,
    List.nil_append, List.append_nil]
  rfl

theorem message_follows (hmodels : Models s r) (m : Message) (amb : Ambient)
    (hwhole : (Happening.message m amb).Whole) :
    Models (step k s (.bulkOut m.bytes amb)).1
        (r.receive (objects k) (signer k amb) amb.now m).1 ∧
      (step k s (.bulkOut m.bytes amb)).2.filterMap sight =
        (r.receive (objects k) (signer k amb) amb.now m).2 := by
  have hlen : ccidHeaderLen ≤ m.bytes.length := by
    rw [message_length]
    exact Nat.le_add_right _ _
  have hperforms : Performs (processed k s m.bytes amb) amb.now
      (r.receive (objects k) (signer k amb) amb.now m) :=
    processMessage_performs (arrived_write s.ccid.rxBuf m) hwhole hmodels.powered hmodels.token
  have hbutton : (r.receive (objects k) (signer k amb) amb.now m).1.button = r.button := by
    simp only [Reader.receive, Reader.xfrBlock]
    repeat' split
    all_goals rfl
  rw [step_message k s amb hlen, messageObs_sights]
  exact ⟨⟨hperforms.powered, hmodels.button.trans hbutton.symm, hperforms.token⟩,
    hperforms.sights⟩

/-- A poll passes a confirmed press on, and nothing else. -/
theorem poll_follows (hmodels : Models s r) (sample : Sample) :
    Models (step k s (.poll sample)).1 (r.step (objects k) (.poll sample)).1 ∧
      (step k s (.poll sample)).2.filterMap sight = [] := by
  have hdevice := (poll_device s.button s.card.dev DeviceState.atReset sample).2
  simp only [step, Reader.step, ← hmodels.button]
  rcases poll_cases s.button s.card.dev sample with ⟨hconfirms, heq⟩ | ⟨hconfirms, b', heq, _⟩
  · rw [heq] at hdevice ⊢
    refine ⟨⟨hmodels.powered, hdevice, ?_⟩, ?_⟩
    · rw [if_pos hconfirms]
      exact hmodels.token.with_phase (inPhase_press hmodels.token.phase sample.stamp)
    · rw [List.filterMap_append, sight_movedObs]
      rfl
  · rw [heq] at hdevice ⊢
    refine ⟨⟨hmodels.powered, hdevice, ?_⟩, ?_⟩
    · rw [if_neg hconfirms]
      exact hmodels.token
    · rw [List.filterMap_append, sight_movedObs]
      rfl

/-- What carries no message is noticed by the reader, or passes it by. -/
theorem other_follows (hmodels : Models s r) (e : Event)
    (quiet : ∀ bytes amb, e = .bulkOut bytes amb → bytes.length < ccidHeaderLen) :
    Models (step k s e).1 (exec (Reader.step (objects k)) r (noticed e)) ∧
      (step k s e).2.filterMap sight = [] := by
  cases e with
  | bulkOut bytes amb =>
    rw [step_fragment k s amb (Nat.not_le.mpr (quiet bytes amb rfl))]
    exact ⟨⟨hmodels.powered, hmodels.button, hmodels.token⟩, rfl⟩
  | inRead n =>
    simp only [step]
    split <;> exact ⟨⟨hmodels.powered, hmodels.button, hmodels.token⟩, rfl⟩
  | inComplete =>
    simp only [step]
    split
    · exact ⟨hmodels, rfl⟩
    · split <;> exact ⟨⟨hmodels.powered, hmodels.button, hmodels.token⟩, rfl⟩
  | ccidTask available =>
    have hpowered := ccidTask_powered s.ccid (available && s.inTransfer.isNone)
    simp only [step]
    split <;>
      exact ⟨⟨hpowered.trans hmodels.powered, hmodels.button, hmodels.token⟩, rfl⟩
  | busReset => exact ⟨⟨rfl, hmodels.button, hmodels.token⟩, rfl⟩
  | umount now =>
    exact ⟨⟨hmodels.powered, hmodels.button, hmodels.token.with_phase (inPhase_init _)⟩,
      sight_movedObs _ _ _⟩
  | gpioIrq gpio now =>
    refine ⟨⟨hmodels.powered, congrArg (UserButton.gpioIrq · gpio now) hmodels.button,
      hmodels.token⟩, ?_⟩
    simp only [step]
    split <;> rfl
  | poll sample => exact poll_follows hmodels sample
  | tick now =>
    exact ⟨⟨hmodels.powered, hmodels.button,
      hmodels.token.with_phase (inPhase_tick hmodels.token.phase now)⟩, sight_movedObs _ _ _⟩

/-- The reader follows the firmware, happening by happening. -/
theorem reader_follows (k : Backend) :
    Follows (fun s (h : Happening) => step k s h.event) (Reader.step (objects k)) (occurrences k)
      sight some (fun _ h => h.Whole) Models where
  next := by
    intro s r h hmodels hwhole
    cases h with
    | message m amb => exact (message_follows hmodels m amb hwhole).1
    | other e quiet => exact (other_follows hmodels e quiet).1
  shows := by
    intro s r h hmodels hwhole
    cases h with
    | message m amb =>
      rw [List.filterMap_some, occurrences, trace, trace_nil, List.append_nil]
      exact (message_follows hmodels m amb hwhole).2
    | other e quiet =>
      refine (other_follows hmodels e quiet).2.trans ?_
      cases e <;> rfl

theorem models_boot : Models boot Reader.atBoot := ⟨rfl, rfl, rfl, rfl, rfl, rfl⟩

end Steps

section Runs

variable (k : Backend) {s : State} {r : Reader} {hs : List Happening}

/-- What is seen along a run is what the reader shows. -/
theorem trace_sights (hmodels : Models s r) (hwhole : ∀ h ∈ hs, h.Whole) :
    (trace (step k) s (hs.map Happening.event)).filterMap sight =
      trace (Reader.step (objects k)) r (hs.flatMap (occurrences k)) := by
  have hshown := ((reader_follows k).run hmodels (allSteps_of_mem hwhole s)).2
  rwa [List.filterMap_some, ← trace_map] at hshown

/-- A run ends in a state of the reader. -/
theorem exec_models (hmodels : Models s r) (hwhole : ∀ h ∈ hs, h.Whole) :
    Models (exec (step k) s (hs.map Happening.event))
      (exec (Reader.step (objects k)) r (hs.flatMap (occurrences k))) := by
  have hend := ((reader_follows k).run hmodels (allSteps_of_mem hwhole s)).1
  rwa [← exec_map] at hend

end Runs

/-- SELECT of the PIV AID. -/
def selectCommand : ShortCommand :=
  { cla := 0x00, ins := 0xA4, p1 := 0x04, p2 := 0x00, data := pivAid, le := none,
    data_short := Nat.le_of_ble_eq_true rfl,
    le_range := fun n h => absurd h (Option.not_mem_none n) }

/-- Power on, SELECT, and the endpoint at work in between. -/
def selection : List Happening :=
  [.message ⟨1, .iccPowerOn⟩ (ambientAt 0), .other (.ccidTask true) (by rintro _ _ ⟨⟩),
    .other (.inRead 64) (by rintro _ _ ⟨⟩), .other .inComplete (by rintro _ _ ⟨⟩),
    .message ⟨2, .xfrBlock selectCommand⟩ (ambientAt 5)]

theorem selection_whole : ∀ h ∈ selection, h.Whole := by
  intro h hmem
  simp only [selection, List.mem_cons, List.not_mem_nil, or_false] at hmem
  rcases hmem with rfl | rfl | rfl | rfl | rfl
  · rintro c ⟨⟩
  · trivial
  · trivial
  · trivial
  · rintro c ⟨⟩ hno
    exact absurd hno (by decide)

/-- GET DATA for the discovery object, sixteen bytes of it. -/
def discoveryCommand : ShortCommand :=
  { cla := 0x00, ins := 0xCB, p1 := 0x3F, p2 := 0xFF, data := [0x5C, 0x01, 0x7E], le := some 16,
    data_short := Nat.le_of_ble_eq_true rfl, le_range := fun n h => by cases h; decide }

def restCommand : ShortCommand :=
  { cla := 0x00, ins := 0xC0, p1 := 0x00, p2 := 0x00, data := [], le := some 16,
    data_short := Nat.zero_le 255, le_range := fun n h => by cases h; decide }

/-- The selection, and an object in two parts. -/
def fetching : List Happening :=
  selection ++ [.message ⟨3, .xfrBlock discoveryCommand⟩ (ambientAt 10),
    .message ⟨4, .xfrBlock restCommand⟩ (ambientAt 15)]

theorem fetching_whole : ∀ h ∈ fetching, h.Whole := by
  intro h hmem
  rcases List.mem_append.mp hmem with hmem | hmem
  · exact selection_whole h hmem
  simp only [List.mem_cons, List.not_mem_nil, or_false] at hmem
  rcases hmem with rfl | rfl
  · rintro c ⟨⟩ _ hno
    exact absurd hno (by decide)
  · rintro c ⟨⟩ hno
    exact absurd hno (by decide)

end ReaderRefinement
