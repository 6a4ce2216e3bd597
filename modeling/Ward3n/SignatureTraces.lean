import Ward3n.BufferConfinement
import Ward3n.DeviceLife

/-!
# What a signature leaves behind

One firmware with two signature primitives, which need not have anything in
common, not even the length of a signature or whether there is one.

The answer to an APDU that was signed differs, and with it the transmit buffer,
the pending response and the transfer that brings it out. A longer signature
also takes more packets, and what follows on the endpoint comes at another
moment: until the bus is reset the endpoints are out of step. Nothing else
differs. The only message that shows what an earlier one left in the transmit
buffer is a SetParameters request that declares more than it carries.
-/

namespace SignatureTraces

open CellMemory TracedRuns ApduCodec CryptoBackend DeviceState UserButton PivApplet CcidDriver
  Firmware AppletEffects FirmwareSteps TransmitBuffer ResponseLengths BufferConfinement
  DeviceLife

/-- Two primitives give the same signature of this hash, if it is one. -/
def SignsAlike (pk pk' : PkSign) (hash : List UInt8) : Prop :=
  hash.length = 32 → pk.run hash 72 = pk'.run hash 72

section Applet

variable (k : Backend) (amb : Ambient) (pk : PkSign) (card : Card)

/-- Two outcomes that differ at most in the answer, and only if there were two signatures. -/
structure UpToSignature (pk pk' : PkSign) (h h' : Handled) : Prop where
  card : h.card = h'.card
  signed : h.signed = h'.signed
  same : (∀ hash, h.signed = some hash → SignsAlike pk pk' hash) → h = h'

theorem upToSignature_refl (pk pk' : PkSign) (h : Handled) : UpToSignature pk pk' h h :=
  ⟨rfl, rfl, fun _ => rfl⟩

theorem cryptoSign_alike {pk pk' : PkSign} {hash : List UInt8} (h : SignsAlike pk pk' hash)
    (keyRef alg : UInt8) :
    cryptoSign k pk keyRef alg hash 72 = cryptoSign k pk' keyRef alg hash 72 := by
  by_cases hlen : hash.length = 32
  · simp only [cryptoSign, h hlen]
  · rw [cryptoSign_of_length_ne k pk keyRef alg hlen, cryptoSign_of_length_ne k pk' keyRef alg hlen]

/-- The end of GENERAL AUTHENTICATE, with or without a signature. -/
def signedEnd (card : Card) (r : ApduResp) (hash sig : List UInt8) : Handled :=
  if sig.length = 0 then { finish card r swUnknown with signed := some hash }
  else { finish card (pushSignature r sig) swOk with signed := some hash }

theorem signedEnd_signer {pk pk' : PkSign} (card : Card) (r : ApduResp) (hash : List UInt8)
    {sig sig' : List UInt8} (hsig : SignsAlike pk pk' hash → sig = sig') :
    UpToSignature pk pk' (signedEnd card r hash sig) (signedEnd card r hash sig') := by
  have hsigned : ∀ sig, (signedEnd card r hash sig).signed = some hash := by
    intro sig
    simp only [signedEnd]
    split <;> rfl
  have hcard : ∀ sig, (signedEnd card r hash sig).card = card := by
    intro sig
    simp only [signedEnd]
    split <;> rfl
  refine ⟨?_, ?_, fun halike => ?_⟩
  · rw [hcard, hcard]
  · rw [hsigned, hsigned]
  · rw [hsig (halike hash (hsigned sig))]

theorem handleGeneralAuthenticate_signer (cmd : ApduCmd) (out : Memory UInt8) (outCap : Nat) :
    UpToSignature amb.pkSign pk (handleGeneralAuthenticate k amb card cmd out outCap)
      (handleGeneralAuthenticate k { amb with pkSign := pk } card cmd out outCap) := by
  simp only [handleGeneralAuthenticate]
  split
  · exact upToSignature_refl _ _ _
  split
  · exact upToSignature_refl _ _ _
  split
  · exact upToSignature_refl _ _ _
  exact signedEnd_signer _ _ _ fun halike => cryptoSign_alike k halike cmd.p2 cmd.p1

theorem handleSelected_signer (cmd : ApduCmd) (out : Memory UInt8) (outCap : Nat) :
    UpToSignature amb.pkSign pk (handleSelected k amb card cmd out outCap)
      (handleSelected k { amb with pkSign := pk } card cmd out outCap) := by
  simp only [handleSelected]
  iterate 3
    split
    · exact upToSignature_refl _ _ _
  split
  · exact handleGeneralAuthenticate_signer k amb pk card cmd out outCap
  · exact upToSignature_refl _ _ _

theorem pivProcessApdu_signer (apduIn : Memory UInt8) (inLen : Nat) (apduOut : Memory UInt8)
    (outCap : Nat) :
    UpToSignature amb.pkSign pk (pivProcessApdu k amb card apduIn inLen apduOut outCap)
      (pivProcessApdu k { amb with pkSign := pk } card apduIn inLen apduOut outCap) := by
  simp only [pivProcessApdu]
  iterate 4
    split
    · exact upToSignature_refl _ _ _
  exact handleSelected_signer k amb pk card _ apduOut outCap

end Applet

section Driver

variable (k : Backend) (amb : Ambient) (pk : PkSign) (s : Ccid) (card : Card) (msg : Memory UInt8)
  (msgLen : Nat)

/-- The same for a message. -/
structure MessageUpToSignature (pk pk' : PkSign) (p q : Processed) : Prop where
  powered : p.ccid.iccPowered = q.ccid.iccPowered
  rxBuf : p.ccid.rxBuf = q.ccid.rxBuf
  card : p.card = q.card
  signed : p.signed = q.signed
  same : (∀ hash, p.signed = some hash → SignsAlike pk pk' hash) → p = q

theorem messageUpToSignature_refl (pk pk' : PkSign) (p : Processed) :
    MessageUpToSignature pk pk' p p :=
  ⟨rfl, rfl, rfl, rfl, fun _ => rfl⟩

theorem queue_signer {pk pk' : PkSign} {h h' : Handled} (happlet : UpToSignature pk pk' h h')
    {a b : Memory UInt8 × Nat} {x y : Exchange} (hsame : h = h' → a = b ∧ x = y) :
    MessageUpToSignature pk pk'
      { ccid := queue s a, card := h.card, exchange := some x, signed := h.signed }
      { ccid := queue s b, card := h'.card, exchange := some y, signed := h'.signed } := by
  refine ⟨rfl, rfl, happlet.card, happlet.signed, fun halike => ?_⟩
  obtain ⟨rfl, rfl⟩ := hsame (happlet.same halike)
  rw [happlet.same halike]

theorem processXfrBlock_signer (htype : (readHeader msg).messageType = pcToRdrXfrBlock) :
    MessageUpToSignature amb.pkSign pk (processXfrBlock k amb s card msg msgLen)
      (processXfrBlock k { amb with pkSign := pk } s card msg msgLen) := by
  by_cases hfwd : Forwards s msg msgLen
  · have happlet : UpToSignature amb.pkSign pk (forward k amb s card msg)
        (forward k { amb with pkSign := pk } s card msg) := pivProcessApdu_signer ..
    rw [processXfrBlock_forwards k amb s card msg msgLen hfwd,
      processXfrBlock_forwards k { amb with pkSign := pk } s card msg msgLen hfwd]
    refine queue_signer s happlet fun hsame => ?_
    rw [hsame]
    exact ⟨rfl, rfl⟩
  · rw [processXfrBlock_refuses k amb s card msg msgLen htype hfwd,
      processXfrBlock_refuses k { amb with pkSign := pk } s card msg msgLen htype hfwd]
    exact messageUpToSignature_refl _ _ _

theorem processMessage_signer :
    MessageUpToSignature amb.pkSign pk (processMessage k amb s card msg msgLen)
      (processMessage k { amb with pkSign := pk } s card msg msgLen) := by
  simp only [processMessage]
  iterate 4
    split
    · exact messageUpToSignature_refl _ _ _
  split
  · exact processXfrBlock_signer k amb pk s card msg msgLen (by assumption)
  · exact messageUpToSignature_refl _ _ _

/-- Two drivers show the same, and go on with the same flags. -/
structure ShowsAlike (p q : Processed) : Prop where
  powered : p.ccid.iccPowered = q.ccid.iccPowered
  rxBuf : p.ccid.rxBuf = q.ccid.rxBuf
  card : p.card = q.card
  signed : p.signed = q.signed
  exchange : p.exchange = q.exchange

/-- The response that is queued makes no difference. -/
theorem queue_alike {c c' : Ccid} (hpowered : c.iccPowered = c'.iccPowered)
    (hrx : c.rxBuf = c'.rxBuf) (a b : Memory UInt8 × Nat) :
    ShowsAlike { ccid := queue c a, card := card, exchange := none, signed := none }
      { ccid := queue c' b, card := card, exchange := none, signed := none } :=
  ⟨hpowered, hrx, rfl, rfl, rfl⟩

theorem forwards_same {c c' : Ccid} (hpowered : c.iccPowered = c'.iccPowered) :
    Forwards c msg msgLen ↔ Forwards c' msg msgLen := by
  rw [Forwards, Forwards, hpowered]

/-- The applet answers the same, wherever its answer is put. -/
theorem forward_same (c c' : Ccid) :
    (forward k amb c card msg).card = (forward k amb c' card msg).card ∧
      (forward k amb c card msg).signed = (forward k amb c' card msg).signed ∧
      (forward k amb c card msg).answer = (forward k amb c' card msg).answer := by
  obtain ⟨r, _, hshows⟩ := pivProcessApdu_effect k amb card (advance msg ccidHeaderLen)
    (readHeader msg).dwLength (show 258 ≤ ccidBufSize - ccidHeaderLen by decide)
  have hfirst : Shows (forward k amb c card msg) r := hshows _
  have hsecond : Shows (forward k amb c' card msg) r := hshows _
  exact ⟨hfirst.card.trans hsecond.card.symm, hfirst.signed.trans hsecond.signed.symm,
    hfirst.answer.trans hsecond.answer.symm⟩

theorem processXfrBlock_alike {c c' : Ccid} (hpowered : c.iccPowered = c'.iccPowered)
    (hrx : c.rxBuf = c'.rxBuf) (htype : (readHeader msg).messageType = pcToRdrXfrBlock) :
    ShowsAlike (processXfrBlock k amb c card msg msgLen)
      (processXfrBlock k amb c' card msg msgLen) := by
  by_cases hfwd : Forwards c msg msgLen
  · have hfwd' := (forwards_same msg msgLen hpowered).mp hfwd
    obtain ⟨hcard, hsigned, hanswer⟩ := forward_same k amb card msg c c'
    rw [processXfrBlock_forwards k amb c card msg msgLen hfwd,
      processXfrBlock_forwards k amb c' card msg msgLen hfwd', hanswer]
    exact ⟨hpowered, hrx, hcard, hsigned, rfl⟩
  · have hfwd' : ¬ Forwards c' msg msgLen := (forwards_same msg msgLen hpowered).not.mp hfwd
    rw [processXfrBlock_refuses k amb c card msg msgLen htype hfwd,
      processXfrBlock_refuses k amb c' card msg msgLen htype hfwd']
    exact queue_alike card hpowered hrx _ _

/-- The card and the power switch do not see the transmit buffer. -/
theorem processMessage_alike {c c' : Ccid} (hpowered : c.iccPowered = c'.iccPowered)
    (hrx : c.rxBuf = c'.rxBuf) :
    ShowsAlike (processMessage k amb c card msg msgLen)
      (processMessage k amb c' card msg msgLen) := by
  simp only [processMessage]
  repeat' split
  · exact ⟨hpowered, hrx, rfl, rfl, rfl⟩
  · exact ⟨rfl, hrx, rfl, rfl, rfl⟩
  · exact ⟨rfl, hrx, rfl, rfl, rfl⟩
  · exact queue_alike card hpowered hrx _ _
  · exact processXfrBlock_alike k amb card msg msgLen hpowered hrx (by assumption)
  all_goals exact queue_alike card hpowered hrx _ _

/-- A response is made of the power switch and the transmit buffer. -/
theorem response_frame {c d : Ccid} (hpowered : c.iccPowered = d.iccPowered)
    (htx : c.txBuf = d.txBuf) (hlen : ccidHeaderLen ≤ msgLen) :
    (processMessage k amb c card msg msgLen).ccid.response =
      (processMessage k amb d card msg msgLen).ccid.response := by
  simp only [processMessage, processXfrBlock, hpowered, htx]
  simp only [if_neg (Nat.not_lt.mpr hlen)]
  repeat' split
  all_goals rfl

/-- The response is built afresh, unless the request is short of its parameters. -/
theorem response_alike {c d : Ccid} (hpowered : c.iccPowered = d.iccPowered)
    (hlen : ccidHeaderLen ≤ msgLen) (hfull : ¬ ShortParameters msg msgLen) :
    (processMessage k amb c card msg msgLen).ccid.response =
      (processMessage k amb d card msg msgLen).ccid.response := by
  obtain ⟨_, _, _, _, _, hframed⟩ := framed_of_full k amb c card msg msgLen hlen hfull
  have hframe : (processMessage k amb { c with txBuf := d.txBuf } card msg msgLen).ccid.response =
      (processMessage k amb d card msg msgLen).ccid.response :=
    response_frame k amb card msg msgLen hpowered rfl hlen
  rw [← hframe, hframed d.txBuf]
  exact hframed c.txBuf

theorem queue_cells {d d' : Ccid} {a b : Memory UInt8 × Nat} {out out' : Memory UInt8}
    (h : SameResponse out out' a b) :
    ∃ cells, (queue d a).txBuf = write out 0 cells ∧ (queue d' b).txBuf = write out' 0 cells := by
  obtain ⟨cells, _, ha, hb⟩ := h.cells
  exact ⟨cells, ha, hb⟩

theorem processXfrBlock_cells {c c' : Ccid} (hpowered : c.iccPowered = c'.iccPowered)
    (htype : (readHeader msg).messageType = pcToRdrXfrBlock) :
    ∃ cells, (processXfrBlock k amb c card msg msgLen).ccid.txBuf = write c.txBuf 0 cells ∧
      (processXfrBlock k amb c' card msg msgLen).ccid.txBuf = write c'.txBuf 0 cells := by
  by_cases hfwd : Forwards c msg msgLen
  · have hfwd' := (forwards_same msg msgLen hpowered).mp hfwd
    obtain ⟨_, _, hanswer⟩ := forward_same k amb card msg c c'
    have hcount : (forward k amb c card msg).len = (forward k amb c' card msg).len := by
      have hlengths := congrArg List.length hanswer
      rwa [Handled.answer, Handled.answer, read_length, read_length] at hlengths
    rw [processXfrBlock_forwards k amb c card msg msgLen hfwd,
      processXfrBlock_forwards k amb c' card msg msgLen hfwd', ← hcount]
    refine ⟨_, forward_writes k amb c card msg (headerBytes_length _ _ _ _ _ _), ?_⟩
    rw [hanswer]
    exact forward_writes k amb c' card msg (headerBytes_length _ _ _ _ _ _)
  · have hfwd' : ¬ Forwards c' msg msgLen := (forwards_same msg msgLen hpowered).not.mp hfwd
    rw [processXfrBlock_refuses k amb c card msg msgLen htype hfwd,
      processXfrBlock_refuses k amb c' card msg msgLen htype hfwd', ← hpowered]
    exact queue_cells (makeDataBlock_same _ _ _ _ (Nat.zero_le _))

/-- A message writes the same bytes to both transmit buffers, from their start on. -/
theorem processMessage_cells {c c' : Ccid} (hpowered : c.iccPowered = c'.iccPowered)
    (hlen : ccidHeaderLen ≤ msgLen) :
    ∃ cells, (processMessage k amb c card msg msgLen).ccid.txBuf = write c.txBuf 0 cells ∧
      (processMessage k amb c' card msg msgLen).ccid.txBuf = write c'.txBuf 0 cells := by
  have hself : Agree ccidBufSize msg msg := fun _ _ => rfl
  simp only [processMessage, ← hpowered]
  simp only [if_neg (Nat.not_lt.mpr hlen)]
  by_cases hon : (readHeader msg).messageType = pcToRdrIccPowerOn
  · simp only [if_pos hon]
    exact queue_cells (makeDataBlock_same true _ _ _ (show atr.length ≤ 502 by decide))
  simp only [if_neg hon]
  by_cases hoff : (readHeader msg).messageType = pcToRdrIccPowerOff
  · simp only [if_pos hoff]
    exact queue_cells (makeSlotStatus_same false _ _ _ _)
  simp only [if_neg hoff]
  repeat' split
  · exact queue_cells (makeSlotStatus_same _ _ _ _ _)
  · exact processXfrBlock_cells k amb card msg msgLen hpowered (by assumption)
  · exact queue_cells (makeSlotStatus_same _ _ _ _ _)
  · exact queue_cells (setParameters_same hself)
  · exact queue_cells (setDataRateAndClock_same hself)
  · exact queue_cells (makeSlotStatus_same _ _ _ _ _)

end Driver

/-- The endpoint brings out a response. -/
def bringsOut : Observation → Bool
  | .transmitted _ => true
  | _ => false

/-- The observation holds what was answered. -/
def holdsAnswer : Observation → Bool
  | .exchange _ | .response _ | .transmitted _ => true
  | _ => false

def signs : Observation → Bool
  | .signCall _ _ => true
  | _ => false

/-- What a step shows but for signatures: nothing of its answer if it signed, and not what the
endpoint brings out if there was a signature before. -/
def concealed (signed : Bool) (obs : List Observation) : List Observation :=
  if obs.any signs then obs.filter (fun o => !holdsAnswer o)
  else if signed then obs.filter (fun o => !bringsOut o)
  else obs

/-- Whether there was a signature since the last bus reset -/
def signedSince (signed : Bool) (e : Event) (obs : List Observation) : Bool :=
  match e with
  | .busReset => false
  | _ => signed || obs.any signs

/-- Two devices that may have given different answers. -/
structure Alike (s t : State) : Prop where
  powered : s.ccid.iccPowered = t.ccid.iccPowered
  rxBuf : s.ccid.rxBuf = t.ccid.rxBuf
  card : s.card = t.card
  button : s.button = t.button

/-- What waits for the endpoint and what is on it is the same. -/
structure InStep (s t : State) : Prop where
  pending : s.ccid.responsePending = t.ccid.responsePending
  response : s.ccid.responsePending = true → s.ccid.response = t.ccid.response
  transfer : s.inTransfer = t.inTransfer
  buffers : ∀ x, s.inTransfer = some x → Agree x.total s.ccid.txBuf t.ccid.txBuf

/-- Two devices after the same use, and after a signature or not -/
def Related (signed : Bool) (s t : State) : Prop := Alike s t ∧ (signed = false → InStep s t)

/-- A SetParameters request holds the parameters it declares. -/
def Full : Event → Prop
  | .bulkOut bytes _ => ccidHeaderLen ≤ bytes.length →
    ¬ ShortParameters (write (fun _ => 0) 0 bytes) bytes.length
  | _ => True

theorem related_refl (signed : Bool) (s : State) : Related signed s s :=
  ⟨⟨rfl, rfl, rfl, rfl⟩, fun _ => ⟨rfl, fun _ => rfl, rfl, fun _ _ _ _ => rfl⟩⟩

theorem Related.mono {signed signed' : Bool} {s t : State} (h : Related signed s t)
    (hless : signed' = false → signed = false) : Related signed' s t :=
  ⟨h.1, fun hnone => h.2 (hless hnone)⟩

section Firmware

variable (k : Backend) {s t : State}

theorem full_received (s : State) {bytes : List UInt8} {amb : Ambient}
    (hlen : ccidHeaderLen ≤ bytes.length) (hfull : Full (.bulkOut bytes amb)) :
    ¬ ShortParameters (received s bytes) bytes.length := by
  have hheader := readHeader_write s.ccid.rxBuf (fun _ => 0) hlen
  have hshort := hfull hlen
  rwa [ShortParameters, ← hheader] at hshort

theorem processed_alike (h : Alike s t) {bytes : List UInt8} {amb : Ambient}
    (hlen : ccidHeaderLen ≤ bytes.length) (hfull : Full (.bulkOut bytes amb)) :
    ShowsAlike (processed k s bytes amb) (processed k t bytes amb) ∧
      (processed k s bytes amb).ccid.response = (processed k t bytes amb).ccid.response := by
  have hrx : received s bytes = received t bytes := congrArg (fun rx => write rx 0 bytes) h.rxBuf
  rw [processed, processed, ← hrx, ← h.card]
  constructor
  · exact processMessage_alike k amb s.card (received s bytes) bytes.length h.powered hrx
  · exact response_alike k amb s.card (received s bytes) bytes.length h.powered hlen
      (full_received s hlen hfull)

/-- A message does the same to both devices, and shows the same. -/
theorem message_alike (h : Alike s t) {bytes : List UInt8} {amb : Ambient}
    (hlen : ccidHeaderLen ≤ bytes.length) (hfull : Full (.bulkOut bytes amb)) :
    Alike (step k s (.bulkOut bytes amb)).1 (step k t (.bulkOut bytes amb)).1 ∧
      (step k s (.bulkOut bytes amb)).2 = (step k t (.bulkOut bytes amb)).2 := by
  obtain ⟨hshows, hresponse⟩ := processed_alike k h hlen hfull
  rw [step_message k s amb hlen, step_message k t amb hlen]
  refine ⟨⟨hshows.powered, hshows.rxBuf, hshows.card, h.button⟩, ?_⟩
  simp only [messageObs, hshows.rxBuf, hshows.signed, hshows.card, hshows.exchange, hresponse,
    h.card]

theorem Alike.symm (h : Alike s t) : Alike t s :=
  ⟨h.powered.symm, h.rxBuf.symm, h.card.symm, h.button.symm⟩

theorem Alike.trans {u : State} (h : Alike s t) (h' : Alike t u) : Alike s u :=
  ⟨h.powered.trans h'.powered, h.rxBuf.trans h'.rxBuf, h.card.trans h'.card,
    h.button.trans h'.button⟩

/-- The events in which only the endpoint has a part. -/
def onEndpoint : Event → Bool
  | .inRead _ | .inComplete | .ccidTask _ => true
  | _ => false

theorem endpoint_frame (s : State) (e : Event) (he : onEndpoint e = true) :
    Alike (step k s e).1 s ∧ (step k s e).2.filter (fun o => !bringsOut o) = [] := by
  cases e with
  | inRead n =>
    simp only [step]
    split <;> exact ⟨⟨rfl, rfl, rfl, rfl⟩, rfl⟩
  | inComplete =>
    simp only [step]
    split
    · exact ⟨⟨rfl, rfl, rfl, rfl⟩, rfl⟩
    · split <;> exact ⟨⟨rfl, rfl, rfl, rfl⟩, rfl⟩
  | ccidTask available =>
    have hframe : (CcidDriver.ccidTask s.ccid (available && s.inTransfer.isNone)).1.iccPowered =
        s.ccid.iccPowered ∧
        (CcidDriver.ccidTask s.ccid (available && s.inTransfer.isNone)).1.rxBuf = s.ccid.rxBuf := by
      simp only [CcidDriver.ccidTask]
      repeat' split
      all_goals exact ⟨rfl, rfl⟩
    simp only [step]
    split <;> exact ⟨⟨hframe.1, hframe.2, rfl, rfl⟩, rfl⟩
  | bulkOut | busReset | umount | gpioIrq | poll | tick => cases he

theorem endpoint_alike (h : Alike s t) (e : Event) (he : onEndpoint e = true) :
    Alike (step k s e).1 (step k t e).1 ∧
      (step k s e).2.filter (fun o => !bringsOut o) =
        (step k t e).2.filter (fun o => !bringsOut o) := by
  obtain ⟨hfirst, hobs⟩ := endpoint_frame k s e he
  obtain ⟨hsecond, hobs'⟩ := endpoint_frame k t e he
  exact ⟨(hfirst.trans h).trans hsecond.symm, hobs.trans hobs'.symm⟩

/-- An event does the same to both devices, and shows the same but for the endpoint. -/
theorem step_alike (h : Alike s t) (e : Event) (hfull : Full e) :
    Alike (step k s e).1 (step k t e).1 ∧
      (step k s e).2.filter (fun o => !bringsOut o) =
        (step k t e).2.filter (fun o => !bringsOut o) := by
  cases e with
  | bulkOut bytes amb =>
    by_cases hlen : ccidHeaderLen ≤ bytes.length
    · obtain ⟨halike, hobs⟩ := message_alike k h hlen hfull
      exact ⟨halike, by rw [hobs]⟩
    · rw [step_fragment k s amb hlen, step_fragment k t amb hlen]
      exact ⟨⟨h.powered, congrArg (fun rx => write rx 0 bytes) h.rxBuf, h.card, h.button⟩, rfl⟩
  | inRead n => exact endpoint_alike k h (.inRead n) rfl
  | inComplete => exact endpoint_alike k h .inComplete rfl
  | ccidTask available => exact endpoint_alike k h (.ccidTask available) rfl
  | busReset => exact ⟨⟨rfl, h.rxBuf, h.card, h.button⟩, rfl⟩
  | umount now =>
    simp only [step, h.card]
    exact ⟨⟨h.powered, h.rxBuf, rfl, h.button⟩, trivial⟩
  | gpioIrq gpio now =>
    simp only [step, h.button]
    exact ⟨⟨h.powered, h.rxBuf, h.card, rfl⟩, trivial⟩
  | poll sample =>
    simp only [step, h.button, h.card]
    exact ⟨⟨h.powered, h.rxBuf, rfl, rfl⟩, trivial⟩
  | tick now =>
    simp only [step, h.card]
    exact ⟨⟨h.powered, h.rxBuf, rfl, h.button⟩, trivial⟩

/-- The new response is the same, and a transfer goes on with the same bytes. -/
theorem message_inStep (h : Alike s t) (hstep : InStep s t) {bytes : List UInt8} {amb : Ambient}
    (hlen : ccidHeaderLen ≤ bytes.length) (hfull : Full (.bulkOut bytes amb)) :
    InStep (step k s (.bulkOut bytes amb)).1 (step k t (.bulkOut bytes amb)).1 := by
  have hrx : received s bytes = received t bytes := congrArg (fun rx => write rx 0 bytes) h.rxBuf
  obtain ⟨cells, hs, ht⟩ : ∃ cells,
      (processed k s bytes amb).ccid.txBuf = write s.ccid.txBuf 0 cells ∧
        (processed k t bytes amb).ccid.txBuf = write t.ccid.txBuf 0 cells := by
    rw [processed, processed, ← hrx, ← h.card]
    exact processMessage_cells k amb s.card (received s bytes) bytes.length h.powered hlen
  rw [step_message k s amb hlen, step_message k t amb hlen]
  constructor
  · exact (processMessage_pending k amb _ _ _ _ hlen).trans
      (processMessage_pending k amb _ _ _ _ hlen).symm
  · exact fun _ => (processed_alike k h hlen hfull).2
  · exact hstep.transfer
  · intro x hx
    simp only [hs, ht]
    exact (hstep.buffers x hx).write 0 cells

/-- Endpoints in step bring out the same. -/
theorem endpoint_inStep (hstep : InStep s t) (e : Event) (he : onEndpoint e = true) :
    InStep (step k s e).1 (step k t e).1 ∧ (step k s e).2 = (step k t e).2 := by
  obtain ⟨hpending, hresponse, htransfer, hbuffers⟩ := id hstep
  cases e with
  | inRead n =>
    simp only [step, ← htransfer]
    cases hin : s.inTransfer with
    | none => exact ⟨hstep, rfl⟩
    | some x =>
      have hread : read (advance s.ccid.txBuf x.sent.length) (min n (x.total - x.sent.length)) =
          read (advance t.ccid.txBuf x.sent.length) (min n (x.total - x.sent.length)) :=
        read_congr (((hbuffers x hin).advance x.sent.length).mono (Nat.min_le_right _ _))
      simp only [hread]
      refine ⟨⟨hpending, hresponse, rfl, ?_⟩, trivial⟩
      rintro _ ⟨⟩
      exact hbuffers x hin
  | inComplete =>
    simp only [step, ← htransfer]
    split
    · exact ⟨hstep, rfl⟩
    · split
      · exact ⟨⟨hpending, hresponse, rfl, (fun x hx => by cases hx)⟩, rfl⟩
      · exact ⟨hstep, rfl⟩
  | ccidTask available =>
    simp only [step, CcidDriver.ccidTask, ← htransfer, ← hpending]
    cases hwaits : s.ccid.responsePending with
    | false =>
      simp only [if_true]
      exact ⟨⟨hpending, hresponse, rfl, hbuffers⟩, trivial⟩
    | true =>
      have hsame : s.ccid.response = t.ccid.response := hresponse hwaits
      have hlen : s.ccid.responseLen = t.ccid.responseLen := by
        have hlengths := congrArg List.length hsame
        rwa [Ccid.response, Ccid.response, read_length, read_length] at hlengths
      have hagree : Agree s.ccid.responseLen s.ccid.txBuf t.ccid.txBuf := by
        rw [Ccid.response, Ccid.response, ← hlen] at hsame
        exact read_eq_iff.mp hsame
      simp only [Bool.true_eq_false, if_false]
      by_cases hclaim : (available && s.inTransfer.isNone) = false
      · simp only [if_pos hclaim]
        exact ⟨⟨hpending, hresponse, rfl, hbuffers⟩, trivial⟩
      · simp only [if_neg hclaim, ← hlen]
        refine ⟨⟨rfl, (fun hwaiting => by cases hwaiting), rfl, ?_⟩, trivial⟩
        rintro _ ⟨⟩
        exact hagree.mono (Nat.mod_le _ _)
  | bulkOut | busReset | umount | gpioIrq | poll | tick => cases he

/-- Devices in step show the same, and stay in step. -/
theorem step_inStep (h : Alike s t) (hstep : InStep s t) (e : Event) (hfull : Full e) :
    InStep (step k s e).1 (step k t e).1 ∧ (step k s e).2 = (step k t e).2 := by
  obtain ⟨hpending, hresponse, htransfer, hbuffers⟩ := id hstep
  cases e with
  | bulkOut bytes amb =>
    by_cases hlen : ccidHeaderLen ≤ bytes.length
    · exact ⟨message_inStep k h hstep hlen hfull, (message_alike k h hlen hfull).2⟩
    · rw [step_fragment k s amb hlen, step_fragment k t amb hlen]
      exact ⟨⟨hpending, hresponse, htransfer, hbuffers⟩, rfl⟩
  | inRead n => exact endpoint_inStep k hstep (.inRead n) rfl
  | inComplete => exact endpoint_inStep k hstep .inComplete rfl
  | ccidTask available => exact endpoint_inStep k hstep (.ccidTask available) rfl
  | busReset => exact ⟨⟨rfl, nofun, rfl, nofun⟩, rfl⟩
  | umount now =>
    simp only [step, h.card]
    exact ⟨⟨hpending, hresponse, htransfer, hbuffers⟩, trivial⟩
  | gpioIrq gpio now =>
    simp only [step, h.button]
    exact ⟨⟨hpending, hresponse, htransfer, hbuffers⟩, trivial⟩
  | poll sample =>
    simp only [step, h.button, h.card]
    exact ⟨⟨hpending, hresponse, htransfer, hbuffers⟩, trivial⟩
  | tick now =>
    simp only [step, h.card]
    exact ⟨⟨hpending, hresponse, htransfer, hbuffers⟩, trivial⟩

/-- The signature primitive shows in nothing but the answer of an APDU that called it. -/
structure StepUpToSignature (pk pk' : PkSign) (out out' : State × List Observation) : Prop where
  state : Alike out.1 out'.1
  signs : out.2.any signs = out'.2.any signs
  rest : out.2.filter (fun o => !holdsAnswer o) = out'.2.filter (fun o => !holdsAnswer o)
  same : (∀ now hash, .signCall now hash ∈ out.2 → SignsAlike pk pk' hash) → out = out'

theorem stepUpToSignature_refl (pk pk' : PkSign) (out : State × List Observation) :
    StepUpToSignature pk pk' out out :=
  ⟨⟨rfl, rfl, rfl, rfl⟩, rfl, rfl, fun _ => rfl⟩

theorem any_signs_moved (d d' : Device) (now : Nat) : (movedObs d d' now).any signs = false := by
  simp only [movedObs]
  split <;> rfl

theorem messageObs_signs (s : State) (p : Processed) (now : Nat) :
    (messageObs s p now).any signs = p.signed.isSome := by
  have hpower : ∀ messageType, (powerObs messageType).any signs = false := by
    intro messageType
    simp only [powerObs]
    repeat' split
    all_goals rfl
  have hexchange : (p.exchange.toList.map Observation.exchange).any signs = false := by
    cases p.exchange <;> rfl
  simp only [messageObs, List.any_append, hpower, any_signs_moved, hexchange]
  cases p.signed <;> rfl

theorem messageObs_rest (s : State) (p : Processed) (now : Nat) :
    (messageObs s p now).filter (fun o => !holdsAnswer o) =
      (powerObs (readHeader p.ccid.rxBuf).messageType ++
        p.signed.toList.map (fun hash => Observation.signCall now hash) ++
        movedObs s.card.dev p.card.dev now).filter (fun o => !holdsAnswer o) := by
  have hanswer : (p.exchange.toList.map Observation.exchange ++
      [Observation.response p.ccid.response]).filter (fun o => !holdsAnswer o) = [] := by
    cases p.exchange <;> rfl
  rw [messageObs, List.append_assoc, List.filter_append, hanswer, List.append_nil]

theorem messageObs_signCall (s : State) {p : Processed} {hash : List UInt8}
    (h : p.signed = some hash) (now : Nat) : .signCall now hash ∈ messageObs s p now := by
  simp [messageObs, h]

theorem step_signer (s : State) (pk pk' : PkSign) (e : Event) :
    StepUpToSignature pk pk' (step k s (withSigner pk e)) (step k s (withSigner pk' e)) := by
  cases e with
  | inRead | inComplete | ccidTask | busReset | umount | gpioIrq | poll | tick =>
    exact stepUpToSignature_refl _ _ _
  | bulkOut bytes amb =>
    by_cases hlen : ccidHeaderLen ≤ bytes.length
    swap
    · simp only [withSigner]
      rw [step_fragment k s _ hlen, step_fragment k s _ hlen]
      exact stepUpToSignature_refl _ _ _
    have hmessage : MessageUpToSignature pk pk' (processed k s bytes { amb with pkSign := pk })
        (processed k s bytes { amb with pkSign := pk' }) :=
      processMessage_signer k { amb with pkSign := pk } pk' (receive s bytes) s.card
        (received s bytes) bytes.length
    simp only [withSigner]
    rw [step_message k s _ hlen, step_message k s _ hlen]
    generalize processed k s bytes { amb with pkSign := pk } = p at hmessage
    generalize processed k s bytes { amb with pkSign := pk' } = q at hmessage
    refine ⟨⟨hmessage.powered, hmessage.rxBuf, hmessage.card, rfl⟩, ?_, ?_, fun halike => ?_⟩
    · rw [messageObs_signs, messageObs_signs, hmessage.signed]
    · rw [messageObs_rest, messageObs_rest, hmessage.rxBuf, hmessage.signed, hmessage.card]
    · rw [hmessage.same fun hash hsigned => halike _ hash (messageObs_signCall s hsigned _)]

theorem StepUpToSignature.silent {pk pk' : PkSign} {out out' : State × List Observation}
    (h : StepUpToSignature pk pk' out out') (hnone : out.2.any SignatureTraces.signs = false) :
    out = out' := by
  refine h.same fun now hash hmem => ?_
  rw [List.any_eq_false] at hnone
  exact absurd rfl (hnone _ hmem)

/-- What holds no answer is not brought out by the endpoint either. -/
theorem filter_answers (obs : List Observation) :
    (obs.filter (fun o => !bringsOut o)).filter (fun o => !holdsAnswer o) =
      obs.filter (fun o => !holdsAnswer o) := by
  rw [List.filter_filter]
  apply List.filter_congr
  intro o _
  cases o <;> rfl

theorem any_signs_filter (obs : List Observation) :
    (obs.filter (fun o => !bringsOut o)).any signs = obs.any signs := by
  rw [List.any_filter]
  congr 1
  funext o
  cases o <;> rfl

theorem full_signer {e : Event} (hfull : Full e) (pk : PkSign) : Full (withSigner pk e) := by
  cases e with
  | bulkOut => exact hfull
  | inRead | inComplete | ccidTask | busReset | umount | gpioIrq | poll | tick => trivial

/-- Both devices sign in the same steps. -/
theorem step_signs (h : Alike s t) (pk pk' : PkSign) {e : Event} (hfull : Full e) :
    (step k s (withSigner pk e)).2.any signs = (step k t (withSigner pk' e)).2.any signs := by
  obtain ⟨_, hobs⟩ := step_alike k h (withSigner pk e) (full_signer hfull pk)
  rw [← (step_signer k t pk pk' e).signs, ← any_signs_filter, hobs, any_signs_filter]

/-- The two devices after an event, each with its own signatures. -/
theorem step_concealed {signed : Bool} (h : Related signed s t) (pk pk' : PkSign) (e : Event)
    (hfull : Full e) :
    Related (signedSince signed e (step k s (withSigner pk e)).2)
        (step k s (withSigner pk e)).1 (step k t (withSigner pk' e)).1 ∧
      concealed signed (step k s (withSigner pk e)).2 =
        concealed signed (step k t (withSigner pk' e)).2 := by
  obtain ⟨halike, hstep⟩ := h
  have hfull' := full_signer hfull pk
  obtain ⟨hfirst, hobs⟩ := step_alike k halike (withSigner pk e) hfull'
  have hsigner := step_signer k t pk pk' e
  have hsigns := step_signs k halike pk pk' hfull
  refine ⟨⟨hfirst.trans hsigner.state, fun hnone => ?_⟩, ?_⟩
  · cases e with
    | busReset => exact ⟨rfl, nofun, rfl, nofun⟩
    | bulkOut | inRead | inComplete | ccidTask | umount | gpioIrq | poll | tick =>
      obtain ⟨hbefore, hsilent⟩ := Bool.or_eq_false_iff.mp hnone
      rw [hsigns, ← hsigner.signs] at hsilent
      rw [← hsigner.silent hsilent]
      exact (step_inStep k halike (hstep hbefore) _ hfull').1
  · rw [concealed, concealed, ← hsigns]
    split
    · rw [← hsigner.rest, ← filter_answers, hobs, filter_answers]
    · rename_i hsilent
      rw [Bool.not_eq_true, hsigns, ← hsigner.signs] at hsilent
      rw [← hsigner.silent hsilent]
      split
      · exact hobs
      · rename_i hbefore
        exact (step_inStep k halike (hstep (by simpa using hbefore)) _ hfull').2

end Firmware

end SignatureTraces
