import Ward3n.ResponseDelivery
import Ward3n.SessionGate

/-!
# The card status in a response

Two bits of every response say whether the slot is powered. The helpers of the
driver read them off the power flag. A forwarded APDU writes them by hand, but
only a powered slot forwards one. The two negotiation messages write them by
hand as well, and these are answered before the slot has been powered too.
-/

namespace SlotStatus

open CellMemory CryptoBackend PivApplet CcidDriver Firmware TracedRuns FirmwareSteps SessionGate
  TransmitBuffer ResponseDelivery

/-- The ICC status, the low bits of `bStatus` in byte `bSpecific_0` of a response. -/
def iccBits (response : List UInt8) : Option UInt8 := response[7]?.map (· &&& 0x03)

/-- A response says ACTIVE exactly if the slot was powered on and neither powered off nor
reset since. -/
def StatusTruthful (past : List Observation) : Observation → Prop
  | .response bytes => iccBits bytes = some iccActive ↔ Powered past
  | _ => True

/-- The message is SetParameters or SetDataRateAndClockFrequency. -/
def Negotiates (msg : Memory UInt8) : Prop :=
  (readHeader msg).messageType = pcToRdrSetParameters ∨
    (readHeader msg).messageType = pcToRdrSetDataRateAndClock

/-- A negotiation message arrives while the slot is not powered. -/
def NegotiatesUnpowered (s : State) : Event → Prop
  | .bulkOut bytes _ =>
    ccidHeaderLen ≤ bytes.length ∧ Negotiates (received s bytes) ∧ s.ccid.iccPowered = false
  | _ => False

theorem iccStatus_active_iff {powered : Bool} :
    some (iccStatus powered) = some iccActive ↔ powered = true := by
  cases powered <;> decide

/-- The command status leaves the ICC bits alone. -/
theorem iccBits_header {cmdStatus : UInt8} (hcmd : cmdStatus = cmdOk ∨ cmdStatus = cmdFailed)
    (powered : Bool) (messageType : UInt8) (dwLength : Nat) (seq s1 s2 : UInt8)
    (rest : List UInt8) :
    iccBits (headerBytes messageType dwLength seq (cmdStatus ||| iccStatus powered) s1 s2 ++ rest) =
      some (iccStatus powered) := by
  have hbyte : iccBits (headerBytes messageType dwLength seq (cmdStatus ||| iccStatus powered) s1
      s2 ++ rest) = some ((cmdStatus ||| iccStatus powered) &&& 0x03) := rfl
  rw [hbyte]
  rcases hcmd with rfl | rfl <;> cases powered <;> rfl

section Messages

variable (k : Backend) (amb : Ambient) (s : Ccid) (card : Card) (msg : Memory UInt8) (msgLen : Nat)

theorem processXfrBlock_status (htype : (readHeader msg).messageType = pcToRdrXfrBlock) :
    iccBits (processXfrBlock k amb s card msg msgLen).ccid.response =
      some (iccStatus (processXfrBlock k amb s card msg msgLen).ccid.iccPowered) := by
  by_cases hfwd : Forwards s msg msgLen
  · have hpowered : (processXfrBlock k amb s card msg msgLen).ccid.iccPowered = true := by
      rw [processXfrBlock_forwards k amb s card msg msgLen hfwd]
      exact hfwd.2.1
    rw [forwarded_response k amb s card msg msgLen hfwd, hpowered]
    exact iccBits_header (Or.inl rfl) true _ _ _ _ _ _
  · have hpowered : (processXfrBlock k amb s card msg msgLen).ccid.iccPowered = s.iccPowered := by
      rw [processXfrBlock_refuses k amb s card msg msgLen htype hfwd]
      rfl
    rw [refused_response k amb s card msg msgLen htype hfwd, hpowered]
    exact iccBits_header (Or.inr rfl) s.iccPowered _ _ _ _ _ _

/-- A negotiation is answered ACTIVE, and leaves the power flag as it is. -/
theorem negotiation_status (hlen : ccidHeaderLen ≤ msgLen) (hnegotiates : Negotiates msg) :
    iccBits (processMessage k amb s card msg msgLen).ccid.response = some iccActive ∧
      (processMessage k amb s card msg msgLen).ccid.iccPowered = s.iccPowered := by
  rcases hnegotiates with htype | htype
  · obtain ⟨rest, _, hrest⟩ := setParameters_header s.txBuf msg msgLen
    rw [processMessage_setParameters k amb s card msg msgLen htype hlen, queue_response, hrest]
    exact ⟨iccBits_header (Or.inl rfl) true _ _ _ _ _ _, rfl⟩
  · obtain ⟨body, _, hbody⟩ := setDataRateAndClock_bytes msg msgLen
    rw [processMessage_setDataRateAndClock k amb s card msg msgLen htype hlen, queue_response,
      hbody]
    exact ⟨iccBits_header (Or.inl rfl) true _ _ _ _ _ _, rfl⟩

/-- Every other message is answered with the power flag it leaves. -/
theorem other_status (hlen : ccidHeaderLen ≤ msgLen) (hother : ¬ Negotiates msg) :
    iccBits (processMessage k amb s card msg msgLen).ccid.response =
      some (iccStatus (processMessage k amb s card msg msgLen).ccid.iccPowered) := by
  obtain ⟨hparameters, hclock⟩ := not_or.mp hother
  have hslot : ∀ (powered : Bool) (cmdStatus : UInt8),
      cmdStatus = cmdOk ∨ cmdStatus = cmdFailed →
      iccBits (queue { s with iccPowered := powered } (makeSlotStatus powered s.txBuf
        (readHeader msg).seq cmdStatus 0 0)).response = some (iccStatus powered) := by
    intro powered cmdStatus hcmd
    rw [queue_response, makeSlotStatus_bytes]
    exact iccBits_header hcmd powered _ _ _ _ _ _
  simp only [processMessage, if_neg (Nat.not_lt.mpr hlen), if_neg hparameters, if_neg hclock]
  split
  · -- IccPowerOn is the one answer with data that goes through the helper
    rw [queue_response, makeDataBlock_bytes]
    exact iccBits_header (Or.inl rfl) true _ _ _ _ _ _
  split
  · exact hslot false cmdOk (Or.inl rfl)
  split
  · exact hslot s.iccPowered cmdOk (Or.inl rfl)
  split
  · rename_i htype
    exact processXfrBlock_status k amb s card msg msgLen htype
  split
  · exact hslot s.iccPowered cmdOk (Or.inl rfl)
  · exact hslot s.iccPowered cmdFailed (Or.inr rfl)

end Messages

/-- The power flag says what the past says. -/
def TellsPower (h : List Observation) (s : State) : Prop :=
  s.ccid.iccPowered = true ↔ Powered h

theorem powered_append_iff {h obs : List Observation} (hobs : ∀ o ∈ obs, ¬ Cuts o) :
    Powered (h ++ obs) ↔ Powered h := by
  apply since_append_iff hobs
  rintro past o ho rfl
  exact hobs .powerOn ho trivial

theorem TellsPower.append {h obs : List Observation} {s s' : State} (htells : TellsPower h s)
    (hobs : ∀ o ∈ obs, ¬ Cuts o) (hpowered : s'.ccid.iccPowered = s.ccid.iccPowered) :
    TellsPower (h ++ obs) s' := by
  rw [TellsPower, powered_append_iff hobs, hpowered]
  exact htells

theorem tellsPower_off {h obs : List Observation} {s : State} {o : Observation} (ho : o ∈ obs)
    (hcut : Cuts o) (hobs : .powerOn ∉ obs) (hpowered : s.ccid.iccPowered = false) :
    TellsPower (h ++ obs) s := by
  have hpast : ¬ Powered (h ++ obs) := by
    apply not_since_append ho (not_not_intro hcut)
    rintro past x hx rfl
    exact hobs hx
  rw [TellsPower, hpowered]
  exact iff_of_false (by simp) hpast

theorem tellsPower_step (k : Backend) (h : List Observation) (s : State) (e : Event)
    (htells : TellsPower h s) : TellsPower (h ++ (step k s e).2) (step k s e).1 := by
  have heffect := step_effect k s e
  generalize (step k s e).1 = s' at heffect
  generalize (step k s e).2 = obs at heffect
  cases heffect with
  | quiet _ _ hpowered _ _ hobs =>
    exact htells.append (fun o ho => (harmless_of_outward (hobs o ho)).1) hpowered
  | powerOn _ hpowered =>
    refine iff_of_true hpowered (since_of_mark rfl ?_)
    intro o ho
    rw [List.mem_singleton.mp ho]
    exact id
  | powerOff _ hpowered =>
    exact tellsPower_off (o := .powerOff) (by simp) trivial (by simp) hpowered
  | reset hpowered => exact tellsPower_off (o := .busReset) (by simp) trivial (by simp) hpowered
  | apdu _ _ hpowered => exact htells.append (fun o ho => uncut_of_apdu ho) hpowered
  | umount hpowered | tick hpowered =>
    exact htells.append (fun o ho => (harmless_of_moved ho).1) hpowered
  | edge hpowered => exact htells.append (forall_mem_ite id) hpowered
  | press _ hpowered => exact htells.append (fun o ho => (harmless_of_press ho).1) hpowered
  | noPress _ hpowered => exact htells.append (by simp) hpowered

/-- The power flag is the history of the slot, after every run. -/
theorem tellsPower_run (k : Backend) (es : List Event) : TellsPower (history k es) (run k es) :=
  history_invariant (tellsPower_step k) (iff_of_false (by decide) (by simp [Powered, Since])) es

/-- Only a whole message is answered. -/
theorem unanswered (k : Backend) (s : State) {e : Event}
    (hother : ∀ bytes amb, e = .bulkOut bytes amb → ¬ ccidHeaderLen ≤ bytes.length) :
    ∀ o ∈ (step k s e).2, asResponse o = none := by
  cases e with
  | bulkOut bytes amb =>
    rw [step_fragment k s amb (hother bytes amb rfl)]
    simp
  | inRead n =>
    simp only [step]
    split <;> simp
  | inComplete =>
    simp only [step]
    split
    · simp
    · split <;> simp [asResponse]
  | ccidTask available =>
    simp only [step]
    split <;> simp
  | busReset => simp [step, asResponse]
  | umount now | tick now => exact fun o ho => (aside_movedObs o ho).1
  | gpioIrq gpio now => exact forall_mem_ite rfl
  | poll sample =>
    intro o ho
    rcases List.mem_append.mp ho with ho | ho
    · exact forall_mem_ite (P := fun o => asResponse o = none) rfl o ho
    · exact (aside_movedObs o ho).1

theorem truthful_aside {past : List Observation} {o : Observation} (ho : asResponse o = none) :
    StatusTruthful past o := by
  cases o with
  | response bytes => cases ho
  | powerOn | powerOff | busReset | signCall | moved | exchange | transmitted | fallingEdge
  | pressConfirmed => trivial

/-- What precedes the response to a message holds no other response. -/
theorem messageObs_split (s : State) (p : Processed) (now : Nat) :
    ∃ before, messageObs s p now = before ++ [.response p.ccid.response] ∧
      ∀ o ∈ before, asResponse o = none := by
  refine ⟨_, rfl, ?_⟩
  have hone := (messageObs_responses s p now).1
  rw [messageObs, responses_append] at hone
  have hnone := List.append_cancel_right (hone.trans (List.nil_append _).symm)
  exact List.filterMap_eq_nil_iff.mp hnone

/-- What is observed while a message is processed tells the truth exactly if its response
gives the power flag the message leaves: the response itself is not a cut. -/
theorem truthful_message_iff {h : List Observation} {s s' : State} {p : Processed} {now : Nat}
    (htells : TellsPower (h ++ messageObs s p now) s')
    (hpowered : s'.ccid.iccPowered = p.ccid.iccPowered) :
    AtEach (fun past => StatusTruthful (h ++ past)) (messageObs s p now) ↔
      (iccBits p.ccid.response = some iccActive ↔ p.ccid.iccPowered = true) := by
  obtain ⟨before, hobs, hbefore⟩ := messageObs_split s p now
  have hpast : Powered (h ++ before) ↔ p.ccid.iccPowered = true := by
    have hresponse : Powered (h ++ before ++ [.response p.ccid.response]) ↔ Powered (h ++ before) :=
      powered_append_iff (by simp [Cuts])
    rw [hobs, ← List.append_assoc, TellsPower, hpowered] at htells
    exact hresponse.symm.trans htells.symm
  rw [hobs, atEach_append, ← hpast]
  simp only [atEach_cons, atEach_nil, and_true, List.append_nil]
  exact and_iff_right (atEach_of_forall fun past o ho => truthful_aside (hbefore o ho))

/-- A step tells the truth about the slot unless it is a negotiation before power-on. -/
theorem truthful_step_iff (k : Backend) (h : List Observation) (s : State) (e : Event)
    (htells : TellsPower h s) :
    AtEach (fun past => StatusTruthful (h ++ past)) (step k s e).2 ↔ ¬ NegotiatesUnpowered s e := by
  by_cases hwhole : ∃ bytes amb, e = .bulkOut bytes amb ∧ ccidHeaderLen ≤ bytes.length
  swap
  · have hother : ∀ bytes amb, e = .bulkOut bytes amb → ¬ ccidHeaderLen ≤ bytes.length :=
      fun bytes amb he hlen => hwhole ⟨bytes, amb, he, hlen⟩
    refine iff_of_true (atEach_of_forall fun past o ho =>
      truthful_aside (unanswered k s hother o ho)) ?_
    cases e with
    | bulkOut bytes amb => exact fun hnegotiates => hother bytes amb rfl hnegotiates.1
    | inRead | inComplete | ccidTask | busReset | umount | gpioIrq | poll | tick => exact id
  obtain ⟨bytes, amb, rfl, hlen⟩ := hwhole
  have hnext := tellsPower_step k h s (.bulkOut bytes amb) htells
  rw [step_message k s amb hlen] at hnext ⊢
  rw [truthful_message_iff hnext rfl]
  by_cases hnegotiates : Negotiates (received s bytes)
  · obtain ⟨hbits, hpowered⟩ := negotiation_status k amb (receive s bytes) s.card
      (received s bytes) bytes.length hlen hnegotiates
    rw [processed, hbits, hpowered]
    simp [NegotiatesUnpowered, hlen, hnegotiates, receive]
  · have hbits := other_status k amb (receive s bytes) s.card (received s bytes) bytes.length
      hlen hnegotiates
    rw [processed, hbits]
    exact iff_of_true iccStatus_active_iff fun hunpowered => hnegotiates hunpowered.2.1

/-- The ICC status of every response is the power state of the slot, which is what the past
makes it, if and only if no negotiation message arrives before the slot is powered. -/
theorem status_truthful_iff (k : Backend) (es : List Event) :
    (AtEach StatusTruthful (history k es) ↔
        AllSteps (step k) (fun s e => ¬ NegotiatesUnpowered s e) boot es) ∧
      ((run k es).ccid.iccPowered = true ↔ Powered (history k es)) := by
  constructor
  · have hstart : TellsPower [] boot := tellsPower_run k []
    exact atEach_trace_iff (truthful_step_iff k) (tellsPower_step k) hstart es
  · exact tellsPower_run k es

/-- A host that negotiates before it powers the slot, as the driver expects of one. -/
def negotiation : Event :=
  .bulkOut (hostMessage pcToRdrSetDataRateAndClock []) (ambientAt 0)

/-- It is told that the card is active. -/
theorem unpowered_slot_reported_active :
    (run sampleBackend [negotiation]).ccid.iccPowered = false ∧
      ¬ AtEach StatusTruthful (history sampleBackend [negotiation]) := by
  have hunpowered : NegotiatesUnpowered boot negotiation := ⟨by decide, Or.inr rfl, rfl⟩
  have hhistory : history sampleBackend [negotiation] = (step sampleBackend boot negotiation).2 :=
    List.append_nil _
  have hstart : TellsPower [] boot := tellsPower_run sampleBackend []
  have hstep := truthful_step_iff sampleBackend [] boot negotiation hstart
  constructor
  · rfl
  · rw [hhistory]
    intro htruthful
    exact hstep.mp htruthful hunpowered

end SlotStatus
