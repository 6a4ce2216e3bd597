import Ward3n.FirmwareSteps
import Ward3n.TransmitBuffer

/-!
# From the driver to the host

One transmit buffer holds the response being built, the response waiting to be
sent, and the response being sent. A message that arrives when the last of these
has left the buffer is answered without harm to the others; one that arrives
sooner is answered over them.
-/

namespace ResponseDelivery

open CellMemory ApduCodec CryptoBackend PivApplet CcidDriver Firmware TracedRuns FirmwareSteps
  TransmitBuffer

def asResponse : Observation → Option (List UInt8)
  | .response bytes => some bytes
  | _ => none

def asTransmitted : Observation → Option (List UInt8)
  | .transmitted bytes => some bytes
  | _ => none

/-- The responses `_process_message` computed, in order. -/
def responses (h : List Observation) : List (List UInt8) := h.filterMap asResponse

/-- The messages sent on bulk IN, in order. -/
def transmitted (h : List Observation) : List (List UInt8) := h.filterMap asTransmitted

/-- What was sent is what was computed, so far as it was sent. -/
def Delivered (h : List Observation) : Prop := transmitted h <+: responses h

instance (h : List Observation) : Decidable (Delivered h) := by
  unfold Delivered
  infer_instance

/-- The response that waits for the endpoint. -/
def waiting (c : Ccid) : List (List UInt8) := if c.responsePending then [c.response] else []

/-- The transfer in progress carries this response: it has taken all of it, or the rest of
it is still in the buffer. -/
def Carries (c : Ccid) (t : InTransfer) (bytes : List UInt8) : Prop :=
  bytes.length = t.total ∧ t.sent <+: bytes ∧
    (t.sent = bytes ∨ c.responsePending = false ∧ bytes = read c.txBuf t.total)

/-- Each response computed was sent, is being sent, or waits. -/
structure Account (h : List Observation) (s : State) : Prop where
  short : s.ccid.responsePending = true → s.ccid.responseLen ≤ ccidBufSize
  idle : s.inTransfer = none → responses h = transmitted h ++ waiting s.ccid
  busy : ∀ t, s.inTransfer = some t → ∃ bytes, Carries s.ccid t bytes ∧
    responses h = transmitted h ++ bytes :: waiting s.ccid

/-- No response waits, and none is being sent. -/
def Settled (s : State) : Prop := s.ccid.responsePending = false ∧ s.inTransfer = none

/-- A message finds no response waiting, and none that has yet to leave the buffer; the bus
is reset only when there is nothing to lose. -/
def Clear (s : State) : Event → Prop
  | .bulkOut bytes _ => ccidHeaderLen ≤ bytes.length →
      s.ccid.responsePending = false ∧ ∀ t, s.inTransfer = some t → t.sent.length = t.total
  | .busReset => Settled s
  | _ => True

/-- Whole messages, and the work of the IN endpoint. -/
def Traffic : Event → Prop
  | .bulkOut bytes _ => ccidHeaderLen ≤ bytes.length
  | .ccidTask _ | .inRead _ | .inComplete => True
  | _ => False

instance (e : Event) : Decidable (Traffic e) := by
  unfold Traffic
  split <;> infer_instance

section Filters

@[simp] theorem responses_append (h t : List Observation) :
    responses (h ++ t) = responses h ++ responses t := List.filterMap_append

@[simp] theorem transmitted_append (h t : List Observation) :
    transmitted (h ++ t) = transmitted h ++ transmitted t := List.filterMap_append

theorem filterMap_none {f : Observation → Option (List UInt8)} {t : List Observation}
    (h : ∀ o ∈ t, f o = none) : t.filterMap f = [] := List.filterMap_eq_nil_iff.mpr h

/-- Observations that are neither a response nor a transfer. -/
def Aside (o : Observation) : Prop := asResponse o = none ∧ asTransmitted o = none

theorem aside_movedObs {d d' : DeviceState.Device} {now : Nat} :
    ∀ o ∈ movedObs d d' now, Aside o := by
  intro o ho
  simp only [movedObs] at ho
  split at ho
  · cases ho
  · rw [List.mem_singleton.mp ho]
    exact ⟨rfl, rfl⟩

theorem aside_powerObs {messageType : UInt8} : ∀ o ∈ powerObs messageType, Aside o := by
  intro o ho
  simp only [powerObs] at ho
  split at ho
  · rw [List.mem_singleton.mp ho]
    exact ⟨rfl, rfl⟩
  · exact forall_mem_ite ⟨rfl, rfl⟩ o ho

theorem messageObs_responses (s : State) (p : Processed) (now : Nat) :
    responses (messageObs s p now) = [p.ccid.response] ∧
      transmitted (messageObs s p now) = [] := by
  have hsigned : ∀ o ∈ p.signed.toList.map (fun hash => Observation.signCall now hash),
      Aside o := by
    intro o ho
    obtain ⟨hash, _, rfl⟩ := List.mem_map.mp ho
    exact ⟨rfl, rfl⟩
  have hexchange : ∀ o ∈ p.exchange.toList.map Observation.exchange, Aside o := by
    intro o ho
    obtain ⟨x, _, rfl⟩ := List.mem_map.mp ho
    exact ⟨rfl, rfl⟩
  simp only [messageObs, responses, transmitted]
  simp only [List.filterMap_append]
  constructor
  · rw [filterMap_none fun o ho => (aside_powerObs o ho).1,
      filterMap_none fun o ho => (hsigned o ho).1,
      filterMap_none fun o ho => (aside_movedObs o ho).1,
      filterMap_none fun o ho => (hexchange o ho).1]
    rfl
  · rw [filterMap_none fun o ho => (aside_powerObs o ho).2,
      filterMap_none fun o ho => (hsigned o ho).2,
      filterMap_none fun o ho => (aside_movedObs o ho).2,
      filterMap_none fun o ho => (hexchange o ho).2]
    rfl

end Filters

/-- A step that touches neither the driver nor the endpoint keeps the account. -/
theorem Account.aside {h obs : List Observation} {s s' : State} (hacc : Account h s)
    (hobs : ∀ o ∈ obs, Aside o) (hccid : s'.ccid = s.ccid) (hin : s'.inTransfer = s.inTransfer) :
    Account (h ++ obs) s' := by
  have hresponses : responses (h ++ obs) = responses h := by
    rw [responses_append, responses, responses, filterMap_none fun o ho => (hobs o ho).1,
      List.append_nil]
  have htransmitted : transmitted (h ++ obs) = transmitted h := by
    rw [transmitted_append, transmitted, transmitted, filterMap_none fun o ho => (hobs o ho).2,
      List.append_nil]
  constructor
  · rw [hccid]
    exact hacc.short
  · rw [hccid, hin, hresponses, htransmitted]
    exact hacc.idle
  · rw [hccid, hin, hresponses, htransmitted]
    exact hacc.busy

/-- A message that finds the buffer free is answered behind everything before it. -/
theorem account_message (k : Backend) {h : List Observation} {s : State} (hacc : Account h s)
    {bytes : List UInt8} {amb : Ambient} (hlen : ccidHeaderLen ≤ bytes.length)
    (hclear : Clear s (.bulkOut bytes amb)) :
    Account (h ++ (step k s (.bulkOut bytes amb)).2) (step k s (.bulkOut bytes amb)).1 := by
  obtain ⟨hidle, htaken⟩ := hclear hlen
  have hpending : (processed k s bytes amb).ccid.responsePending = true :=
    processMessage_pending k amb (receive s bytes) s.card (received s bytes) bytes.length hlen
  have hshort : (processed k s bytes amb).ccid.responseLen ≤ ccidBufSize :=
    processMessage_responseLen k amb (receive s bytes) s.card (received s bytes) bytes.length hlen
  rw [step_message k s amb hlen]
  generalize processed k s bytes amb = p at hpending hshort ⊢
  obtain ⟨hresponses, htransmitted⟩ := messageObs_responses s p amb.now
  have hwaiting : waiting p.ccid = [p.ccid.response] := if_pos hpending
  have hbefore : waiting s.ccid = [] := by simp [waiting, hidle]
  refine ⟨fun _ => hshort, fun hnone => ?_, fun t ht => ?_⟩
  · rw [responses_append, transmitted_append, hresponses, htransmitted, hacc.idle hnone, hbefore,
      List.append_nil]
    exact congrArg (transmitted h ++ ·) hwaiting.symm
  · obtain ⟨sending, ⟨hcount, hfront, _⟩, heq⟩ := hacc.busy t ht
    have hall : t.sent = sending := hfront.eq_of_length (by rw [htaken t ht, hcount])
    refine ⟨sending, ⟨hcount, hfront, Or.inl hall⟩, ?_⟩
    rw [responses_append, transmitted_append, hresponses, htransmitted, heq, hbefore,
      List.append_nil, List.append_assoc]
    exact congrArg (fun rest => transmitted h ++ sending :: rest) hwaiting.symm

/-- The endpoint takes the bytes of the response it carries, and no others. -/
theorem carries_read {c : Ccid} {t : InTransfer} {bytes : List UInt8} (hcarries : Carries c t bytes)
    (n : Nat) :
    Carries c { t with sent := (t.sent ++ read (advance c.txBuf t.sent.length)
      (min n (t.total - t.sent.length))) } bytes := by
  obtain ⟨hcount, hfront, htaken⟩ := hcarries
  rcases htaken with hall | ⟨hfree, hbuffer⟩
  · have hzero : t.total - t.sent.length = 0 := by rw [hall, hcount, Nat.sub_self]
    rw [hzero, Nat.min_zero, read_zero, List.append_nil]
    exact ⟨hcount, hfront, Or.inl hall⟩
  · have hle : t.sent.length ≤ t.total := hcount ▸ hfront.length_le
    have hsent : t.sent = read c.txBuf t.sent.length := by
      rw [← read_take c.txBuf hle, ← hbuffer]
      exact List.prefix_iff_eq_take.mp hfront
    refine ⟨hcount, ?_, Or.inr ⟨hfree, hbuffer⟩⟩
    have hread := read_add c.txBuf t.sent.length (min n (t.total - t.sent.length))
    rw [← hsent] at hread
    rw [← hread, hbuffer, ← read_take c.txBuf
      (show t.sent.length + min n (t.total - t.sent.length) ≤ t.total by omega)]
    exact List.take_prefix _ _

/-- A completed transfer was the whole response it carried. -/
theorem account_inComplete (k : Backend) {h : List Observation} {s : State}
    (hacc : Account h s) :
    Account (h ++ (step k s .inComplete).2) (step k s .inComplete).1 := by
  simp only [step]
  cases hin : s.inTransfer with
  | none => exact hacc.aside (by simp) rfl rfl
  | some t =>
    by_cases hall : t.sent.length = t.total
    · simp only [if_pos hall]
      obtain ⟨bytes, ⟨hcount, hfront, _⟩, heq⟩ := hacc.busy t hin
      have hsent : t.sent = bytes := hfront.eq_of_length (by rw [hall, hcount])
      have hnone : responses [.transmitted bytes] = [] := rfl
      have hone : transmitted [.transmitted bytes] = [bytes] := rfl
      constructor
      · exact hacc.short
      · intro _
        rw [responses_append, transmitted_append, heq, hsent, hnone, hone, List.append_nil,
          List.append_assoc]
        rfl
      · intro t' ht'
        cases ht'
    · simp only [if_neg hall]
      exact hacc.aside (by simp) rfl rfl

/-- A transfer starts only on an idle endpoint, and carries the response that waited. -/
theorem account_ccidTask (k : Backend) {h : List Observation} {s : State} (hacc : Account h s)
    (available : Bool) :
    Account (h ++ (step k s (.ccidTask available)).2) (step k s (.ccidTask available)).1 := by
  simp only [step, CcidDriver.ccidTask]
  by_cases hpending : s.ccid.responsePending = false
  · simp only [if_pos hpending]
    exact hacc.aside (by simp) rfl rfl
  simp only [if_neg hpending]
  have hpending : s.ccid.responsePending = true := by simpa using hpending
  by_cases hclaim : (available && s.inTransfer.isNone) = false
  · simp only [if_pos hclaim]
    exact hacc.aside (by simp) rfl rfl
  simp only [if_neg hclaim, List.append_nil]
  have hfree : s.inTransfer = none := by
    cases hin : s.inTransfer with
    | none => rfl
    | some t => simp [hin] at hclaim
  have hshort := hacc.short hpending
  have hword : s.ccid.responseLen % 2 ^ 16 = s.ccid.responseLen := by
    have hsize : ccidBufSize < 2 ^ 16 := by decide
    exact Nat.mod_eq_of_lt (by omega)
  have hcarries : Carries { s.ccid with responsePending := false }
      { sent := [], total := s.ccid.responseLen % 2 ^ 16 } s.ccid.response := by
    refine ⟨?_, List.nil_prefix, Or.inr ⟨rfl, ?_⟩⟩
    · rw [Ccid.response, read_length, hword]
    · rw [Ccid.response, hword]
  constructor
  · intro hno
    cases hno
  · intro hnone
    cases hnone
  · intro t ht
    cases ht
    refine ⟨s.ccid.response, hcarries, ?_⟩
    rw [hacc.idle hfree, waiting, if_pos hpending]
    rfl

/-- A bus reset forgets the response that waits and the transfer in progress. -/
theorem account_busReset (k : Backend) {h : List Observation} {s : State} (hacc : Account h s)
    (hsettled : Settled s) :
    Account (h ++ (step k s .busReset).2) (step k s .busReset).1 := by
  obtain ⟨hnone, hidle⟩ := hsettled
  have hbefore : waiting s.ccid = [] := by simp [waiting, hnone]
  have hafter : waiting (ccidReset s.ccid) = [] := rfl
  constructor
  · intro hno
    cases hno
  · intro _
    have hreset : responses [.busReset] = [] ∧ transmitted [.busReset] = [] := ⟨rfl, rfl⟩
    simp only [step, responses_append, transmitted_append, hreset, hafter, List.append_nil]
    rw [hacc.idle hidle, hbefore, List.append_nil]
  · intro t ht
    cases ht

theorem account_step (k : Backend) (h : List Observation) (s : State) (e : Event)
    (hclear : Clear s e) (hacc : Account h s) :
    Account (h ++ (step k s e).2) (step k s e).1 := by
  cases e with
  | bulkOut bytes amb =>
    by_cases hlen : ccidHeaderLen ≤ bytes.length
    · exact account_message k hacc hlen hclear
    · rw [step_fragment k s amb hlen, List.append_nil]
      exact ⟨hacc.short, hacc.idle, hacc.busy⟩
  | inRead n =>
    simp only [step]
    cases hin : s.inTransfer with
    | none => exact hacc.aside (by simp) rfl rfl
    | some t =>
      simp only [List.append_nil]
      refine ⟨hacc.short, (fun hnone => by cases hnone), fun t' ht' => ?_⟩
      cases ht'
      obtain ⟨bytes, hcarries, heq⟩ := hacc.busy t hin
      exact ⟨bytes, carries_read hcarries n, heq⟩
  | inComplete => exact account_inComplete k hacc
  | ccidTask available => exact account_ccidTask k hacc available
  | busReset => exact account_busReset k hacc hclear
  | umount now => exact hacc.aside aside_movedObs rfl rfl
  | gpioIrq gpio now => exact hacc.aside (forall_mem_ite ⟨rfl, rfl⟩) rfl rfl
  | poll sample =>
    refine hacc.aside (fun o ho => ?_) rfl rfl
    rcases List.mem_append.mp ho with ho | ho
    · exact forall_mem_ite ⟨rfl, rfl⟩ o ho
    · exact aside_movedObs o ho
  | tick now => exact hacc.aside aside_movedObs rfl rfl

/-- Where nothing is due an account can begin. -/
theorem account_settled {s : State} (h : Settled s) : Account [] s := by
  obtain ⟨hnone, hidle⟩ := h
  refine ⟨fun hno => ?_, fun _ => ?_, fun t ht => ?_⟩
  · rw [hnone] at hno
    cases hno
  · rw [waiting, hnone]
    rfl
  · rw [hidle] at ht
    cases ht

theorem settled_boot : Settled boot := ⟨rfl, rfl⟩

/-- Behind a bus reset nothing is due, whatever was lost by it. -/
theorem settled_busReset (k : Backend) (s : State) : Settled (step k s .busReset).1 := ⟨rfl, rfl⟩

theorem account_delivered {h : List Observation} {s : State} (hacc : Account h s) :
    Delivered h := by
  simp only [Delivered]
  cases hin : s.inTransfer with
  | none =>
    rw [hacc.idle hin]
    exact List.prefix_append _ _
  | some t =>
    obtain ⟨bytes, _, heq⟩ := hacc.busy t hin
    rw [heq]
    exact List.prefix_append _ _

/-- As long as every message finds the buffer free, what is sent is what was computed, each
response once, in order and with its own bytes. -/
theorem delivered_of_clear (k : Backend) (es : List Event)
    (hclear : AllSteps (step k) Clear boot es) : Delivered (history k es) := by
  have hacc := guarded_history (J := Account) (fun h s e => account_step k h s e)
    (account_settled settled_boot) hclear
  exact account_delivered hacc

/-- Power on, with its response collected before the next message. -/
def collectedRun : List Event :=
  [.bulkOut (hostMessage pcToRdrIccPowerOn []) (ambientAt 0), .ccidTask true, .inRead 64,
    .inComplete]

/-- Power on, and a second message that arrives when the first response has left the buffer but
its transfer has not completed; then a bus reset. -/
def overlappingRun : List Event :=
  [.bulkOut (hostMessage pcToRdrIccPowerOn []) (ambientAt 0), .ccidTask true, .inRead 64,
    .bulkOut (hostMessage pcToRdrGetSlotStatus []) (ambientAt 1), .ccidTask true, .inComplete,
    .ccidTask true, .inRead 64, .inComplete, .busReset]

theorem delivered_of_clear_sample :
    (transmitted (history sampleBackend overlappingRun)).length = 2 ∧
      Delivered (history sampleBackend overlappingRun) := by
  refine ⟨by decide, delivered_of_clear sampleBackend overlappingRun ?_⟩
  have hread : ∀ t, (run sampleBackend (overlappingRun.take 3)).inTransfer = some t →
      t.sent.length = t.total := by
    rintro t ⟨⟩
    decide
  exact ⟨fun _ => ⟨rfl, fun t ht => by cases ht⟩, trivial, trivial, fun _ => ⟨rfl, hread⟩, trivial,
    trivial, trivial, trivial, trivial, ⟨rfl, rfl⟩, trivial⟩

/-- An XfrBlock and an Abort in one pass of the USB task: the response to the first is never
sent. -/
def abortedRun : List Event :=
  collectedRun ++
    [.bulkOut (hostMessage pcToRdrXfrBlock ([0x00, 0xA4, 0x04, 0x00, 0x0B] ++ pivAid))
        (ambientAt 1),
      .bulkOut (hostMessage pcToRdrAbort []) (ambientAt 2), .ccidTask true, .inRead 64, .inComplete]

theorem pending_response_lost :
    (∀ e ∈ abortedRun, Traffic e) ∧ ¬ Delivered (history sampleBackend abortedRun) := by
  decide

end ResponseDelivery
