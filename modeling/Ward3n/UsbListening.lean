import Ward3n.CallProtocols
import Ward3n.FirmwareSteps
import Ward3n.UsbEnumeration

/-!
# The driver on the bus

The firmware with the endpoints its driver was given, while the host configures
the device, resets the bus and configures it again. TinyUSB gives the driver the
interface only while it is not configured, and completed transfers only while it
is. What TinyUSB asks in return is a protocol: a transfer is queued only on an
endpoint that is open and has none.
-/

namespace UsbListening

open CryptoBackend CcidDriver Firmware TracedRuns CallProtocols DescriptorChains UsbDescriptors
  UsbEnumeration

/-- What the driver asks of TinyUSB, and what TinyUSB does -/
inductive Act
  | edptOpen (ep : UInt8)
  | edptXfer (ep : UInt8)
  | completed (ep : UInt8)
  | closeAll
  deriving DecidableEq

/-- The endpoints that are open, and those that have a transfer -/
structure Bus where
  opened : List UInt8
  busy : List UInt8

def usbd : Protocol Bus Act where
  ready q := fun
    | .edptOpen ep => !q.busy.contains ep
    | .edptXfer ep => q.opened.contains ep && !q.busy.contains ep
    | .completed ep => q.busy.contains ep
    | .closeAll => true
  done q := fun
    | .edptOpen ep => { q with opened := ep :: q.opened }
    | .edptXfer ep => { q with busy := ep :: q.busy }
    | .completed ep => { q with busy := q.busy.filter (· != ep) }
    | .closeAll => { opened := [], busy := [] }

/-- The bus behind these acts; none if one of them was out of turn. -/
def follow (q : Bus) (acts : List Act) : Option Bus := usbd.walk q (acts.map (·, 0))

/-- The firmware, `_ep_out`, `_ep_in` and `_ep_intr`, and whether TinyUSB holds the device
configured -/
structure UsbDevice where
  fw : State
  eps : Endpoints
  configured : Bool

inductive UsbEvent
  /-- the host sets the configuration, and `usbd_edpt_open` answers so -/
  | setConfiguration (edptOpen : List UInt8 → List UInt8 → Bool)
  | firmware (e : Event)

/-- A transfer on the IN endpoint started or ended. -/
def inActs (ep : UInt8) (before after : Bool) : List Act :=
  if before = after then [] else if after then [.edptXfer ep] else [.completed ep]

/-- `_ccid_open` with the interface of the device -/
def openOwn (edptOpen : List UInt8 → List UInt8 → Bool) (eps : Endpoints) : Option Opened :=
  ccidOpen edptOpen eps (descNext configurationMemory) (descConfiguration.length - 9) 5

def step (k : Backend) (d : UsbDevice) : UsbEvent → UsbDevice × List Act
  | .setConfiguration edptOpen =>
    if d.configured then (d, [])
    else
      match openOwn edptOpen d.eps with
      | none => (d, [])
      | some o =>
        ({ d with eps := o.eps, configured := o.armed },
          o.opened.map .edptOpen ++ if o.armed then [.edptXfer o.eps.epOut] else [])
  | .firmware (.bulkOut bytes amb) =>
    if d.configured then
      -- `_ccid_xfer_cb` queues the next OUT transfer whatever it made of this one
      ({ d with fw := (Firmware.step k d.fw (.bulkOut bytes amb)).1 },
        [.completed d.eps.epOut, .edptXfer d.eps.epOut])
    else (d, [])
  | .firmware .busReset =>
    ({ d with fw := (Firmware.step k d.fw .busReset).1, configured := false }, [.closeAll])
  | .firmware e =>
    let fw := (Firmware.step k d.fw e).1
    ({ d with fw := fw },
      inActs d.eps.epIn d.fw.inTransfer.isSome fw.inTransfer.isSome)

/-- The device when the main loop is entered -/
def powered : UsbDevice := { fw := boot, eps := ⟨0, 0, 0⟩, configured := false }

def closed : Bus := { opened := [], busy := [] }

section Acts

variable {q : Bus}

theorem follow_append (q : Bus) (as bs : List Act) :
    follow q (as ++ bs) = (follow q as).bind (follow · bs) := by
  rw [follow, List.map_append, usbd.walk_append]
  rfl

theorem follow_opens (hidle : q.busy = []) (eps : List UInt8) :
    follow q (eps.map .edptOpen) = some { q with opened := eps.reverse ++ q.opened } := by
  induction eps generalizing q with
  | nil => rfl
  | cons ep eps ih =>
    have hfirst : follow q [.edptOpen ep] = some { q with opened := ep :: q.opened } := by
      simp [follow, Protocol.walk, Protocol.next, usbd, hidle]
    have hsplit : (ep :: eps).map Act.edptOpen = [.edptOpen ep] ++ eps.map .edptOpen := rfl
    have hrest := ih (q := { q with opened := ep :: q.opened }) hidle
    rw [hsplit, follow_append, hfirst, Option.bind_some, hrest]
    simp

theorem follow_xfer {ep : UInt8} (hopen : ep ∈ q.opened) (hfree : ep ∉ q.busy) :
    follow q [.edptXfer ep] = some { q with busy := ep :: q.busy } := by
  simp [follow, Protocol.walk, Protocol.next, usbd, hopen, hfree]

theorem follow_completed {ep : UInt8} (hbusy : ep ∈ q.busy) :
    follow q [.completed ep] = some { q with busy := q.busy.filter (· != ep) } := by
  simp [follow, Protocol.walk, Protocol.next, usbd, hbusy]

end Acts

/-- The bus is as the device has it. -/
structure Consistent (d : UsbDevice) (q : Bus) : Prop where
  opened : d.configured = true →
    d.eps.epOut ∈ q.opened ∧ d.eps.epIn ∈ q.opened ∧ d.eps.epOut ≠ d.eps.epIn
  busy : ∀ ep, ep ∈ q.busy ↔ d.configured = true ∧
    (ep = d.eps.epOut ∨ ep = d.eps.epIn ∧ d.fw.inTransfer.isSome = true)
  quiet : d.configured = false → d.fw.ccid.responsePending = false ∧ d.fw.inTransfer = none

section Steps

variable {k : Backend} {d : UsbDevice} {q : Bus}

theorem openOwn_spec (edptOpen : List UInt8 → List UInt8 → Bool) (eps : Endpoints) :
    openOwn edptOpen eps = some (openSpec edptOpen eps interfaceDescriptor behindInterface) := by
  have hlength : descConfiguration.length - 9 =
      chainLength (interfaceDescriptor :: behindInterface) := by decide
  rw [openOwn, hlength]
  exact ccidOpen_chain eps interface_points (by decide) (by decide) behindInterface_wellFormed
    (by decide)

/-- The OUT endpoint and the IN endpoint of an accepted interface were opened, and differ in their
direction. -/
theorem claims_distinct {c : Descriptor} {cs : List Descriptor} {o : Opened} (h : Claims c cs o) :
    o.eps.epOut ∈ o.opened ∧ o.eps.epIn ∈ o.opened ∧ o.eps.epOut ≠ o.eps.epIn := by
  obtain ⟨e, he, ⟨_, hout⟩, heq⟩ := h.out
  obtain ⟨e', he', ⟨_, hin⟩, heq'⟩ := h.inn
  rw [h.opened, heq, heq']
  refine ⟨List.mem_map_of_mem he, List.mem_map_of_mem he', fun hsame => ?_⟩
  rw [hsame, hin] at hout
  cases hout

theorem Consistent.idle (h : Consistent d q) (hoff : d.configured = false) : q.busy = [] := by
  rw [List.eq_nil_iff_forall_not_mem]
  intro ep hep
  have hno := ((h.busy ep).mp hep).1
  rw [hoff] at hno
  cases hno

theorem setConfiguration_consistent (h : Consistent d q)
    (edptOpen : List UInt8 → List UInt8 → Bool) :
    ∃ q', follow q (step k d (.setConfiguration edptOpen)).2 = some q' ∧
      Consistent (step k d (.setConfiguration edptOpen)).1 q' := by
  simp only [step, openOwn_spec]
  generalize ho : openSpec edptOpen d.eps interfaceDescriptor behindInterface = o
  by_cases hon : d.configured = true
  · simp only [if_pos hon]
    exact ⟨q, rfl, h⟩
  have hoff : d.configured = false := by simpa using hon
  simp only [if_neg hon]
  rw [follow_append, follow_opens (h.idle hoff), Option.bind_some]
  cases harmed : o.armed with
  | false =>
    refine ⟨_, rfl, (fun hno => by cases hno), fun ep => ?_, fun _ => h.quiet hoff⟩
    rw [h.idle hoff]
    simp
  | true =>
    have hclaims : Claims interfaceDescriptor behindInterface o := by
      rw [← ho]
      exact openSpec_claims behindInterface_wellFormed (by rw [ho, harmed])
    obtain ⟨hopenedOut, hopenedIn, hdistinct⟩ := claims_distinct hclaims
    have hout : o.eps.epOut ∈ o.opened.reverse ++ q.opened := by simp [hopenedOut]
    have hin : o.eps.epIn ∈ o.opened.reverse ++ q.opened := by simp [hopenedIn]
    refine ⟨_, follow_xfer hout (by simp [h.idle hoff]), fun _ => ?_, fun ep => ?_, ?_⟩
    · exact ⟨hout, hin, hdistinct⟩
    · simp [h.idle hoff, (h.quiet hoff).2]
    · intro hno
      cases hno

theorem bulkOut_consistent (h : Consistent d q) (bytes : List UInt8) (amb : PivApplet.Ambient) :
    ∃ q', follow q (step k d (.firmware (.bulkOut bytes amb))).2 = some q' ∧
      Consistent (step k d (.firmware (.bulkOut bytes amb))).1 q' := by
  simp only [step]
  by_cases hon : d.configured = true
  swap
  · simp only [if_neg hon]
    exact ⟨q, rfl, h⟩
  obtain ⟨hout, hin, hdistinct⟩ := h.opened hon
  have hbusy : d.eps.epOut ∈ q.busy := (h.busy _).mpr ⟨hon, Or.inl rfl⟩
  simp only [if_pos hon]
  have hacts : [Act.completed d.eps.epOut, .edptXfer d.eps.epOut] =
      [.completed d.eps.epOut] ++ [.edptXfer d.eps.epOut] := rfl
  rw [hacts, follow_append, follow_completed hbusy, Option.bind_some]
  refine ⟨_, follow_xfer hout (by simp), fun _ => ⟨hout, hin, hdistinct⟩, fun ep => ?_, ?_⟩
  · simp only [List.mem_cons, List.mem_filter, h.busy, bne_iff_ne]
    constructor
    · rintro (hep | ⟨hep, _⟩)
      · exact ⟨hon, Or.inl hep⟩
      · exact hep
    · rintro ⟨_, hep⟩
      by_cases hself : ep = d.eps.epOut
      · exact Or.inl hself
      · exact Or.inr ⟨⟨hon, hep⟩, hself⟩
  · intro hoff
    rw [hon] at hoff
    cases hoff

theorem busReset_consistent (d : UsbDevice) (q : Bus) :
    ∃ q', follow q (step k d (.firmware .busReset)).2 = some q' ∧
      Consistent (step k d (.firmware .busReset)).1 q' := by
  refine ⟨closed, rfl, (fun hno => by cases hno), fun ep => ?_, fun _ => ⟨rfl, rfl⟩⟩
  simp [closed, step]

/-- The other events: a response is not made, and a transfer started only for one. -/
theorem endpoint_step (s : State) (e : Event) (hmessage : ∀ bytes amb, e ≠ .bulkOut bytes amb) :
    ((Firmware.step k s e).1.ccid.responsePending = true → s.ccid.responsePending = true) ∧
      ((Firmware.step k s e).1.inTransfer.isSome = true → s.inTransfer.isSome = true ∨
        s.ccid.responsePending = true) := by
  cases e with
  | bulkOut bytes amb => exact absurd rfl (hmessage bytes amb)
  | inRead n =>
    simp only [Firmware.step]
    cases hin : s.inTransfer with
    | none => exact ⟨id, fun hno => by simp [hin] at hno⟩
    | some t => exact ⟨id, fun _ => Or.inl rfl⟩
  | inComplete =>
    simp only [Firmware.step]
    cases hin : s.inTransfer with
    | none => exact ⟨id, fun hno => by simp [hin] at hno⟩
    | some t =>
      by_cases hall : t.sent.length = t.total
      · simp only [if_pos hall]
        exact ⟨id, fun _ => Or.inl rfl⟩
      · simp only [if_neg hall]
        exact ⟨id, fun _ => Or.inl rfl⟩
  | ccidTask available =>
    simp only [Firmware.step, ccidTask]
    by_cases hpending : s.ccid.responsePending = false
    · simp only [if_pos hpending]
      exact ⟨id, Or.inl⟩
    · have hwaits : s.ccid.responsePending = true := by simpa using hpending
      exact ⟨fun _ => hwaits, fun _ => Or.inr hwaits⟩
  | busReset =>
    constructor
    · intro hno
      cases hno
    · intro hno
      cases hno
  | umount | gpioIrq | poll | tick => exact ⟨id, Or.inl⟩

theorem other_consistent (h : Consistent d q) (e : Event)
    (hmessage : ∀ bytes amb, e ≠ .bulkOut bytes amb) :
    ∃ q', follow q (inActs d.eps.epIn d.fw.inTransfer.isSome
        (Firmware.step k d.fw e).1.inTransfer.isSome) = some q' ∧
      Consistent { d with fw := (Firmware.step k d.fw e).1 } q' := by
  obtain ⟨hpending, hstarts⟩ := endpoint_step (k := k) d.fw e hmessage
  generalize (Firmware.step k d.fw e).1 = fw at hpending hstarts ⊢
  by_cases hoff : d.configured = false
  · obtain ⟨hnone, hidle⟩ := h.quiet hoff
    have hstill : fw.inTransfer = none := by
      rw [← Option.not_isSome_iff_eq_none]
      intro hsome
      rcases hstarts hsome with hbefore | hbefore
      · simp [hidle] at hbefore
      · simp [hnone] at hbefore
    have hquiet : fw.ccid.responsePending = false := by
      rw [← Bool.not_eq_true]
      intro hwaits
      rw [hpending hwaits] at hnone
      cases hnone
    simp only [hidle, hstill, inActs]
    refine ⟨q, rfl, h.opened, fun ep => ?_, fun _ => ⟨hquiet, hstill⟩⟩
    rw [h.idle hoff]
    simp [hoff]
  have hon : d.configured = true := by simpa using hoff
  obtain ⟨hout, hin, hdistinct⟩ := h.opened hon
  have hquiet : ∀ {P : Prop}, d.configured = false → P := fun hno => absurd hno hoff
  simp only [inActs]
  by_cases hsame : d.fw.inTransfer.isSome = fw.inTransfer.isSome
  · rw [if_pos hsame]
    refine ⟨q, rfl, h.opened, fun ep => ?_, hquiet⟩
    rw [h.busy, hsame]
  rw [if_neg hsame]
  by_cases hafter : fw.inTransfer.isSome = true
  · have hbefore : d.fw.inTransfer.isSome = false := by
      rw [← Bool.not_eq_true]
      exact fun hno => hsame (hno.trans hafter.symm)
    have hfree : d.eps.epIn ∉ q.busy := by
      rw [h.busy, hbefore]
      rintro ⟨_, hno | ⟨_, hno⟩⟩
      · exact hdistinct hno.symm
      · cases hno
    rw [if_pos hafter]
    refine ⟨_, follow_xfer hin hfree, h.opened, fun ep => ?_, hquiet⟩
    simp [h.busy, hon, hbefore, hafter, or_comm]
  · have hbefore : d.fw.inTransfer.isSome = true := by
      by_contra hno
      exact hsame (by rw [Bool.not_eq_true] at hno hafter; rw [hno, hafter])
    have hbusy : d.eps.epIn ∈ q.busy := (h.busy _).mpr ⟨hon, Or.inr ⟨rfl, hbefore⟩⟩
    rw [if_neg hafter]
    refine ⟨_, follow_completed hbusy, h.opened, fun ep => ?_, hquiet⟩
    simp only [List.mem_filter, h.busy, bne_iff_ne]
    constructor
    · rintro ⟨⟨_, hep | ⟨hep, _⟩⟩, hne⟩
      · exact ⟨hon, Or.inl hep⟩
      · exact absurd hep hne
    · rintro ⟨_, hep | ⟨_, hno⟩⟩
      · exact ⟨⟨hon, Or.inl hep⟩, by rw [hep]; exact hdistinct⟩
      · exact absurd hno hafter

theorem step_consistent (h : Consistent d q) (e : UsbEvent) :
    ∃ q', follow q (step k d e).2 = some q' ∧ Consistent (step k d e).1 q' := by
  cases e with
  | setConfiguration edptOpen => exact setConfiguration_consistent h edptOpen
  | firmware e =>
    cases e with
    | bulkOut bytes amb => exact bulkOut_consistent h bytes amb
    | busReset => exact busReset_consistent d q
    | inRead n => exact other_consistent h (.inRead n) (by rintro _ _ ⟨⟩)
    | inComplete => exact other_consistent h .inComplete (by rintro _ _ ⟨⟩)
    | ccidTask available => exact other_consistent h (.ccidTask available) (by rintro _ _ ⟨⟩)
    | umount now => exact other_consistent h (.umount now) (by rintro _ _ ⟨⟩)
    | gpioIrq gpio now => exact other_consistent h (.gpioIrq gpio now) (by rintro _ _ ⟨⟩)
    | poll sample => exact other_consistent h (.poll sample) (by rintro _ _ ⟨⟩)
    | tick now => exact other_consistent h (.tick now) (by rintro _ _ ⟨⟩)

end Steps

/-- The device behind a run from power-up -/
def device (k : Backend) (es : List UsbEvent) : UsbDevice := exec (step k) powered es

/-- What the driver asked of TinyUSB along a run, and what TinyUSB did -/
def acts (k : Backend) (es : List UsbEvent) : List Act := trace (step k) powered es

theorem run_consistent (k : Backend) (es : List UsbEvent) :
    ∃ q, follow closed (acts k es) = some q ∧ Consistent (device k es) q := by
  apply history_invariant (J := fun h d => ∃ q, follow closed h = some q ∧ Consistent d q)
  · rintro h d e ⟨q, hwalk, hconsistent⟩
    obtain ⟨q', hnext, hafter⟩ := step_consistent (k := k) hconsistent e
    refine ⟨q', ?_, hafter⟩
    rw [follow_append, hwalk]
    exact hnext
  · refine ⟨closed, rfl, (fun hno => by cases hno), fun ep => ?_, fun _ => ⟨rfl, rfl⟩⟩
    simp [closed, powered]

/-- A step on the bus is a step of the firmware, or none. -/
theorem step_firmware (k : Backend) (d : UsbDevice) (e : UsbEvent) :
    (step k d e).1.fw = d.fw ∨ ∃ e', (step k d e).1.fw = (Firmware.step k d.fw e').1 := by
  cases e with
  | setConfiguration edptOpen =>
    refine Or.inl ?_
    simp only [step, openOwn_spec]
    split <;> rfl
  | firmware e =>
    cases e with
    | bulkOut bytes amb =>
      simp only [step]
      split
      · exact Or.inr ⟨_, rfl⟩
      · exact Or.inl rfl
    | inRead | inComplete | ccidTask | busReset | umount | gpioIrq | poll | tick =>
      exact Or.inr ⟨_, rfl⟩

/-- The firmware on the bus is in a state that a run of its own reaches. -/
theorem device_reachable (k : Backend) (es : List UsbEvent) :
    ∃ fs, (device k es).fw = run k fs := by
  have hnext : ∀ d e, (∃ fs, d.fw = run k fs) → ∃ fs, (step k d e).1.fw = run k fs := by
    rintro d e ⟨fs, hfw⟩
    rcases step_firmware k d e with hsame | ⟨e', hstep⟩
    · exact ⟨fs, hsame.trans hfw⟩
    · refine ⟨fs ++ [e'], ?_⟩
      rw [hstep, hfw, run_append]
      rfl
  exact state_invariant (P := fun d : UsbDevice => ∃ fs, d.fw = run k fs) hnext ⟨[], rfl⟩ es

/-- However often the host configures the device and resets the bus, and whatever happens in
between: every endpoint is opened and every transfer queued in its turn, an OUT transfer is
outstanding exactly while the device is configured, so that it always listens, and a response
waits only while there is an IN endpoint to send it on. The firmware meanwhile goes through a run
of its own. -/
theorem driver_listens (k : Backend) (es : List UsbEvent) :
    ∃ q, follow closed (acts k es) = some q ∧ (∀ ep ∈ q.busy, ep ∈ q.opened) ∧
      ((device k es).configured = true ↔ (device k es).eps.epOut ∈ q.busy) ∧
      ((device k es).fw.ccid.responsePending = true → (device k es).eps.epIn ∈ q.opened) ∧
      ∃ fs, (device k es).fw = run k fs := by
  obtain ⟨q, hwalk, hconsistent⟩ := run_consistent k es
  refine ⟨q, hwalk, ?_, ?_, ?_, device_reachable k es⟩
  · intro ep hep
    obtain ⟨hon, hwhich⟩ := (hconsistent.busy ep).mp hep
    obtain ⟨hout, hin, _⟩ := hconsistent.opened hon
    rcases hwhich with rfl | ⟨rfl, _⟩
    · exact hout
    · exact hin
  · rw [hconsistent.busy]
    exact ⟨fun hon => ⟨hon, Or.inl rfl⟩, And.left⟩
  · intro hwaits
    by_cases hon : (device k es).configured = true
    · exact (hconsistent.opened hon).2.1
    · rw [(hconsistent.quiet (by simpa using hon)).1] at hwaits
      cases hwaits

end UsbListening
