import Ward3n.ChainedResponses
import Ward3n.InputConfinement
import Ward3n.ResponseLengths
import Ward3n.StepSimulation

/-!
# What the firmware can touch

Two devices whose buffers lie in different memory. They hold the same bytes
inside `_rx_buf`, `_tx_buf` and `chain_buf`, and anything around them. As long
as no transfer is longer than the receive buffer, nothing that is seen of the
devices tells them apart, and what lies around the buffers stays as it was: no
cell outside them is ever read or written, whatever the messages declare.
-/

namespace BufferConfinement

open CellMemory MachineWords ApduCodec CryptoBackend DeviceState UserButton PivApplet CcidDriver
  Firmware TracedRuns StepSimulation AppletEffects InputConfinement ChainedResponses
  TransmitBuffer FirmwareSteps ResponseLengths

/-- The card with another chain buffer. -/
def withChain (card : Card) (buf : Memory UInt8) : Card :=
  { card with piv := { card.piv with chainBuf := buf } }

/-- Two cards that differ at most in what lies behind their chain buffers. -/
def SameCard (card card' : Card) : Prop :=
  ∃ buf, card' = withChain card buf ∧ Agree chainBufSize card.piv.chainBuf buf

/-- Two outcomes of an APDU with the same answer. -/
structure SameOutcome (h h' : Handled) : Prop where
  card : SameCard h.card h'.card
  answer : h.answer = h'.answer
  signed : h.signed = h'.signed

section Commands

variable {k : Backend} {amb : Ambient} {card card' : Card} {cmd : ApduCmd}
  {raw raw' out out' buf : Memory UInt8} {n outCap : Nat}

/-- Input beyond the longest short command is not looked at. -/
theorem apduParse_long (raw : Memory UInt8) {n : Nat} (hn : 261 ≤ n) :
    apduParse raw n = apduParse raw 261 := by
  have hbyte := (raw 4).toNat_lt
  have hlong : ¬ n < 4 ∧ n ≠ 4 ∧ n ≠ 5 ∧ ¬ 5 + (raw 4).toNat > n ∧ 5 + (raw 4).toNat < n := by
    omega
  have hlast : ¬ 5 + (raw 4).toNat > 261 ∧ 5 + (raw 4).toNat < 261 := by omega
  simp only [apduParse]
  rw [if_neg hlong.1, if_neg hlong.2.1, if_neg hlong.2.2.1, if_neg hlong.2.2.2.1,
    if_pos hlong.2.2.2.2, if_neg (by decide), if_neg (by decide), if_neg (by decide),
    if_neg hlast.1, if_pos hlast.2]

/-- Commands parsed from inputs that agree differ at most in cells no handler looks at. -/
theorem apduParse_same (h : Agree 261 raw raw') (n : Nat) :
    (apduParse raw n = none ∧ apduParse raw' n = none) ∨
      ∃ cmd p, apduParse raw n = some cmd ∧ apduParse raw' n = some { cmd with data := p } ∧
        cmd.lc ≤ 255 ∧ (cmd.hasLc = true → Agree 256 p cmd.data) := by
  have hmin : ∀ m, apduParse m n = apduParse m (min n 261) := by
    intro m
    rcases Nat.lt_or_ge n 261 with hshort | hlong
    · rw [Nat.min_eq_left (by omega)]
    · rw [Nat.min_eq_right hlong, apduParse_long m hlong]
  rw [hmin raw, hmin raw']
  rcases apduParse_agree (h.mono (Nat.min_le_right n 261)) with hnone | ⟨c, d, hc, hd, hsame⟩
  · exact Or.inl hnone
  have haccepted := apduParse_accepted hc
  refine Or.inr ⟨c, d.data, hc, ?_, haccepted.lc_le.1, fun hbody => ?_⟩
  · rw [hd, hsame.scalars]
  · have hbody' : d.hasLc = true := by
      have hscalar := congrArg ApduCmd.hasLc hsame.scalars
      exact hscalar.symm.trans hbody
    rw [(haccepted.body hbody).2.2.2, ((apduParse_accepted hd).body hbody').2.2.2]
    intro i hi
    exact (h (5 + i) (by omega)).symm

/-- The data of the command may lie in either device. -/
theorem pivProcessApdu_input (k : Backend) (amb : Ambient) (card : Card) (h : Agree 261 raw raw')
    (n : Nat) :
    pivProcessApdu k amb card raw' n out outCap = pivProcessApdu k amb card raw n out outCap := by
  simp only [pivProcessApdu]
  rcases apduParse_same h n with ⟨hnone, hnone'⟩ | ⟨cmd, p, hcmd, hcmd', hlc, hdata⟩
  · rw [hnone, hnone']
  rw [hcmd, hcmd']
  have hagree : Agree cmd.lc p cmd.data := by
    cases hbody : cmd.hasLc with
    | true => exact (hdata hbody).mono (by omega)
    | false =>
      rw [(apduParse_accepted hcmd).noBody hbody]
      exact fun i hi => absurd hi (Nat.not_lt_zero i)
  have hobject : handleGetData k card { cmd with data := p } out outCap =
      handleGetData k card cmd out outCap := by
    refine handleGetData_agree hagree fun _ hbody _ _ => ?_
    have hthree : read (advance p 2) 3 = read (advance cmd.data 2) 3 :=
      read_congr fun i hi => hdata hbody (2 + i) (by omega)
    have hfirst : advance p 2 0 = advance cmd.data 2 0 := hdata hbody 2 (by decide)
    simp only [dataObject, hthree, hfirst]
  simp only [handleSelected, handleSelect_agree hagree, handleVerify_agree hagree, hobject,
    handleGeneralAuthenticate_agree (show cmd.lc < 2 ^ 32 by omega) hagree]
  rfl

/-- What GET RESPONSE takes lies inside the chain buffer. -/
theorem handleGetResponse_chain (hbounded : Bounded card.piv)
    (hbuf : Agree chainBufSize card.piv.chainBuf buf) :
    SameOutcome (handleGetResponse card cmd out outCap)
      (handleGetResponse (withChain card buf) cmd out outCap) := by
  have htotal : card.piv.chainLen ≤ chainBufSize := hbounded.total
  by_cases hopen : card.piv.chainOffset < card.piv.chainLen
  · have hpart : chainPart card.piv cmd ≤ card.piv.chainLen - card.piv.chainOffset := by
      simp only [chainPart]
      split <;> omega
    have hread : read (advance card.piv.chainBuf card.piv.chainOffset) (chainPart card.piv cmd) =
        read (advance buf card.piv.chainOffset) (chainPart card.piv cmd) :=
      read_congr ((hbuf.advance card.piv.chainOffset).mono (by omega))
    have hopen' : (withChain card buf).piv.chainOffset < (withChain card buf).piv.chainLen := hopen
    rw [handleGetResponse_open hopen, handleGetResponse_open hopen', hread]
    exact ⟨⟨buf, rfl, hbuf⟩, rfl, rfl⟩
  · have hdone : card.piv.chainOffset ≥ card.piv.chainLen := Nat.not_lt.mp hopen
    have hdone' : (withChain card buf).piv.chainOffset ≥ (withChain card buf).piv.chainLen := hdone
    simp only [handleGetResponse]
    simp only [if_pos hdone, if_pos hdone']
    exact ⟨⟨buf, rfl, hbuf⟩, rfl, rfl⟩

theorem handleGetData_chain (k : Backend) (hbuf : Agree chainBufSize card.piv.chainBuf buf) :
    SameOutcome (handleGetData k card cmd out outCap)
      (handleGetData k (withChain card buf) cmd out outCap) := by
  simp only [handleGetData]
  cases requestedObject k cmd with
  | error sw => exact ⟨⟨buf, rfl, hbuf⟩, rfl, rfl⟩
  | ok obj =>
    by_cases hfits : obj.length ≤ effectiveLe cmd
    · simp only [if_pos hfits]
      exact ⟨⟨buf, rfl, hbuf⟩, rfl, rfl⟩
    · simp only [if_neg hfits]
      exact ⟨⟨write buf 0 obj, rfl, hbuf.write 0 obj⟩, rfl, rfl⟩

theorem handleGeneralAuthenticate_chain (k : Backend) (amb : Ambient)
    (hbuf : Agree chainBufSize card.piv.chainBuf buf) :
    SameOutcome (handleGeneralAuthenticate k amb card cmd out outCap)
      (handleGeneralAuthenticate k amb (withChain card buf) cmd out outCap) := by
  have hrequest : requestedChallenge (withChain card buf).piv cmd =
      requestedChallenge card.piv cmd := rfl
  simp only [handleGeneralAuthenticate, hrequest]
  cases requestedChallenge card.piv cmd with
  | error sw => exact ⟨⟨buf, rfl, hbuf⟩, rfl, rfl⟩
  | ok hash =>
    cases hauth : devStateIsAuthorized card.dev with
    | false =>
      have hauth' : devStateIsAuthorized (withChain card buf).dev = false := hauth
      simp only [hauth', if_true]
      exact ⟨⟨buf, rfl, hbuf⟩, rfl, rfl⟩
    | true =>
      have hauth' : devStateIsAuthorized (withChain card buf).dev = true := hauth
      have hconsume : (devStateConsumeAuth card.dev).1 = true := by
        rw [consume_eq_isAuthorized, hauth]
      have hconsume' : (devStateConsumeAuth (withChain card buf).dev).1 = true := hconsume
      simp only [hauth', hconsume, hconsume', Bool.true_eq_false, if_false]
      by_cases hsig : (cryptoSign k amb.pkSign cmd.p2 cmd.p1 hash 72).length = 0
      · simp only [if_pos hsig]
        exact ⟨⟨buf, rfl, hbuf⟩, rfl, rfl⟩
      · simp only [if_neg hsig]
        exact ⟨⟨buf, rfl, hbuf⟩, rfl, rfl⟩

/-- The chain buffer may lie in either device. -/
theorem pivProcessApdu_chain (k : Backend) (amb : Ambient) (hbounded : Bounded card.piv)
    (hbuf : Agree chainBufSize card.piv.chainBuf buf) (n : Nat) :
    SameOutcome (pivProcessApdu k amb card raw n out outCap)
      (pivProcessApdu k amb (withChain card buf) raw n out outCap) := by
  have hsame : SameCard card (withChain card buf) := ⟨buf, rfl, hbuf⟩
  simp only [pivProcessApdu]
  cases apduParse raw n with
  | none => exact ⟨hsame, rfl, rfl⟩
  | some cmd =>
    by_cases hcla : cmd.cla ≠ 0x00
    · simp only [if_pos hcla]
      exact ⟨hsame, rfl, rfl⟩
    simp only [if_neg hcla]
    by_cases hselect : cmd.ins = 0xA4
    · simp only [if_pos hselect, handleSelect]
      repeat' split
      all_goals exact ⟨⟨buf, rfl, hbuf⟩, rfl, rfl⟩
    simp only [if_neg hselect]
    cases hselected : card.piv.selected with
    | false =>
      have hselected' : (withChain card buf).piv.selected = false := hselected
      simp only [hselected', if_true]
      exact ⟨hsame, rfl, rfl⟩
    | true =>
      have hselected' : (withChain card buf).piv.selected = true := hselected
      simp only [hselected', Bool.true_eq_false, if_false, handleSelected]
      by_cases hverify : cmd.ins = 0x20
      · simp only [if_pos hverify, handleVerify]
        repeat' split
        all_goals exact ⟨⟨buf, rfl, hbuf⟩, rfl, rfl⟩
      simp only [if_neg hverify]
      by_cases hgetData : cmd.ins = 0xCB
      · simp only [if_pos hgetData]
        exact handleGetData_chain k hbuf
      simp only [if_neg hgetData]
      by_cases hgetResponse : cmd.ins = 0xC0
      · simp only [if_pos hgetResponse]
        exact handleGetResponse_chain hbounded hbuf
      simp only [if_neg hgetResponse]
      by_cases hauthenticate : cmd.ins = 0x87
      · simp only [if_pos hauthenticate]
        exact handleGeneralAuthenticate_chain k amb hbuf
      · simp only [if_neg hauthenticate]
        exact ⟨hsame, rfl, rfl⟩

/-- An APDU has the same outcome in both devices. -/
theorem pivProcessApdu_same (k : Backend) (amb : Ambient) {card' : Card}
    (hcard : SameCard card card') (hbounded : Bounded card.piv) (hcap : 258 ≤ outCap)
    (h : Agree 261 raw raw') (n : Nat) :
    SameOutcome (pivProcessApdu k amb card raw n out outCap)
      (pivProcessApdu k amb card' raw' n out' outCap) := by
  obtain ⟨buf, rfl, hbuf⟩ := hcard
  have hchain : SameOutcome (pivProcessApdu k amb card raw n out outCap)
      (pivProcessApdu k amb (withChain card buf) raw n out outCap) :=
    pivProcessApdu_chain k amb hbounded hbuf n
  obtain ⟨r, _, hshows⟩ := pivProcessApdu_effect k amb (withChain card buf) raw n hcap
  rw [pivProcessApdu_input k amb (withChain card buf) h n]
  constructor
  · rw [(hshows out').card, ← (hshows out).card]
    exact hchain.card
  · rw [(hshows out').answer, ← (hshows out).answer]
    exact hchain.answer
  · rw [(hshows out').signed, ← (hshows out).signed]
    exact hchain.signed

end Commands

/-- All that was written is the answer, from the start of the output buffer on. -/
def Writes (h : Handled) (out : Memory UInt8) : Prop := h.out = write out 0 h.answer

/-- All that was written so far is the body. -/
def Filled (r : ApduResp) (out : Memory UInt8) : Prop := r.buf = write out 0 r.body

section Writing

variable {card : Card} {cmd : ApduCmd} {r : ApduResp} {out : Memory UInt8} {outCap : Nat}

theorem filled_init (out : Memory UInt8) (outCap : Nat) : Filled (apduRespInit out outCap) out := by
  funext i
  exact (write_after out 0 [] (Nat.zero_le i)).symm

theorem filled_append (h : Filled r out) (data : List UInt8) :
    Filled (apduRespAppend r data).2 out := by
  have hbody := apduRespAppend_body r data
  simp only [apduRespAppend] at hbody ⊢
  by_cases hempty : data.length = 0
  · simp only [if_pos hempty]
    exact h
  simp only [if_neg hempty] at hbody ⊢
  by_cases hfull : r.len + data.length + 2 > r.capacity
  · simp only [if_pos hfull]
    exact h
  · have hwritten : write r.buf r.len data = write out 0 (r.body ++ data) := by
      have happend := write_append out 0 r.body data
      rwa [Nat.zero_add, ApduResp.body, read_length, ← ApduResp.body, ← h] at happend
    simp only [if_neg hfull] at hbody ⊢
    have hfits : extend r.capacity r.body data = r.body ++ data :=
      extend_fits (by rw [ApduResp.body, read_length]; omega)
    rw [Filled, hbody, hfits]
    exact hwritten

theorem writes_finish (h : Filled r out) (card : Card) (sw : Nat) :
    Writes (finish card r sw) out := by
  have hbytes := apduRespFinalize_bytes r sw
  have hwritten : write r.buf r.len (swBytes sw) = write out 0 (r.body ++ swBytes sw) := by
    have happend := write_append out 0 r.body (swBytes sw)
    rwa [Nat.zero_add, ApduResp.body, read_length, ← ApduResp.body, ← h] at happend
  have hanswer : (finish card r sw).answer = r.body ++ swBytes sw := hbytes
  rw [Writes, hanswer]
  exact hwritten

theorem writes_bareAnswer (card : Card) (out : Memory UInt8) (sw : Nat) :
    Writes (bareAnswer card out sw) out := by
  have hanswer : (bareAnswer card out sw).answer = swBytes sw := read_write_zero out (swBytes sw)
  rw [Writes, hanswer]
  rfl

theorem filled_pushSignature (h : Filled r out) (sig : List UInt8) :
    Filled (pushSignature r sig) out := by
  have htag := filled_append h [pivDatTag]
  have hlen := filled_append htag [UInt8.ofNat (2 + sig.length)]
  have hresponse := filled_append (filled_append hlen [pivDatResponse]) [UInt8.ofNat sig.length]
  exact filled_append hresponse sig

theorem handleGeneralAuthenticate_writes (k : Backend) (amb : Ambient) (card : Card) (cmd : ApduCmd)
    (out : Memory UInt8) (outCap : Nat) :
    Writes (handleGeneralAuthenticate k amb card cmd out outCap) out := by
  have hinit := filled_init out outCap
  simp only [handleGeneralAuthenticate]
  cases requestedChallenge card.piv cmd with
  | error sw => exact writes_finish hinit card sw
  | ok hash =>
    simp only
    repeat' split
    · exact writes_finish hinit _ _
    · exact writes_finish hinit _ _
    · exact writes_finish hinit { card with dev := spend card.dev } swUnknown
    · exact writes_finish
        (filled_pushSignature hinit (cryptoSign k amb.pkSign cmd.p2 cmd.p1 hash 72))
        { card with dev := spend card.dev } swOk

/-- An APDU handler writes its answer and nothing else. -/
theorem pivProcessApdu_writes (k : Backend) (amb : Ambient) (card : Card) (raw : Memory UInt8)
    (n : Nat) (out : Memory UInt8) (outCap : Nat) :
    Writes (pivProcessApdu k amb card raw n out outCap) out := by
  have hinit := filled_init out outCap
  simp only [pivProcessApdu]
  split
  · exact writes_bareAnswer card out _
  split
  · exact writes_bareAnswer card out _
  split
  · simp only [handleSelect]
    repeat' split
    all_goals first
      | exact writes_finish hinit _ _
      | exact writes_finish (filled_append hinit fci) _ _
  split
  · exact writes_bareAnswer card out _
  simp only [handleSelected]
  split
  · simp only [handleVerify]
    repeat' split
    all_goals exact writes_finish hinit _ _
  split
  · simp only [handleGetData]
    repeat' split
    · exact writes_finish hinit _ _
    · exact writes_finish (filled_append hinit _) _ _
    · exact writes_finish (filled_append hinit _) _ _
  split
  · simp only [handleGetResponse]
    repeat' split
    · exact writes_finish hinit _ _
    all_goals exact writes_finish (filled_append hinit _) _ _
  split
  · exact handleGeneralAuthenticate_writes k amb card _ out outCap
  · exact writes_bareAnswer card out _

end Writing

/-- Two responses of the same length, written from the start of their buffers on with the same
bytes. -/
structure SameResponse (out out' : Memory UInt8) (a b : Memory UInt8 × Nat) : Prop where
  cells : ∃ cells, cells.length ≤ ccidBufSize ∧ a.1 = write out 0 cells ∧ b.1 = write out' 0 cells
  len : a.2 = b.2

/-- Two drivers with the same bytes in their buffers. -/
structure SameCcid (s t : Ccid) : Prop where
  powered : s.iccPowered = t.iccPowered
  rx : Agree ccidBufSize s.rxBuf t.rxBuf
  tx : Agree ccidBufSize s.txBuf t.txBuf
  pending : s.responsePending = t.responsePending
  len : s.responseLen = t.responseLen

/-- A message had the same outcome in both devices, and wrote inside their transmit buffers. -/
structure SameProcessed (s t : Ccid) (p q : Processed) : Prop where
  ccid : SameCcid p.ccid q.ccid
  card : SameCard p.card q.card
  signed : p.signed = q.signed
  rx : p.ccid.rxBuf = s.rxBuf ∧ q.ccid.rxBuf = t.rxBuf
  tx : ∃ cells, cells.length ≤ ccidBufSize ∧ p.ccid.txBuf = write s.txBuf 0 cells ∧
    q.ccid.txBuf = write t.txBuf 0 cells

section Driver

variable {k : Backend} {amb : Ambient} {s t : Ccid} {card card' : Card}
  {msg msg' out out' : Memory UInt8} {msgLen : Nat}

theorem write_block (out : Memory UInt8) {header : List UInt8} (hlen : header.length = 10)
    (body : List UInt8) :
    write (write out 0 header) ccidHeaderLen body = write out 0 (header ++ body) := by
  have happend := write_append out 0 header body
  rwa [hlen] at happend

theorem makeSlotStatus_same (powered : Bool) (seq cmdStatus error clock : UInt8) :
    SameResponse out out' (makeSlotStatus powered out seq cmdStatus error clock)
      (makeSlotStatus powered out' seq cmdStatus error clock) :=
  ⟨⟨_, by rw [headerBytes_length]; decide, rfl, rfl⟩, rfl⟩

theorem makeDataBlock_same (powered : Bool) (seq cmdStatus error : UInt8) {data : List UInt8}
    (hdata : data.length ≤ 502) :
    SameResponse out out' (makeDataBlock powered out seq cmdStatus error data)
      (makeDataBlock powered out' seq cmdStatus error data) := by
  refine ⟨⟨_, ?_, write_block out (headerBytes_length _ _ _ _ _ _) data,
    write_block out' (headerBytes_length _ _ _ _ _ _) data⟩, rfl⟩
  rw [List.length_append, headerBytes_length]
  exact Nat.add_le_add_left hdata 10

/-- The parameters echoed are those of the message. -/
theorem setParameters_same (h : Agree ccidBufSize msg msg') :
    SameResponse out out' (setParameters out msg msgLen) (setParameters out' msg' msgLen) := by
  have hheader := readHeader_congr (h.mono (by decide))
  have hle := parameterLength_le msg
  have hlength : parameterLength msg' = parameterLength msg := by
    simp only [parameterLength, hheader]
  have hfront : parametersHeader msg' = parametersHeader msg := by
    simp only [parametersHeader, hlength, hheader]
  have hbody : read (advance msg' ccidHeaderLen) (parameterLength msg) =
      read (advance msg ccidHeaderLen) (parameterLength msg) :=
    (read_congr ((h.advance ccidHeaderLen).mono hle)).symm
  rw [setParameters_eq, setParameters_eq, hlength, hfront, hbody]
  refine ⟨?_, rfl⟩
  split
  · refine ⟨_, ?_, write_block out (parametersHeader_length msg) _,
      write_block out' (parametersHeader_length msg) _⟩
    rw [List.length_append, parametersHeader_length, read_length]
    exact Nat.add_le_add_left hle 10
  · exact ⟨parametersHeader msg, by rw [parametersHeader_length]; decide, rfl, rfl⟩

theorem setDataRateAndClock_same (h : Agree ccidBufSize msg msg') :
    SameResponse out out' (setDataRateAndClock out msg msgLen)
      (setDataRateAndClock out' msg' msgLen) := by
  have hbody : read (advance msg' ccidHeaderLen) 8 = read (advance msg ccidHeaderLen) 8 :=
    (read_congr ((h.advance ccidHeaderLen).mono (by decide))).symm
  simp only [setDataRateAndClock, readHeader_congr (h.mono (by decide)), hbody]
  refine ⟨?_, rfl⟩
  split
  · refine ⟨_, ?_, write_block out (headerBytes_length _ _ _ _ _ _) _,
      write_block out' (headerBytes_length _ _ _ _ _ _) _⟩
    rw [List.length_append, headerBytes_length, read_length]
    decide
  · have hdefault : ∀ out : Memory UInt8, ∀ header : List UInt8, header.length = 10 →
        write (write (write out 0 header) ccidHeaderLen (toBytes 4 0x00000DFC))
          (ccidHeaderLen + 4) (toBytes 4 0x000025CD) =
        write out 0 (header ++ (toBytes 4 0x00000DFC ++ toBytes 4 0x000025CD)) := by
      intro out header hlen
      have happend := write_append (write out 0 header) ccidHeaderLen (toBytes 4 0x00000DFC)
        (toBytes 4 0x000025CD)
      rw [toBytes_length] at happend
      rw [happend, write_block out hlen]
    refine ⟨_, ?_, hdefault out _ (headerBytes_length _ _ _ _ _ _),
      hdefault out' _ (headerBytes_length _ _ _ _ _ _)⟩
    rw [List.length_append, headerBytes_length, List.length_append, toBytes_length, toBytes_length]
    decide

/-- A response queued in both devices. -/
theorem queue_same {a b : Memory UInt8 × Nat} (hccid : SameCcid s t) (hcard : SameCard card card')
    (hresponse : SameResponse s.txBuf t.txBuf a b) (exchange exchange' : Option Exchange)
    (signed : Option (List UInt8)) :
    SameProcessed s t { ccid := queue s a, card := card, exchange := exchange, signed := signed }
      { ccid := queue t b, card := card', exchange := exchange', signed := signed } := by
  obtain ⟨cells, hfit, ha, hb⟩ := hresponse.cells
  constructor
  · refine ⟨hccid.powered, hccid.rx, ?_, rfl, hresponse.len⟩
    simp only [queue, ha, hb]
    exact hccid.tx.write 0 cells
  · exact hcard
  · rfl
  · exact ⟨rfl, rfl⟩
  · exact ⟨cells, hfit, ha, hb⟩

/-- A forwarded APDU is answered behind the header, and nowhere else. -/
theorem forward_writes (k : Backend) (amb : Ambient) (s : Ccid) (card : Card)
    (msg : Memory UInt8) {header : List UInt8} (hlen : header.length = 10) :
    write (putBack s.txBuf ccidHeaderLen (forward k amb s card msg).out) 0 header =
      write s.txBuf 0 (header ++ (forward k amb s card msg).answer) := by
  have hout : (forward k amb s card msg).out =
      write (advance s.txBuf ccidHeaderLen) 0 (forward k amb s card msg).answer :=
    pivProcessApdu_writes k amb card _ _ _ _
  have happend := write_append_first s.txBuf 0 header (forward k amb s card msg).answer
  rw [hlen] at happend
  rw [hout, putBack_write]
  exact happend

theorem processXfrBlock_same (hccid : SameCcid s t) (hcard : SameCard card card')
    (hbounded : Bounded card.piv) (hmsg : Agree ccidBufSize msg msg')
    (htype : (readHeader msg).messageType = pcToRdrXfrBlock) :
    SameProcessed s t (processXfrBlock k amb s card msg msgLen)
      (processXfrBlock k amb t card' msg' msgLen) := by
  have hheader := readHeader_congr (hmsg.mono (by decide))
  have hforwards : Forwards s msg msgLen ↔ Forwards t msg' msgLen := by
    simp only [Forwards, hheader, hccid.powered]
  by_cases hfwd : Forwards s msg msgLen
  · have hsame : SameOutcome (forward k amb s card msg) (forward k amb t card' msg') := by
      rw [forward, forward, ← hheader]
      exact pivProcessApdu_same k amb hcard hbounded (by decide)
        ((hmsg.advance ccidHeaderLen).mono (by decide)) _
    obtain ⟨r, _, hbody, hanswer⟩ := forward_answer k amb s card msg
    have hlen : (forward k amb s card msg).answer.length ≤ 258 := by
      rw [hanswer s.txBuf, List.length_append, swBytes_length]
      exact Nat.add_le_add_right hbody 2
    have hcount : (forward k amb s card msg).len = (forward k amb t card' msg').len := by
      have hlengths := congrArg List.length hsame.answer
      rwa [Handled.answer, Handled.answer, read_length, read_length] at hlengths
    rw [processXfrBlock_forwards k amb s card msg msgLen hfwd,
      processXfrBlock_forwards k amb t card' msg' msgLen (hforwards.mp hfwd),
      forward_writes k amb s card msg (headerBytes_length _ _ _ _ _ _),
      forward_writes k amb t card' msg' (headerBytes_length _ _ _ _ _ _), ← hheader, ← hcount,
      ← hsame.answer, ← hsame.signed]
    refine queue_same hccid hsame.card ?_ _ _ _
    refine ⟨⟨_, ?_, rfl, rfl⟩, rfl⟩
    rw [List.length_append, headerBytes_length]
    exact Nat.le_trans (Nat.add_le_add_left hlen 10) (by decide)
  · have hrefuse : ¬ Forwards t msg' msgLen := fun h => hfwd (hforwards.mpr h)
    rw [processXfrBlock_refuses k amb s card msg msgLen htype hfwd,
      processXfrBlock_refuses k amb t card' msg' msgLen (hheader ▸ htype) hrefuse, ← hheader,
      ← hccid.powered]
    exact queue_same hccid hcard (makeDataBlock_same _ _ _ _ (Nat.zero_le _)) _ _ _

/-- A message is processed the same way in both devices. -/
theorem processMessage_same (hccid : SameCcid s t) (hcard : SameCard card card')
    (hbounded : Bounded card.piv) (hmsg : Agree ccidBufSize msg msg')
    (hlen : ccidHeaderLen ≤ msgLen) :
    SameProcessed s t (processMessage k amb s card msg msgLen)
      (processMessage k amb t card' msg' msgLen) := by
  have hheader := readHeader_congr (hmsg.mono (by decide))
  have hpowered := hccid.powered
  simp only [processMessage, ← hheader, ← hpowered]
  simp only [if_neg (Nat.not_lt.mpr hlen)]
  by_cases hon : (readHeader msg).messageType = pcToRdrIccPowerOn
  · simp only [if_pos hon]
    have hinit : SameCard { card with piv := pivInit card.piv }
        { card' with piv := pivInit card'.piv } := by
      obtain ⟨buf, rfl, _⟩ := hcard
      refine ⟨enclose chainBufSize (fun _ => 0) buf, rfl, fun i hi => ?_⟩
      exact (if_pos hi).trans (if_pos hi).symm
    have hqueue := queue_same (s := { s with iccPowered := true })
      (t := { t with iccPowered := true })
      ⟨rfl, hccid.rx, hccid.tx, hccid.pending, hccid.len⟩ hinit
      (makeDataBlock_same true (readHeader msg).seq cmdOk 0 (show atr.length ≤ 502 by decide))
      none none none
    exact ⟨hqueue.ccid, hqueue.card, hqueue.signed, hqueue.rx, hqueue.tx⟩
  simp only [if_neg hon]
  by_cases hoff : (readHeader msg).messageType = pcToRdrIccPowerOff
  · simp only [if_pos hoff]
    have hqueue := queue_same (s := { s with iccPowered := false })
      (t := { t with iccPowered := false })
      ⟨rfl, hccid.rx, hccid.tx, hccid.pending, hccid.len⟩ hcard
      (makeSlotStatus_same false (readHeader msg).seq cmdOk 0 0) none none none
    exact ⟨hqueue.ccid, hqueue.card, hqueue.signed, hqueue.rx, hqueue.tx⟩
  simp only [if_neg hoff]
  repeat' split
  · exact queue_same hccid hcard (makeSlotStatus_same _ _ _ _ _) _ _ _
  · exact processXfrBlock_same hccid hcard hbounded hmsg (by assumption)
  · exact queue_same hccid hcard (makeSlotStatus_same _ _ _ _ _) _ _ _
  · exact queue_same hccid hcard (setParameters_same hmsg) _ _ _
  · exact queue_same hccid hcard (setDataRateAndClock_same hmsg) _ _ _
  · exact queue_same hccid hcard (makeSlotStatus_same _ _ _ _ _) _ _ _

end Driver

/-- The lengths the driver and the endpoint hold. -/
structure Sized (s : State) : Prop where
  short : s.ccid.responsePending = true → s.ccid.responseLen ≤ ccidBufSize
  within : ∀ t, s.inTransfer = some t → t.sent.length ≤ t.total ∧ t.total ≤ ccidBufSize

/-- A transfer that fits the receive buffer. -/
def Fits : Event → Prop
  | .bulkOut bytes _ => bytes.length ≤ ccidBufSize
  | _ => True

/-- Two devices that differ at most in what lies around their buffers. -/
structure Twins (s t : State) : Prop where
  ccid : SameCcid s.ccid t.ccid
  card : SameCard s.card t.card
  button : s.button = t.button
  inTransfer : s.inTransfer = t.inTransfer

/-- Everything but the command an exchange points at. -/
def shown : Observation → Option Observation
  | .exchange _ => none
  | o => some o

section Lengths

variable {k : Backend} {s : State}

theorem sized_step (h : Sized s) (e : Event) : Sized (step k s e).1 := by
  have hlimited : Limited ccidBufSize (step k s e).1 := by
    apply limited_step ⟨h.short, h.within⟩ e
    intro bytes amb _ hlen
    exact processMessage_responseLen k amb (receive s bytes) s.card (received s bytes) bytes.length
      hlen
  exact ⟨hlimited.short, hlimited.within⟩

theorem bounded_step (h : Bounded s.card.piv) (e : Event) : Bounded (step k s e).1.card.piv := by
  have heffect := step_effect k s e
  generalize (step k s e).1 = s' at heffect ⊢
  generalize (step k s e).2 = obs at heffect
  cases heffect with
  | quiet _ _ _ hcard | powerOff _ _ hcard | reset _ hcard | umount _ hcard | edge _ hcard
  | press _ _ hcard | noPress _ _ hcard | tick _ hcard =>
    rw [hcard]
    exact h
  | powerOn _ _ hcard =>
    rw [hcard]
    exact ⟨Nat.le_refl 0, Nat.zero_le 4096⟩
  | apdu _ heffect _ hcard =>
    rw [hcard]
    exact bounded_effect heffect h

theorem sized_boot : Sized boot := ⟨(fun hno => by cases hno), fun t ht => by cases ht⟩

/-- The lengths are kept by every run. -/
theorem sized_exec (k : Backend) (h : Sized s) (es : List Event) : Sized (exec (step k) s es) := by
  apply state_invariant
  · intro s e hsized
    exact sized_step hsized e
  · exact h

theorem sized_run (k : Backend) (es : List Event) : Sized (run k es) := sized_exec k sized_boot es

theorem bounded_boot : Bounded boot.card.piv := ⟨Nat.le_refl 0, Nat.zero_le 4096⟩

end Lengths

section Devices

variable {k : Backend} {s t : State} {e : Event}

theorem received_same (h : Twins s t) (bytes : List UInt8) :
    Agree ccidBufSize (received s bytes) (received t bytes) := h.ccid.rx.write 0 bytes

theorem receive_same (h : Twins s t) (bytes : List UInt8) :
    SameCcid (receive s bytes) (receive t bytes) :=
  ⟨h.ccid.powered, received_same h bytes, h.ccid.tx, h.ccid.pending, h.ccid.len⟩

theorem processed_same (h : Twins s t) (hbounded : Bounded s.card.piv) {bytes : List UInt8}
    (amb : Ambient) (hlen : ccidHeaderLen ≤ bytes.length) :
    SameProcessed (receive s bytes) (receive t bytes) (processed k s bytes amb)
      (processed k t bytes amb) :=
  processMessage_same (receive_same h bytes) h.card hbounded (received_same h bytes) hlen

theorem SameCard.dev {card card' : Card} (h : SameCard card card') : card.dev = card'.dev := by
  obtain ⟨buf, rfl, _⟩ := h
  rfl

theorem SameCard.with_dev {card card' : Card} (h : SameCard card card') (dev : Device) :
    SameCard { card with dev := dev } { card' with dev := dev } := by
  obtain ⟨buf, rfl, hbuf⟩ := h
  exact ⟨buf, rfl, hbuf⟩

/-- A message shows the same of both devices. -/
theorem messageObs_same (h : Twins s t) {p q : Processed} {r r' : Ccid}
    (hsame : SameProcessed r r' p q) (hlen : p.ccid.responseLen ≤ ccidBufSize) (now : Nat) :
    (messageObs s p now).filterMap shown = (messageObs t q now).filterMap shown := by
  have hheader := readHeader_congr (hsame.ccid.rx.mono (by decide))
  have hresponse : p.ccid.response = q.ccid.response := by
    rw [Ccid.response, Ccid.response, ← hsame.ccid.len]
    exact read_congr (hsame.ccid.tx.mono hlen)
  have hexchange : ∀ x : Option Exchange,
      (x.toList.map Observation.exchange).filterMap shown = [] := by
    intro x
    cases x <;> rfl
  simp only [messageObs, hheader, hsame.signed, hresponse, hsame.card.dev, h.card.dev,
    List.filterMap_append, hexchange]

theorem message_same (h : Twins s t) (hbounded : Bounded s.card.piv) {bytes : List UInt8}
    (amb : Ambient) (hlen : ccidHeaderLen ≤ bytes.length) :
    Twins (step k s (.bulkOut bytes amb)).1 (step k t (.bulkOut bytes amb)).1 ∧
      (step k s (.bulkOut bytes amb)).2.filterMap shown =
        (step k t (.bulkOut bytes amb)).2.filterMap shown := by
  have hsame := processed_same (k := k) h hbounded amb hlen
  have hshort : (processed k s bytes amb).ccid.responseLen ≤ ccidBufSize :=
    processMessage_responseLen k amb (receive s bytes) s.card (received s bytes) bytes.length hlen
  rw [step_message k s amb hlen, step_message k t amb hlen]
  exact ⟨⟨hsame.ccid, hsame.card, h.button, h.inTransfer⟩, messageObs_same h hsame hshort amb.now⟩

/-- An event shows the same of both devices. -/
theorem step_same (h : Twins s t) (hsized : Sized s) (hbounded : Bounded s.card.piv) (e : Event) :
    Twins (step k s e).1 (step k t e).1 ∧
      (step k s e).2.filterMap shown = (step k t e).2.filterMap shown := by
  obtain ⟨hccid, hcard, hbutton, hin⟩ := id h
  have hdev := hcard.dev
  cases e with
  | bulkOut bytes amb =>
    by_cases hlen : ccidHeaderLen ≤ bytes.length
    · exact message_same h hbounded amb hlen
    · rw [step_fragment k s amb hlen, step_fragment k t amb hlen]
      exact ⟨⟨receive_same h bytes, hcard, hbutton, hin⟩, rfl⟩
  | inRead n =>
    simp only [step, ← hin]
    cases htransfer : s.inTransfer with
    | none => exact ⟨h, rfl⟩
    | some x =>
      have hwithin := hsized.within x htransfer
      have hread : read (advance s.ccid.txBuf x.sent.length) (min n (x.total - x.sent.length)) =
          read (advance t.ccid.txBuf x.sent.length) (min n (x.total - x.sent.length)) :=
        read_congr ((hccid.tx.advance x.sent.length).mono (by omega))
      simp only [hread]
      exact ⟨⟨hccid, hcard, hbutton, rfl⟩, trivial⟩
  | inComplete =>
    simp only [step, ← hin]
    split
    · exact ⟨h, rfl⟩
    · split
      · exact ⟨⟨hccid, hcard, hbutton, rfl⟩, rfl⟩
      · exact ⟨h, rfl⟩
  | ccidTask available =>
    simp only [step, ccidTask, ← hin, ← hccid.pending, ← hccid.len]
    by_cases hpending : s.ccid.responsePending = false
    · simp only [if_pos hpending]
      exact ⟨⟨hccid, hcard, hbutton, rfl⟩, trivial⟩
    simp only [if_neg hpending]
    by_cases hclaim : (available && s.inTransfer.isNone) = false
    · simp only [if_pos hclaim]
      exact ⟨⟨hccid, hcard, hbutton, rfl⟩, trivial⟩
    · simp only [if_neg hclaim]
      exact ⟨⟨⟨hccid.powered, hccid.rx, hccid.tx, rfl, rfl⟩, hcard, hbutton, rfl⟩, trivial⟩
  | busReset => exact ⟨⟨⟨rfl, hccid.rx, hccid.tx, rfl, hccid.len⟩, hcard, hbutton, rfl⟩, rfl⟩
  | umount now =>
    simp only [step, hdev]
    exact ⟨⟨hccid, hcard.with_dev _, hbutton, hin⟩, trivial⟩
  | gpioIrq gpio now =>
    simp only [step, hbutton]
    exact ⟨⟨hccid, hcard, rfl, hin⟩, trivial⟩
  | poll sample =>
    simp only [step, hbutton, hdev]
    exact ⟨⟨hccid, hcard.with_dev _, rfl, hin⟩, trivial⟩
  | tick now =>
    simp only [step, hdev]
    exact ⟨⟨hccid, hcard.with_dev _, hbutton, hin⟩, trivial⟩

end Devices

/-- The memory around the three buffers. -/
structure Surroundings where
  rx : Memory UInt8
  tx : Memory UInt8
  chain : Memory UInt8

/-- The booted device, with its buffers in the middle of other memory. -/
def bootWithin (m : Surroundings) : State :=
  { boot with
    ccid := { boot.ccid with
      rxBuf := enclose ccidBufSize boot.ccid.rxBuf m.rx
      txBuf := enclose ccidBufSize boot.ccid.txBuf m.tx }
    card := withChain boot.card (enclose chainBufSize boot.card.piv.chainBuf m.chain) }

/-- What lies around the buffers is as it was. -/
structure Untouched (m : Surroundings) (s : State) : Prop where
  rx : ∀ i, ccidBufSize ≤ i → s.ccid.rxBuf i = m.rx i
  tx : ∀ i, ccidBufSize ≤ i → s.ccid.txBuf i = m.tx i
  chain : ∀ i, chainBufSize ≤ i → s.card.piv.chainBuf i = m.chain i

section Frames

variable {k : Backend} {m : Surroundings} {s t : State} {e : Event}

/-- No object is written behind the chain buffer. -/
theorem effect_chain {amb : Ambient} {card : Card} {cmd : Option ApduCmd} {r : Reply}
    (h : Effect k amb card cmd r) {i : Nat} (hi : chainBufSize ≤ i) :
    r.card.piv.chainBuf i = card.piv.chainBuf i := by
  cases h with
  | @chained cmd obj _ hrequest _ =>
    have hfit : obj.length ≤ chainBufSize := requestedObject_length_le hrequest
    exact write_after card.piv.chainBuf 0 obj (by omega)
  | refused | selected | pinAccepted | pinRejected | delivered | continued | requested
  | signFailed | signed => rfl

theorem chain_untouched (k : Backend) (s : State) (e : Event) {i : Nat} (hi : chainBufSize ≤ i) :
    (step k s e).1.card.piv.chainBuf i = s.card.piv.chainBuf i := by
  have heffect := step_effect k s e
  generalize (step k s e).1 = s' at heffect ⊢
  generalize (step k s e).2 = obs at heffect
  cases heffect with
  | quiet _ _ _ hcard | powerOff _ _ hcard | reset _ hcard | umount _ hcard | edge _ hcard
  | press _ _ hcard | noPress _ _ hcard | tick _ hcard =>
    rw [hcard]
  | powerOn _ _ hcard =>
    rw [hcard]
    exact if_neg (Nat.not_lt.mpr hi)
  | apdu _ heffect _ hcard => rw [hcard, effect_chain heffect hi]

/-- Only a completed transfer changes the two buffers of the driver. -/
theorem buffers_frame (hevent : ∀ bytes amb, e ≠ .bulkOut bytes amb) :
    (step k s e).1.ccid.rxBuf = s.ccid.rxBuf ∧ (step k s e).1.ccid.txBuf = s.ccid.txBuf := by
  cases e with
  | bulkOut bytes amb => exact absurd rfl (hevent bytes amb)
  | inRead n =>
    simp only [step]
    split <;> exact ⟨rfl, rfl⟩
  | inComplete =>
    simp only [step]
    repeat' split
    all_goals exact ⟨rfl, rfl⟩
  | ccidTask available =>
    simp only [step, ccidTask]
    by_cases hpending : s.ccid.responsePending = false
    · simp only [if_pos hpending]
      exact ⟨trivial, trivial⟩
    simp only [if_neg hpending]
    by_cases hclaim : (available && s.inTransfer.isNone) = false
    · simp only [if_pos hclaim]
      exact ⟨trivial, trivial⟩
    · simp only [if_neg hclaim]
      exact ⟨trivial, trivial⟩
  | busReset | umount | gpioIrq | poll | tick => exact ⟨rfl, rfl⟩

/-- An event that fits leaves the memory around the buffers alone. -/
theorem untouched_step (htwins : Twins s t) (hbounded : Bounded s.card.piv) (hfit : Fits e)
    (h : Untouched m t) : Untouched m (step k t e).1 := by
  have hchain : ∀ i, chainBufSize ≤ i → (step k t e).1.card.piv.chainBuf i = m.chain i :=
    fun i hi => (chain_untouched k t e hi).trans (h.chain i hi)
  by_cases hbulk : ∃ bytes amb, e = .bulkOut bytes amb
  · obtain ⟨bytes, amb, rfl⟩ := hbulk
    have hreceived : ∀ i, ccidBufSize ≤ i → received t bytes i = m.rx i := by
      intro i hi
      have hle : bytes.length ≤ ccidBufSize := hfit
      exact (write_after t.ccid.rxBuf 0 bytes (by omega)).trans (h.rx i hi)
    by_cases hlen : ccidHeaderLen ≤ bytes.length
    · have hsame : SameProcessed (receive s bytes) (receive t bytes) (processed k s bytes amb)
          (processed k t bytes amb) := processed_same htwins hbounded amb hlen
      obtain ⟨cells, hcells, _, htx⟩ := hsame.tx
      rw [step_message k t amb hlen] at hchain ⊢
      refine ⟨fun i hi => ?_, fun i hi => ?_, hchain⟩
      · rw [hsame.rx.2]
        exact hreceived i hi
      · rw [htx]
        exact (write_after t.ccid.txBuf 0 cells (by omega)).trans (h.tx i hi)
    · rw [step_fragment k t amb hlen] at hchain ⊢
      exact ⟨hreceived, h.tx, hchain⟩
  · have hframe : (step k t e).1.ccid.rxBuf = t.ccid.rxBuf ∧
        (step k t e).1.ccid.txBuf = t.ccid.txBuf :=
      buffers_frame fun bytes amb heq => hbulk ⟨bytes, amb, heq⟩
    refine ⟨?_, ?_, hchain⟩
    · rw [hframe.1]
      exact h.rx
    · rw [hframe.2]
      exact h.tx

end Frames

/-- The booted device, and its twin among other memory. -/
theorem twins_boot (m : Surroundings) : Twins boot (bootWithin m) where
  ccid := ⟨rfl, agree_enclose _ _ _, agree_enclose _ _ _, rfl, rfl⟩
  card := ⟨_, rfl, agree_enclose _ _ _⟩
  button := rfl
  inTransfer := rfl

theorem untouched_boot (m : Surroundings) : Untouched m (bootWithin m) where
  rx := fun _ hi => if_neg (Nat.not_lt.mpr hi)
  tx := fun _ hi => if_neg (Nat.not_lt.mpr hi)
  chain := fun _ hi => if_neg (Nat.not_lt.mpr hi)

/-- The twin follows the device, and what lies around its buffers stays. -/
theorem twin_follows (k : Backend) (m : Surroundings) :
    Follows (step k) (step k) (fun e => [e]) shown shown (fun _ e => Fits e)
      (fun s t => Twins s t ∧ Sized s ∧ Bounded s.card.piv ∧ Untouched m t) := by
  apply Follows.of_lockstep
  · rintro s t e ⟨htwins, hsized, hbounded, huntouched⟩ hfit
    exact ⟨(step_same htwins hsized hbounded e).1, sized_step hsized e, bounded_step hbounded e,
      untouched_step htwins hbounded hfit huntouched⟩
  · rintro s t e ⟨htwins, hsized, hbounded, _⟩ _
    exact (step_same htwins hsized hbounded e).2

/-- Whatever arrives in transfers that fit the receive buffer, what is seen does not depend on the
memory around the buffers, and that memory stays as it was. -/
theorem buffers_confined (k : Backend) (m : Surroundings) {es : List Event}
    (hfit : ∀ e ∈ es, Fits e) :
    (trace (step k) (bootWithin m) es).filterMap shown = (history k es).filterMap shown ∧
      Untouched m (exec (step k) (bootWithin m) es) := by
  obtain ⟨⟨_, _, _, huntouched⟩, hshown⟩ := (twin_follows k m).run
    ⟨twins_boot m, sized_boot, bounded_boot, untouched_boot m⟩ (allSteps_of_mem hfit boot)
  rw [List.flatMap_singleton'] at huntouched hshown
  exact ⟨hshown.symm, huntouched⟩

/-- An XfrBlock whose declared length wraps past zero, on a powered slot. -/
def wrappingRun : List Event :=
  [.bulkOut (hostMessage pcToRdrIccPowerOn []) (ambientAt 0),
    .bulkOut ([0x6F, 0xFA, 0xFF, 0xFF, 0xFF, 0, 0, 0, 0, 0] ++ [0x00, 0xA4, 0x04, 0x00, 0x0B] ++
      pivAid) (ambientAt 1)]

theorem buffers_confined_wrapping :
    (trace (step sampleBackend) (bootWithin ⟨fun _ => 0xAA, fun _ => 0xBB, fun _ => 0xCC⟩)
        wrappingRun).filterMap shown = (history sampleBackend wrappingRun).filterMap shown ∧
      Untouched ⟨fun _ => 0xAA, fun _ => 0xBB, fun _ => 0xCC⟩
        (exec (step sampleBackend) (bootWithin ⟨fun _ => 0xAA, fun _ => 0xBB, fun _ => 0xCC⟩)
          wrappingRun) := by
  apply buffers_confined
  intro e he
  simp only [wrappingRun, List.mem_cons, List.not_mem_nil, or_false] at he
  rcases he with rfl | rfl <;> exact Nat.le_of_ble_eq_true rfl

end BufferConfinement
