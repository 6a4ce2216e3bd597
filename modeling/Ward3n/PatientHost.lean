import Ward3n.BufferConfinement
import Ward3n.FairProgress
import Ward3n.ReaderRefinement

/-!
# A patient host

A host that sends a message, or resets the bus, only when it has collected as
many responses as it has sent messages. It needs to see nothing of the firmware
for that. What it collects are the responses of the abstract reader, in order;
and it collects them all, once the main loop and the endpoint have had their
turns often enough.
-/

namespace PatientHost

open CellMemory CryptoBackend PivApplet CcidDriver Firmware TracedRuns FirmwareSteps TransmitBuffer
  ResponseDelivery ReaderSpecification TokenRefinement ReaderRefinement FairProgress
  BufferConfinement

/-- A transfer that holds a whole message. -/
def WholeMessage : Event → Prop
  | .bulkOut bytes _ => ccidHeaderLen ≤ bytes.length
  | _ => False

instance (e : Event) : Decidable (WholeMessage e) :=
  Event.casesOn (motive := fun e => Decidable (WholeMessage e)) e
    (fun bytes _ => Nat.decLe ccidHeaderLen bytes.length) (fun _ => isFalse id) (isFalse id)
    (fun _ => isFalse id) (isFalse id) (fun _ => isFalse id) (fun _ _ => isFalse id)
    (fun _ => isFalse id) (fun _ => isFalse id)

/-- The whole messages sent in a run. -/
def messages (es : List Event) : Nat := es.countP (WholeMessage ·)

/-- What a host does only when it has collected every response. -/
def Interrupts (e : Event) : Prop := WholeMessage e ∨ e = .busReset

/-- From this state on, neither is a message sent nor the bus reset while a response is due. -/
def Patient (k : Backend) (s : State) (es : List Event) : Prop :=
  ∀ before e after, es = before ++ e :: after → Interrupts e →
    (transmitted (trace (step k) s before)).length = messages before

/-- Neither a message nor a bus reset. -/
def Quiet (e : Event) : Prop := ¬ WholeMessage e ∧ e ≠ .busReset

section Safety

variable {k : Backend} {s : State} {es : List Event} {e : Event}

theorem step_responses (k : Backend) (s : State) (e : Event) :
    (responses (step k s e).2).length = if WholeMessage e then 1 else 0 := by
  have hnone : ∀ {t : List Observation}, (∀ o ∈ t, Aside o) → responses t = [] := by
    intro t ht
    exact filterMap_none fun o ho => (ht o ho).1
  cases e with
  | bulkOut bytes amb =>
    by_cases hlen : ccidHeaderLen ≤ bytes.length
    · have hwhole : WholeMessage (.bulkOut bytes amb) := hlen
      rw [step_message k s amb hlen, (messageObs_responses s _ amb.now).1, if_pos hwhole]
      rfl
    · have hfragment : ¬ WholeMessage (.bulkOut bytes amb) := hlen
      rw [step_fragment k s amb hlen, if_neg hfragment]
      rfl
  | inRead n =>
    simp only [step]
    split <;> rfl
  | inComplete =>
    simp only [step]
    split
    · rfl
    · split <;> rfl
  | ccidTask available =>
    simp only [step]
    split <;> rfl
  | busReset => rfl
  | umount now | tick now => exact congrArg List.length (hnone aside_movedObs)
  | gpioIrq gpio now => exact congrArg List.length (hnone (forall_mem_ite ⟨rfl, rfl⟩))
  | poll sample =>
    refine congrArg List.length (hnone fun o ho => ?_)
    rcases List.mem_append.mp ho with ho | ho
    · exact forall_mem_ite ⟨rfl, rfl⟩ o ho
    · exact aside_movedObs o ho

/-- Every whole message is answered once. -/
theorem trace_responses (k : Backend) (s : State) (es : List Event) :
    (responses (trace (step k) s es)).length = messages es := by
  induction es generalizing s with
  | nil => rfl
  | cons e es ih =>
    rw [trace, responses_append, List.length_append, ih, step_responses, messages, messages,
      List.countP_cons, Nat.add_comm]
    simp only [decide_eq_true_eq]

theorem Patient.before (h : Patient k s (es ++ [e])) : Patient k s es := by
  intro before x after hsplit hinterrupts
  exact h before x (after ++ [e]) (by rw [hsplit, List.append_assoc, List.cons_append])
    hinterrupts

theorem patient_nil (k : Backend) (s : State) : Patient k s [] :=
  fun before e after hsplit => absurd hsplit (by simp)

theorem Patient.concat (h : Patient k s es)
    (hdue : Interrupts e → (transmitted (trace (step k) s es)).length = messages es) :
    Patient k s (es ++ [e]) := by
  intro before x after hsplit hinterrupts
  rcases List.eq_nil_or_concat after with rfl | ⟨rest, y, rfl⟩
  · obtain ⟨rfl, hlast⟩ := List.append_inj' hsplit rfl
    obtain ⟨rfl, _⟩ := List.cons.inj hlast
    exact hdue hinterrupts
  · rw [List.concat_eq_append, ← List.cons_append, ← List.append_assoc] at hsplit
    exact h before x rest (List.append_inj' hsplit rfl).1 hinterrupts

/-- With every response collected, nothing is due. -/
theorem settled_of_collected {h : List Observation} (hacc : Account h s)
    (hall : (transmitted h).length = (responses h).length) : Settled s := by
  cases hin : s.inTransfer with
  | none =>
    refine ⟨?_, hin⟩
    by_contra hpending
    have hpending : s.ccid.responsePending = true := by simpa using hpending
    rw [hacc.idle hin, waiting, if_pos hpending, List.length_append, List.length_singleton]
      at hall
    omega
  | some t =>
    obtain ⟨sending, _, heq⟩ := hacc.busy t hin
    rw [heq, List.length_append, List.length_cons] at hall
    omega

/-- Where nothing is due, every event finds the buffer free. -/
theorem clear_of_settled (h : Settled s) (e : Event) : Clear s e := by
  cases e with
  | bulkOut bytes amb =>
    intro _
    refine ⟨h.1, fun t ht => ?_⟩
    rw [h.2] at ht
    cases ht
  | busReset => exact h
  | inRead | inComplete | ccidTask | umount | gpioIrq | poll | tick => trivial

theorem clear_of_quiet (s : State) (h : Quiet e) : Clear s e := by
  cases e with
  | bulkOut bytes amb => exact fun hlen => absurd hlen h.1
  | busReset => exact absurd rfl h.2
  | inRead | inComplete | ccidTask | umount | gpioIrq | poll | tick => trivial

theorem account_exec (hsettled : Settled s) (hclear : AllSteps (step k) Clear s es) :
    Account (trace (step k) s es) (exec (step k) s es) :=
  guarded_history (J := Account) (fun h s e => account_step k h s e) (account_settled hsettled)
    hclear

/-- A patient host never finds the buffer taken. -/
theorem patient_clear (hsettled : Settled s) (h : Patient k s es) :
    AllSteps (step k) Clear s es := by
  induction es using List.reverseRecOn with
  | nil => trivial
  | append_singleton es e ih =>
    have hbefore := ih h.before
    refine allSteps_append.mpr ⟨hbefore, ?_, trivial⟩
    by_cases hinterrupts : Interrupts e
    · have hcount := h es e [] rfl hinterrupts
      have hresponses := trace_responses k s es
      exact clear_of_settled
        (settled_of_collected (account_exec hsettled hbefore) (hcount.trans hresponses.symm)) e
    · exact clear_of_quiet _ (not_or.mp hinterrupts)

end Safety

/-- The responses the reader gives. -/
def answers (h : List Sight) : List (List UInt8) :=
  h.filterMap fun
    | .response bytes => some bytes
    | .signCall _ _ => none

theorem answers_sight (h : List Observation) : answers (h.filterMap sight) = responses h := by
  rw [answers, responses, List.filterMap_filterMap]
  congr 1
  funext o
  cases o <;> rfl

theorem selection_patient : Patient sampleBackend boot (selection.map Happening.event) := by
  have hstart := (patient_nil sampleBackend boot).concat
    (e := .bulkOut (Message.bytes ⟨1, .iccPowerOn⟩) (ambientAt 0)) (fun _ => rfl)
  have hcollected := ((hstart.concat (e := .ccidTask true) (by rintro (⟨⟨⟩⟩ | ⟨⟨⟩⟩))).concat
    (e := .inRead 64) (by rintro (⟨⟨⟩⟩ | ⟨⟨⟩⟩))).concat
    (e := .inComplete) (by rintro (⟨⟨⟩⟩ | ⟨⟨⟩⟩))
  exact hcollected.concat (e := .bulkOut (Message.bytes ⟨2, .xfrBlock selectCommand⟩) (ambientAt 5))
    (fun _ => by decide)

/-- The work an endpoint has with a number of bytes, taken so many at a time. -/
def pieces (size count : Nat) : Nat := (count + size - 1) / size

/-- What is left to do before every response is collected: the transfer in progress, and the
response that waits behind it. -/
def work (size : Nat) (s : State) : Nat :=
  (match s.inTransfer with
    | none => 0
    | some t => pieces size (t.total - t.sent.length) + 1) +
  if s.ccid.responsePending then pieces size s.ccid.responseLen + 2 else 0

/-- What has to happen next. -/
inductive Turn
  | task
  | read
  | complete
  deriving DecidableEq

def turn (s : State) : Turn :=
  match s.inTransfer with
  | none => .task
  | some t => if t.sent.length < t.total then .read else .complete

def Urgent (size : Nat) : Turn → Event → Prop
  | .task, .ccidTask available => available = true
  | .read, .inRead n => size ≤ n
  | .complete, .inComplete => True
  | _, _ => False

section Liveness

variable {k : Backend} {size : Nat} {s : State} {e : Event}

theorem pieces_zero (hsize : 0 < size) : pieces size 0 = 0 := Nat.div_eq_of_lt (by omega)

theorem pieces_pos (hsize : 0 < size) {count : Nat} (hcount : 0 < count) :
    0 < pieces size count := Nat.div_pos (by omega) hsize

theorem pieces_le {count count' : Nat} (h : count ≤ count') :
    pieces size count ≤ pieces size count' :=
  Nat.div_le_div_right (by omega)

/-- A full piece is one piece less. -/
theorem pieces_fewer (hsize : 0 < size) {count n : Nat} (hn : size ≤ n) (hcount : 0 < count) :
    pieces size (count - min n count) < pieces size count := by
  have hone : pieces size count = (count - 1) / size + 1 := by
    rw [← Nat.add_div_right _ hsize, pieces]
    congr 1
    omega
  rw [hone]
  rcases Nat.lt_or_ge n count with hless | hall
  · have hrest : pieces size (count - min n count) ≤ (count - 1) / size :=
      Nat.div_le_div_right (by omega)
    exact Nat.lt_succ_of_le hrest
  · rw [Nat.min_eq_right hall, Nat.sub_self, pieces_zero hsize]
    exact Nat.succ_pos _

/-- All that can become of the responses while no message comes: nothing, or one of the three
moves of the endpoint. -/
theorem quiet_cases (k : Backend) (size : Nat) (hsized : Sized s) (hquiet : Quiet e) :
    ((step k s e).1.ccid.responsePending = s.ccid.responsePending ∧
      (step k s e).1.ccid.responseLen = s.ccid.responseLen ∧
      (step k s e).1.inTransfer = s.inTransfer ∧
      (0 < work size s → ¬ Urgent size (turn s) e)) ∨
    (s.inTransfer = none ∧ s.ccid.responsePending = true ∧
      (step k s e).1.ccid.responsePending = false ∧
      (step k s e).1.inTransfer = some { sent := [], total := s.ccid.responseLen }) ∨
    (∃ n t, e = .inRead n ∧ s.inTransfer = some t ∧ (step k s e).1.ccid = s.ccid ∧
      (step k s e).1.inTransfer = some { t with
        sent := t.sent ++ read (advance s.ccid.txBuf t.sent.length)
          (min n (t.total - t.sent.length)) }) ∨
    (∃ t, s.inTransfer = some t ∧ t.sent.length = t.total ∧ (step k s e).1.ccid = s.ccid ∧
      (step k s e).1.inTransfer = none) := by
  cases e with
  | bulkOut bytes amb =>
    have hshort : ¬ ccidHeaderLen ≤ bytes.length := hquiet.1
    rw [step_fragment k s amb hshort]
    refine Or.inl ⟨rfl, rfl, rfl, fun _ => ?_⟩
    cases turn s <;> exact id
  | busReset => exact absurd rfl hquiet.2
  | umount | gpioIrq | poll | tick =>
    refine Or.inl ⟨rfl, rfl, rfl, fun _ => ?_⟩
    cases turn s <;> exact id
  | inRead n =>
    cases hin : s.inTransfer with
    | none =>
      refine Or.inl ⟨by simp [step, hin], by simp [step, hin], by simp [step, hin], fun _ => ?_⟩
      simp [turn, hin, Urgent]
    | some t =>
      refine Or.inr (Or.inr (Or.inl ⟨n, t, rfl, rfl, ?_, ?_⟩)) <;> simp [step, hin]
  | inComplete =>
    cases hin : s.inTransfer with
    | none =>
      refine Or.inl ⟨by simp [step, hin], by simp [step, hin], by simp [step, hin], fun _ => ?_⟩
      simp [turn, hin, Urgent]
    | some t =>
      by_cases hall : t.sent.length = t.total
      · exact Or.inr (Or.inr (Or.inr ⟨t, rfl, hall, by simp [step, hin, hall],
          by simp [step, hin, hall]⟩))
      · have hless : t.sent.length < t.total := Nat.lt_of_le_of_ne (hsized.within t hin).1 hall
        refine Or.inl ⟨by simp [step, hin, hall], by simp [step, hin, hall],
          by simp [step, hin, hall], fun _ => ?_⟩
        simp [turn, hin, Urgent, hless]
  | ccidTask available =>
    by_cases hpending : s.ccid.responsePending = false
    · have hsame : (step k s (.ccidTask available)).1 = s := by
        simp [step, ccidTask, hpending]
      rw [hsame]
      refine Or.inl ⟨rfl, rfl, rfl, fun hwork => ?_⟩
      cases hin : s.inTransfer with
      | none => simp [work, hin, hpending] at hwork
      | some t =>
        simp only [turn, hin]
        split <;> exact id
    have hpending : s.ccid.responsePending = true := by simpa using hpending
    by_cases hclaim : (available && s.inTransfer.isNone) = false
    · have hsame : (step k s (.ccidTask available)).1 = s := by
        simp [step, ccidTask, hpending, hclaim]
      rw [hsame]
      refine Or.inl ⟨rfl, rfl, rfl, fun _ => ?_⟩
      cases hin : s.inTransfer with
      | none =>
        rw [hin] at hclaim
        simpa [turn, hin, Urgent] using hclaim
      | some t =>
        simp only [turn, hin]
        split <;> exact id
    · have hfree : s.inTransfer = none := by
        cases hin : s.inTransfer with
        | none => rfl
        | some t => simp [hin] at hclaim
      have hword : s.ccid.responseLen < 65536 :=
        Nat.lt_of_le_of_lt (hsized.short hpending) (by decide)
      have havailable : available = true := by simpa [hfree] using hclaim
      refine Or.inr (Or.inl ⟨hfree, hpending, ?_, ?_⟩)
      · simp [step, ccidTask, hpending, hfree, havailable]
      · simp [step, ccidTask, hpending, hfree, havailable, hword]

/-- Nothing that happens while no message comes adds work, and what has to happen next helps. -/
theorem endpoint_progress (k : Backend) (hsize : 0 < size) :
    Progress (step k) Quiet Sized (work size) turn (Urgent size) where
  keeps := fun hsized _ => sized_step hsized _
  falls := by
    intro s e hsized hquiet
    rcases quiet_cases k size hsized hquiet with ⟨hpending, hlen, hin, _⟩ |
      ⟨hfree, hdue, hpending, hin⟩ | ⟨n, t, _, hbefore, hccid, hin⟩ | ⟨t, hbefore, _, hccid, hin⟩
    · right
      simp only [work, turn, hpending, hlen, hin, and_self]
    · left
      simp [work, hpending, hin, hfree, hdue]
    · have hle : pieces size (t.total - t.sent.length - min n (t.total - t.sent.length)) ≤
          pieces size (t.total - t.sent.length) := pieces_le (Nat.sub_le _ _)
      have hrest : t.total - (t.sent.length + min n (t.total - t.sent.length)) =
          t.total - t.sent.length - min n (t.total - t.sent.length) := by omega
      simp only [work, turn, hbefore, hccid, hin, List.length_append, read_length, hrest]
      rcases Nat.lt_or_eq_of_le hle with hless | hsame
      · left
        omega
      · right
        rw [hsame]
        refine ⟨rfl, ?_⟩
        by_cases hleft : t.sent.length < t.total
        · have hmore := pieces_pos hsize (show 0 < t.total - t.sent.length by omega)
          rw [← hsame] at hmore
          have hsome : t.total - t.sent.length - min n (t.total - t.sent.length) ≠ 0 := by
            intro hnone
            rw [hnone, pieces_zero hsize] at hmore
            exact Nat.lt_irrefl 0 hmore
          rw [if_pos hleft, if_pos (by omega)]
        · rw [if_neg hleft, if_neg (by omega)]
    · left
      simp only [work, hbefore, hccid, hin]
      omega
  helps := by
    intro s e hsized hquiet hwork hurgent
    rcases quiet_cases k size hsized hquiet with ⟨_, _, _, hidle⟩ | ⟨hfree, hdue, hpending, hin⟩ |
      ⟨n, t, rfl, hbefore, hccid, hin⟩ | ⟨t, hbefore, _, hccid, hin⟩
    · exact absurd hurgent (hidle hwork)
    · simp [work, hpending, hin, hfree, hdue]
    · have hreading : t.sent.length < t.total ∧ size ≤ n := by
        simp only [turn, hbefore] at hurgent
        split at hurgent
        · exact ⟨by assumption, hurgent⟩
        · exact absurd hurgent id
      have hfewer := pieces_fewer hsize hreading.2 (show 0 < t.total - t.sent.length by omega)
      have hrest : t.total - (t.sent.length + min n (t.total - t.sent.length)) =
          t.total - t.sent.length - min n (t.total - t.sent.length) := by omega
      simp only [work, hbefore, hccid, hin, List.length_append, read_length, hrest]
      omega
    · simp only [work, hbefore, hccid, hin]
      omega

end Liveness

/-- The main loop comes by, the endpoint takes a piece, and a transfer that is through
completes; in any order, with anything but messages and resets in between. -/
def Served (size : Nat) (round : List Event) : Prop :=
  .ccidTask true ∈ round ∧ (∃ n, size ≤ n ∧ .inRead n ∈ round) ∧ .inComplete ∈ round

theorem fair_of_served {size : Nat} {round : List Event} (h : Served size round) :
    Fair Sized (work size) turn (Urgent size) round := by
  intro s _ _
  obtain ⟨htask, ⟨n, hn, hread⟩, hcomplete⟩ := h
  cases turn s with
  | task => exact ⟨_, htask, rfl⟩
  | read => exact ⟨_, hread, hn⟩
  | complete => exact ⟨_, hcomplete, trivial⟩

/-- Without messages the responses stay as they are. -/
theorem quiet_responses (k : Backend) (s : State) {es : List Event} (h : ∀ e ∈ es, Quiet e) :
    responses (trace (step k) s es) = [] := by
  apply List.length_eq_zero_iff.mp
  rw [trace_responses, messages, List.countP_eq_zero]
  intro e he
  simpa using (h e he).1

/-- A patient host has at most one response to collect. -/
theorem patient_outstanding {k : Backend} {s : State} {es : List Event} (h : Patient k s es) :
    messages es ≤ (transmitted (trace (step k) s es)).length + 1 := by
  induction es using List.reverseRecOn with
  | nil => exact Nat.zero_le _
  | append_singleton es e ih =>
    have hgrows : (transmitted (trace (step k) s es)).length ≤
        (transmitted (trace (step k) s (es ++ [e]))).length := by
      rw [trace_append, transmitted_append, List.length_append]
      exact Nat.le_add_right _ _
    have hone : messages (es ++ [e]) = messages es + if WholeMessage e then 1 else 0 := by
      simp only [messages, List.countP_append, List.countP_singleton, decide_eq_true_eq]
    by_cases hwhole : WholeMessage e
    · have hcollected := h es e [] rfl (Or.inl hwhole)
      rw [hone, if_pos hwhole]
      omega
    · have hbefore := ih h.before
      rw [hone, if_neg hwhole]
      omega

/-- So the endpoint has one response to work on, if any. -/
theorem patient_work (k : Backend) (size : Nat) {s : State} (hsettled : Settled s)
    (hsized : Sized s) {es : List Event} (h : Patient k s es) :
    work size (exec (step k) s es) ≤ pieces size ccidBufSize + 2 := by
  have hacc := account_exec hsettled (patient_clear hsettled h)
  have hsized := sized_exec k hsized es
  have hcount : (responses (trace (step k) s es)).length ≤
      (transmitted (trace (step k) s es)).length + 1 := by
    rw [trace_responses]
    exact patient_outstanding h
  cases hin : (exec (step k) s es).inTransfer with
  | none =>
    simp only [work, hin, Nat.zero_add]
    by_cases hpending : (exec (step k) s es).ccid.responsePending = true
    · have hle : pieces size (exec (step k) s es).ccid.responseLen ≤ pieces size ccidBufSize :=
        pieces_le (hsized.short hpending)
      rw [if_pos hpending]
      omega
    · rw [if_neg hpending]
      exact Nat.zero_le _
  | some t =>
    obtain ⟨bytes, _, heq⟩ := hacc.busy t hin
    have hnone : (exec (step k) s es).ccid.responsePending = false := by
      by_contra hpending
      have hpending : (exec (step k) s es).ccid.responsePending = true := by simpa using hpending
      rw [heq, waiting, if_pos hpending] at hcount
      simp only [List.length_append, List.length_cons, List.length_nil] at hcount
      omega
    have hwithin := hsized.within t hin
    have hle : pieces size (t.total - t.sent.length) ≤ pieces size ccidBufSize :=
      pieces_le (by omega)
    simp only [work, hin, hnone, Bool.false_eq_true, if_false]
    omega

/-- After enough rounds nothing is left to collect. -/
theorem collected_all {k : Backend} {s : State} {r : Reader} (hmodels : Models s r)
    (hsettled : Settled s) (hsized : Sized s) {size : Nat} (hsize : 0 < size) (hs : List Happening)
    (hwhole : ∀ h ∈ hs, h.Whole) (hpatient : Patient k s (hs.map Happening.event))
    (rounds : List (List Event)) (hquiet : ∀ round ∈ rounds, ∀ e ∈ round, Quiet e)
    (hserved : ∀ round ∈ rounds, Served size round)
    (hcount : pieces size ccidBufSize + 2 ≤ rounds.length) :
    transmitted (trace (step k) s (hs.map Happening.event ++ rounds.flatten)) =
      answers (trace (Reader.step (objects k)) r (hs.flatMap (occurrences k))) := by
  have hlater : ∀ e ∈ rounds.flatten, Quiet e := by
    intro e he
    obtain ⟨round, hround, hmem⟩ := List.mem_flatten.mp he
    exact hquiet round hround e hmem
  have hclear : AllSteps (step k) Clear s (hs.map Happening.event ++ rounds.flatten) := by
    refine allSteps_append.mpr ⟨patient_clear hsettled hpatient, allSteps_iff.mpr ?_⟩
    intro before e after hsplit
    exact clear_of_quiet _ (hlater e (hsplit ▸ List.mem_append_right before List.mem_cons_self))
  have hacc := account_exec hsettled hclear
  have hdone : work size (exec (step k) s (hs.map Happening.event ++ rounds.flatten)) = 0 := by
    rw [exec_append]
    refine (endpoint_progress k hsize).finished (sized_exec k hsized _) hquiet ?_
      (Nat.le_trans (patient_work k size hsettled hsized hpatient) hcount)
    intro round hround
    exact fair_of_served (hserved round hround)
  have hall : responses (trace (step k) s (hs.map Happening.event ++ rounds.flatten)) =
      transmitted (trace (step k) s (hs.map Happening.event ++ rounds.flatten)) := by
    generalize exec (step k) s (hs.map Happening.event ++ rounds.flatten) = s' at hacc hdone
    have hidle : s'.inTransfer = none := by
      by_contra hbusy
      obtain ⟨t, hin⟩ := Option.ne_none_iff_exists'.mp hbusy
      simp only [work, hin] at hdone
      omega
    have hnone : waiting s'.ccid = [] := by
      rw [waiting, if_neg]
      intro hpending
      simp only [work, if_pos hpending] at hdone
      omega
    rw [hacc.idle hidle, hnone, List.append_nil]
  rw [← hall, trace_append, responses_append, quiet_responses k _ hlater, List.append_nil,
    ← trace_sights k hmodels hwhole, answers_sight]

/-- A round without anything else. -/
def plainRound : List Event := [.ccidTask true, .inRead 64, .inComplete]

theorem plainRound_served : Served 64 plainRound :=
  ⟨by simp [plainRound], ⟨64, Nat.le_refl _, by simp [plainRound]⟩, by simp [plainRound]⟩

theorem plainRound_quiet : ∀ e ∈ plainRound, Quiet e := by
  intro e he
  simp only [plainRound, List.mem_cons, List.not_mem_nil, or_false] at he
  rcases he with rfl | rfl | rfl <;> exact ⟨id, by rintro ⟨⟩⟩

end PatientHost
