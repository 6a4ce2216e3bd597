import Ward3n.FirmwareSteps

/-!
# Interrupts inside a poll

`button_was_pressed` access by access, with the edge interrupt running between
any two of them. The time of the edge has 64 bits and is read a word at a time.
While the flag is set the interrupt does nothing, so that what the poll reads
belongs together; once the poll has cleared the flag it reads nothing of the
interrupt's any more. The other calls of the loop leave the variables of the
interrupt alone.
-/

namespace PollInterleaving

open CryptoBackend DeviceState UserButton CcidDriver Firmware TracedRuns FirmwareSteps

/-- Where the poll stands, and what it has read -/
inductive PollPoint
  | outside
  /-- `_edge_seen` was read, and was set -/
  | flagRead
  /-- the low word of `_edge_time` was read -/
  | lowRead (low : Nat)
  | timeRead (edgeTime : Nat)
  /-- the debounce time has elapsed at this reading of the clock -/
  | due (now : Nat)
  /-- `_edge_seen` was cleared -/
  | cleared (now : Nat)
  /-- the pin was read, and was low -/
  | held (now : Nat)
  /-- `_press_confirmed` was set -/
  | confirmed (now : Nat)

structure FineState where
  fw : State
  point : PollPoint

inductive FineEvent
  /-- another call of the loop, or a call made inside `tud_task` -/
  | loop (e : Event)
  /-- `_gpio_irq` -/
  | irq (gpio now : Nat)
  /-- the next access of the poll, with what the hardware shows at that moment -/
  | access (hw : Sample)

/-- A call that has returned, and what was observed -/
inductive FineObservation
  | called (e : Event)
  | saw (o : Observation)

/-- A call of the main loop, and no interrupt -/
def onLoop : Event → Bool
  | .gpioIrq _ _ => false
  | _ => true

/-- The events that are one access here -/
def whole : Event → Bool
  | .gpioIrq _ _ | .poll _ => false
  | _ => true

/-- The debounce time has not elapsed. -/
def young (edgeTime now : Nat) : Bool :=
  (absoluteTimeDiffUs edgeTime now).tdiv 1000 < buttonDebounceMs

/-- One access of `button_was_pressed`. C leaves open whether `_edge_time` or the clock is read
first; here it is `_edge_time`. -/
def pollAccess (f : FineState) (hw : Sample) : FineState × List FineObservation :=
  match f.point with
  | .outside =>
    if f.fw.button.edgeSeen = false then (f, [.called (.poll hw)])
    else ({ f with point := .flagRead }, [])
  | .flagRead => ({ f with point := .lowRead (f.fw.button.edgeTime % 2 ^ 32) }, [])
  | .lowRead low =>
    ({ f with point := .timeRead (low + 2 ^ 32 * (f.fw.button.edgeTime / 2 ^ 32)) }, [])
  | .timeRead edgeTime =>
    if young edgeTime hw.now then ({ f with point := .outside }, [.called (.poll hw)])
    else ({ f with point := .due hw.now }, [])
  | .due now =>
    ({ fw := { f.fw with button := { f.fw.button with edgeSeen := false } },
       point := .cleared now }, [])
  | .cleared now =>
    if hw.pinHigh = false then ({ f with point := .held now }, [])
    else ({ f with point := .outside }, [.called (.poll { hw with now := now })])
  | .held now =>
    ({ fw := { f.fw with button := { f.fw.button with pressConfirmed := true } },
       point := .confirmed now }, [])
  | .confirmed now =>
    let dev := devStateButtonPressed f.fw.card.dev hw.stamp
    ({ fw := { f.fw with card := { f.fw.card with dev := dev } }, point := .outside },
      [.called (.poll { now := now, pinHigh := false, stamp := hw.stamp }),
        .saw (.pressConfirmed hw.stamp)] ++
        (movedObs f.fw.card.dev dev hw.stamp).map .saw)

def fineStep (k : Backend) (f : FineState) : FineEvent → FineState × List FineObservation
  | .loop e =>
    match f.point with
    | .outside =>
      if whole e then
        ({ f with fw := (step k f.fw e).1 }, .called e :: (step k f.fw e).2.map .saw)
      else (f, [])
    | _ => (f, [])
  | .irq gpio now =>
    ({ f with fw := { f.fw with button := gpioIrq f.fw.button gpio now } },
      [.called (.gpioIrq gpio now)])
  | .access hw => pollAccess f hw

def fineBoot : FineState := { fw := boot, point := .outside }

def fineRun (k : Backend) (fs : List FineEvent) : FineState := exec (fineStep k) fineBoot fs

def fineHistory (k : Backend) (fs : List FineEvent) : List FineObservation :=
  trace (fineStep k) fineBoot fs

def asCall : FineObservation → Option Event
  | .called e => some e
  | .saw _ => none

def asSeen : FineObservation → Option Observation
  | .called _ => none
  | .saw o => some o

/-- The calls that returned, in order -/
def calls (h : List FineObservation) : List Event := h.filterMap asCall

/-- What was observed, in order -/
def seen (h : List FineObservation) : List Observation := h.filterMap asSeen

def isEdge : Observation → Bool
  | .fallingEdge _ => true
  | _ => false

section Interrupts

/-- Interrupts, as events of the firmware -/
def interrupts (irqs : List (Nat × Nat)) : List Event := irqs.map fun i => .gpioIrq i.1 i.2

/-- The button behind interrupts -/
def interrupted (b : Button) (irqs : List (Nat × Nat)) : Button :=
  irqs.foldl (fun b i => gpioIrq b i.1 i.2) b

theorem interrupted_concat (b : Button) (irqs : List (Nat × Nat)) (gpio now : Nat) :
    interrupted b (irqs ++ [(gpio, now)]) = gpioIrq (interrupted b irqs) gpio now :=
  List.foldl_concat ..

/-- Interrupts do not look at `_press_confirmed`. -/
theorem interrupted_confirmed (b : Button) (irqs : List (Nat × Nat)) :
    interrupted { b with pressConfirmed := true } irqs =
      { interrupted b irqs with pressConfirmed := true } := by
  induction irqs generalizing b with
  | nil => rfl
  | cons i irqs ih =>
    have hone : gpioIrq { b with pressConfirmed := true } i.1 i.2 =
        { gpioIrq b i.1 i.2 with pressConfirmed := true } := by
      simp only [gpioIrq]
      split <;> rfl
    rw [interrupted, List.foldl_cons, hone]
    exact ih (gpioIrq b i.1 i.2)

theorem exec_interrupts (k : Backend) (s : State) (irqs : List (Nat × Nat)) :
    exec (step k) s (interrupts irqs) = { s with button := interrupted s.button irqs } := by
  induction irqs generalizing s with
  | nil => rfl
  | cons i irqs ih => exact ih (step k s (.gpioIrq i.1 i.2)).1

theorem trace_interrupts (k : Backend) (s : State) (irqs : List (Nat × Nat)) :
    (trace (step k) s (interrupts irqs)).filter (!isEdge ·) = [] := by
  induction irqs generalizing s with
  | nil => rfl
  | cons i irqs ih =>
    have hone : (step k s (.gpioIrq i.1 i.2)).2.filter (!isEdge ·) = [] := by
      simp only [step]
      split <;> rfl
    rw [interrupts, List.map_cons, trace, List.filter_append, hone]
    exact ih (step k s (.gpioIrq i.1 i.2)).1

theorem filter_interrupts (irqs : List (Nat × Nat)) :
    (interrupts irqs).filter onLoop = [] ∧
      (interrupts irqs).filter (!onLoop ·) = interrupts irqs := by
  constructor
  · refine List.filter_eq_nil_iff.mpr fun e he => ?_
    obtain ⟨i, _, rfl⟩ := List.mem_map.mp he
    exact Bool.false_ne_true
  · refine List.filter_eq_self.mpr fun e he => ?_
    obtain ⟨i, _, rfl⟩ := List.mem_map.mp he
    rfl

end Interrupts

/-- The firmware once the poll has cleared the flag, and these interrupts have come -/
def behindClear (a : State) (irqs : List (Nat × Nat)) : State :=
  { a with button := interrupted { a.button with edgeSeen := false } irqs }

/-- The same once the press was recorded -/
def behindConfirm (a : State) (irqs : List (Nat × Nat)) : State :=
  { a with button := { interrupted { a.button with edgeSeen := false } irqs with
    pressConfirmed := true } }

/-- The fine state is that of the firmware before the poll, but for the part of the poll that was
done and the interrupts that came since it cleared the flag. -/
inductive Matches (a : State) : List (Nat × Nat) → FineState → Prop
  | outside : Matches a [] ⟨a, .outside⟩
  | flagRead (hseen : a.button.edgeSeen = true) : Matches a [] ⟨a, .flagRead⟩
  | lowRead (hseen : a.button.edgeSeen = true) :
      Matches a [] ⟨a, .lowRead (a.button.edgeTime % 2 ^ 32)⟩
  | timeRead (hseen : a.button.edgeSeen = true) : Matches a [] ⟨a, .timeRead a.button.edgeTime⟩
  | due {now : Nat} (hseen : a.button.edgeSeen = true)
      (hdue : young a.button.edgeTime now = false) : Matches a [] ⟨a, .due now⟩
  | cleared {irqs : List (Nat × Nat)} {now : Nat} (hseen : a.button.edgeSeen = true)
      (hdue : young a.button.edgeTime now = false) :
      Matches a irqs ⟨behindClear a irqs, .cleared now⟩
  | held {irqs : List (Nat × Nat)} {now : Nat} (hseen : a.button.edgeSeen = true)
      (hdue : young a.button.edgeTime now = false) :
      Matches a irqs ⟨behindClear a irqs, .held now⟩
  | confirmed {irqs : List (Nat × Nat)} {now : Nat} (hseen : a.button.edgeSeen = true)
      (hdue : young a.button.edgeTime now = false) :
      Matches a irqs ⟨behindConfirm a irqs, .confirmed now⟩

/-- A run of the firmware in which polls are atomic, and what the fine run has beyond it -/
structure Accounts (k : Backend) (es : List Event) (irqs : List (Nat × Nat))
    (h : List FineObservation) : Prop where
  calls : (calls h).filter onLoop = es.filter onLoop
  irqs : (PollInterleaving.calls h).filter (!onLoop ·) = es.filter (!onLoop ·) ++ interrupts irqs
  seen : (seen h).filter (!isEdge ·) = (history k es).filter (!isEdge ·)

section Accounting

variable {k : Backend} {es : List Event} {irqs : List (Nat × Nat)} {h : List FineObservation}

/-- What is reported when a run goes on, and the events that stand for it -/
theorem Accounts.extend (hacc : Accounts k es [] h) {obs : List FineObservation} {fs : List Event}
    (hcalls : PollInterleaving.calls obs = fs)
    (hseen : (PollInterleaving.seen obs).filter (!isEdge ·) =
      (trace (step k) (run k es) fs).filter (!isEdge ·)) : Accounts k (es ++ fs) [] (h ++ obs) := by
  have hsplit : PollInterleaving.calls (h ++ obs) = PollInterleaving.calls h ++ fs := by
    rw [PollInterleaving.calls, List.filterMap_append]
    exact congrArg _ hcalls
  constructor
  · rw [hsplit, List.filter_append, List.filter_append, hacc.calls]
  · rw [hsplit, List.filter_append, List.filter_append, hacc.irqs, interrupts, List.map_nil,
      List.append_nil, List.append_nil]
  · rw [PollInterleaving.seen, List.filterMap_append, List.filter_append, history_append,
      List.filter_append]
    exact congrArg₂ _ hacc.seen hseen

theorem Accounts.silent (hacc : Accounts k es irqs h) : Accounts k es irqs (h ++ []) := by
  rwa [List.append_nil]

/-- A deferred interrupt -/
theorem Accounts.defer (hacc : Accounts k es irqs h) (gpio now : Nat) :
    Accounts k es (irqs ++ [(gpio, now)]) (h ++ [.called (.gpioIrq gpio now)]) := by
  have hsplit : PollInterleaving.calls (h ++ [.called (.gpioIrq gpio now)]) =
      PollInterleaving.calls h ++ [.gpioIrq gpio now] := List.filterMap_append
  constructor
  · rw [hsplit, List.filter_append, hacc.calls]
    exact List.append_nil _
  · rw [hsplit, List.filter_append, hacc.irqs, interrupts, interrupts, List.map_append,
      List.append_assoc]
    rfl
  · rw [PollInterleaving.seen, List.filterMap_append]
    exact (congrArg _ (List.append_nil _)).trans hacc.seen

/-- The poll ends: it stands before the interrupts that were deferred. -/
theorem Accounts.finish (hacc : Accounts k es irqs h) {obs : List FineObservation} {hw : Sample}
    (hcalls : PollInterleaving.calls obs = [.poll hw])
    (hseen : (PollInterleaving.seen obs).filter (!isEdge ·) =
      (step k (run k es) (.poll hw)).2.filter (!isEdge ·)) :
    Accounts k (es ++ .poll hw :: interrupts irqs) [] (h ++ obs) := by
  obtain ⟨hnone, hall⟩ := filter_interrupts irqs
  have hsplit : PollInterleaving.calls (h ++ obs) = PollInterleaving.calls h ++ [.poll hw] := by
    rw [PollInterleaving.calls, List.filterMap_append]
    exact congrArg _ hcalls
  have hcons : Event.poll hw :: interrupts irqs = [.poll hw] ++ interrupts irqs := rfl
  constructor
  · rw [hsplit, hcons, List.filter_append, List.filter_append, List.filter_append, hnone,
      List.append_nil, hacc.calls]
  · have hpoll : [Event.poll hw].filter (!onLoop ·) = [] := rfl
    rw [hsplit, hcons, List.filter_append, List.filter_append, List.filter_append, hall, hacc.irqs,
      hpoll, List.append_nil, List.nil_append]
    exact (List.append_nil _).symm
  · rw [PollInterleaving.seen, List.filterMap_append, List.filter_append, history_append, trace,
      List.filter_append, List.filter_append, trace_interrupts, List.append_nil]
    exact congrArg₂ _ hacc.seen hseen

end Accounting

/-- A run in which polls are atomic explains the fine state and what was seen. -/
def Explained (k : Backend) (h : List FineObservation) (f : FineState) : Prop :=
  ∃ es irqs, Matches (run k es) irqs f ∧ Accounts k es irqs h

section Steps

variable {k : Backend} {es : List Event} {irqs : List (Nat × Nat)} {h : List FineObservation}

theorem run_concat (k : Backend) (es : List Event) (e : Event) :
    run k (es ++ [e]) = (step k (run k es) e).1 := run_append k es [e]

/-- An interrupt that is not deferred -/
theorem Accounts.irq (hacc : Accounts k es [] h) (gpio now : Nat) :
    Accounts k (es ++ [.gpioIrq gpio now]) [] (h ++ [.called (.gpioIrq gpio now)]) :=
  hacc.extend rfl (trace_interrupts k (run k es) [(gpio, now)]).symm

/-- While the flag is set, an interrupt leaves the firmware as it is. -/
theorem run_pending (hseen : (run k es).button.edgeSeen = true) (gpio now : Nat) :
    run k (es ++ [.gpioIrq gpio now]) = run k es := by
  rw [run_concat]
  simp only [step, gpioIrq_pending hseen]

/-- The poll stays where it is. -/
theorem explained_pending (hacc : Accounts k es [] h) (hseen : (run k es).button.edgeSeen = true)
    {point : PollPoint} (hmatch : Matches (run k es) [] ⟨run k es, point⟩) (gpio now : Nat) :
    Explained k (h ++ (fineStep k ⟨run k es, point⟩ (.irq gpio now)).2)
      (fineStep k ⟨run k es, point⟩ (.irq gpio now)).1 := by
  refine ⟨es ++ [.gpioIrq gpio now], [], ?_, hacc.irq gpio now⟩
  simp only [run_pending hseen, fineStep, gpioIrq_pending hseen]
  exact hmatch

theorem explained_irq {f : FineState} (hf : Explained k h f) (gpio now : Nat) :
    Explained k (h ++ (fineStep k f (.irq gpio now)).2) (fineStep k f (.irq gpio now)).1 := by
  obtain ⟨es, irqs, hmatch, hacc⟩ := hf
  cases hmatch with
  | outside =>
    refine ⟨es ++ [.gpioIrq gpio now], [], ?_, hacc.irq gpio now⟩
    rw [run_concat]
    exact .outside
  | flagRead hseen => exact explained_pending hacc hseen (.flagRead hseen) gpio now
  | lowRead hseen => exact explained_pending hacc hseen (.lowRead hseen) gpio now
  | timeRead hseen => exact explained_pending hacc hseen (.timeRead hseen) gpio now
  | due hseen hdue => exact explained_pending hacc hseen (.due hseen hdue) gpio now
  -- from here on the poll is past its clearing of the flag: the interrupt comes behind it
  | cleared hseen hdue =>
    refine ⟨es, irqs ++ [(gpio, now)], ?_, hacc.defer gpio now⟩
    simp only [fineStep, behindClear]
    rw [← interrupted_concat]
    exact .cleared hseen hdue
  | held hseen hdue =>
    refine ⟨es, irqs ++ [(gpio, now)], ?_, hacc.defer gpio now⟩
    simp only [fineStep, behindClear]
    rw [← interrupted_concat]
    exact .held hseen hdue
  | confirmed hseen hdue =>
    refine ⟨es, irqs ++ [(gpio, now)], ?_, hacc.defer gpio now⟩
    simp only [fineStep, behindConfirm]
    rw [← interrupted_confirmed, ← interrupted_concat, interrupted_confirmed]
    exact .confirmed hseen hdue

theorem calls_loop {e : Event} (obs : List Observation) :
    calls (.called e :: obs.map .saw) = [e] := by
  have hnone : (obs.map FineObservation.saw).filterMap asCall = [] := by
    rw [List.filterMap_map, List.filterMap_eq_nil_iff]
    intro o _
    rfl
  exact congrArg (e :: ·) hnone

theorem seen_loop {e : Event} (obs : List Observation) :
    seen (.called e :: obs.map .saw) = obs := by
  have hall : (obs.map FineObservation.saw).filterMap asSeen = obs := by
    rw [List.filterMap_map]
    exact List.filterMap_some
  exact hall

theorem explained_loop {f : FineState} (hf : Explained k h f) (e : Event) :
    Explained k (h ++ (fineStep k f (.loop e)).2) (fineStep k f (.loop e)).1 := by
  obtain ⟨es, irqs, hmatch, hacc⟩ := hf
  cases hmatch with
  | outside =>
    simp only [fineStep]
    split
    · refine ⟨es ++ [e], [], ?_, hacc.extend (calls_loop _) ?_⟩
      · rw [run_concat]
        exact .outside
      · rw [seen_loop, trace, trace, List.append_nil]
    · exact ⟨es, [], .outside, hacc.silent⟩
  | flagRead hseen => exact ⟨es, [], .flagRead hseen, hacc.silent⟩
  | lowRead hseen => exact ⟨es, [], .lowRead hseen, hacc.silent⟩
  | timeRead hseen => exact ⟨es, [], .timeRead hseen, hacc.silent⟩
  | due hseen hdue => exact ⟨es, [], .due hseen hdue, hacc.silent⟩
  | cleared hseen hdue => exact ⟨es, irqs, .cleared hseen hdue, hacc.silent⟩
  | held hseen hdue => exact ⟨es, irqs, .held hseen hdue, hacc.silent⟩
  | confirmed hseen hdue => exact ⟨es, irqs, .confirmed hseen hdue, hacc.silent⟩

/-- A poll that returns before it clears the flag -/
theorem explained_idle (hacc : Accounts k es [] h) {hw : Sample}
    (hidle : buttonWasPressed (run k es).button (run k es).card.dev hw =
      (false, (run k es).button, (run k es).card.dev)) :
    Explained k (h ++ [.called (.poll hw)]) ⟨run k es, .outside⟩ := by
  have hstep : step k (run k es) (.poll hw) = (run k es, []) := by
    simp only [step, hidle, movedObs_self]
    rfl
  have hrun : run k (es ++ [.poll hw]) = run k es := by rw [run_concat, hstep]
  refine ⟨es ++ [.poll hw], [], ?_, hacc.extend rfl ?_⟩
  · rw [hrun]
    exact .outside
  · rw [trace, trace, hstep]
    rfl

/-- A poll that returns after it, with the interrupts that came since -/
theorem explained_return (hacc : Accounts k es irqs h) {hw : Sample} {b : Button} {dev : Device}
    {pressed : Bool} {fw : State} {obs : List FineObservation}
    (hpoll : buttonWasPressed (run k es).button (run k es).card.dev hw = (pressed, b, dev))
    (hfw : fw = { run k es with
      button := interrupted b irqs, card := { (run k es).card with dev := dev } })
    (hcalls : calls obs = [.poll hw])
    (hseen : seen obs = (if pressed then [.pressConfirmed hw.stamp] else []) ++
      movedObs (run k es).card.dev dev hw.stamp) : Explained k (h ++ obs) ⟨fw, .outside⟩ := by
  refine ⟨es ++ .poll hw :: interrupts irqs, [], ?_, hacc.finish hcalls ?_⟩
  · have hrun : run k (es ++ .poll hw :: interrupts irqs) = fw := by
      rw [run_append, exec, exec_interrupts, hfw]
      simp only [step, hpoll]
    rw [hrun]
    exact .outside
  · simp only [step, hpoll, hseen]

/-- Past the debounce time a poll answers with the level of the pin. -/
theorem poll_due {a : State} {now : Nat} (hseen : a.button.edgeSeen = true)
    (hdue : young a.button.edgeTime now = false) (d : Device) (pinHigh : Bool) (stamp : Nat) :
    buttonWasPressed a.button d { now := now, pinHigh := pinHigh, stamp := stamp } =
      if pinHigh = false then
        (true, { a.button with edgeSeen := false, pressConfirmed := true },
          devStateButtonPressed d stamp)
      else (false, { a.button with edgeSeen := false }, d) := by
  have hold : ¬ elapsedMs a.button { now := now, pinHigh := pinHigh, stamp := stamp } <
      buttonDebounceMs := of_decide_eq_false hdue
  simp only [buttonWasPressed, hseen, if_neg hold, reduceCtorEq, if_false]

theorem explained_access {f : FineState} (hf : Explained k h f) (hw : Sample) :
    Explained k (h ++ (fineStep k f (.access hw)).2) (fineStep k f (.access hw)).1 := by
  obtain ⟨es, irqs, hmatch, hacc⟩ := hf
  cases hmatch with
  | outside =>
    simp only [fineStep, pollAccess]
    split
    · rename_i hclear
      exact explained_idle hacc (poll_clear hclear _ hw)
    · rename_i hseen
      exact ⟨es, [], .flagRead (Bool.eq_true_of_not_eq_false hseen), hacc.silent⟩
  | flagRead hseen => exact ⟨es, [], .lowRead hseen, hacc.silent⟩
  | lowRead hseen =>
    simp only [fineStep, pollAccess, Nat.mod_add_div]
    exact ⟨es, [], .timeRead hseen, hacc.silent⟩
  | timeRead hseen =>
    simp only [fineStep, pollAccess]
    split
    · rename_i hyoung
      refine explained_idle hacc ?_
      have hless : elapsedMs (run k es).button hw < buttonDebounceMs := of_decide_eq_true hyoung
      simp only [buttonWasPressed, if_pos hless, ite_self]
    · rename_i hold
      exact ⟨es, [], .due hseen (Bool.eq_false_of_not_eq_true hold), hacc.silent⟩
  | due hseen hdue => exact ⟨es, [], .cleared hseen hdue, hacc.silent⟩
  | cleared hseen hdue =>
    simp only [fineStep, pollAccess]
    split
    · exact ⟨es, irqs, .held hseen hdue, hacc.silent⟩
    · rename_i hhigh
      refine explained_return hacc ((poll_due hseen hdue _ hw.pinHigh hw.stamp).trans
        (if_neg hhigh)) rfl rfl ?_
      simp only [movedObs_self]
      rfl
  | held hseen hdue => exact ⟨es, irqs, .confirmed hseen hdue, hacc.silent⟩
  | confirmed hseen hdue =>
    -- the device is not touched by interrupts
    let dev := devStateButtonPressed (run k es).card.dev hw.stamp
    let obs := Observation.pressConfirmed hw.stamp :: movedObs (run k es).card.dev dev hw.stamp
    refine explained_return hacc (poll_due hseen hdue _ false hw.stamp) ?_ (calls_loop obs)
      (seen_loop obs)
    simp only [behindConfirm]
    rw [← interrupted_confirmed]

theorem explained_step {f : FineState} (hf : Explained k h f) (e : FineEvent) :
    Explained k (h ++ (fineStep k f e).2) (fineStep k f e).1 := by
  cases e with
  | loop e => exact explained_loop hf e
  | irq gpio now => exact explained_irq hf gpio now
  | access hw => exact explained_access hf hw

theorem explained_run (k : Backend) (fs : List FineEvent) :
    Explained k (fineHistory k fs) (fineRun k fs) :=
  history_invariant (J := Explained k) (fun _ _ e hf => explained_step hf e)
    ⟨[], [], .outside, rfl, rfl, rfl⟩ fs

end Steps

/-- Whenever no poll is under way, the firmware is where a run with atomic polls ends. That run
makes the same calls in the same order, has the interrupts in the order in which they came, and
shows the same. -/
theorem poll_atomic (k : Backend) (fs : List FineEvent) (hout : (fineRun k fs).point = .outside) :
    ∃ es, run k es = (fineRun k fs).fw ∧
      es.filter onLoop = (calls (fineHistory k fs)).filter onLoop ∧
      es.filter (!onLoop ·) = (calls (fineHistory k fs)).filter (!onLoop ·) ∧
      (history k es).filter (!isEdge ·) = (seen (fineHistory k fs)).filter (!isEdge ·) := by
  obtain ⟨es, irqs, hmatch, hcalls, hirqs, hseen⟩ := explained_run k fs
  generalize hf : fineRun k fs = f at hmatch hout
  cases hmatch with
  | outside =>
    rw [interrupts, List.map_nil, List.append_nil] at hirqs
    exact ⟨es, rfl, hcalls.symm, hirqs.symm, hseen.symm⟩
  | _ => cases hout

/-- A press whose edge bounces while the poll reads the time, and once more after the poll has
cleared the flag. -/
def bouncedPoll : List FineEvent :=
  [.loop (.tick 0), .irq buttonPin 0x100000005, .access ⟨0, false, 0⟩, .access ⟨0, false, 0⟩,
    .irq buttonPin 0x200000000, .access ⟨0, false, 0⟩, .access ⟨0x100008000, false, 0⟩,
    .access ⟨0, false, 0⟩, .irq buttonPin 0x100008001, .access ⟨0, false, 0⟩,
    .access ⟨0, false, 0⟩, .access ⟨0, false, 0x100008002⟩, .loop (.tick 0x100008003)]

theorem poll_atomic_bounced :
    (fineRun sampleBackend bouncedPoll).fw.button = ⟨true, true, 0x100008001⟩ ∧
    ∃ es, run sampleBackend es = (fineRun sampleBackend bouncedPoll).fw ∧
      es.filter onLoop = (calls (fineHistory sampleBackend bouncedPoll)).filter onLoop ∧
      es.filter (!onLoop ·) = (calls (fineHistory sampleBackend bouncedPoll)).filter (!onLoop ·) ∧
      (history sampleBackend es).filter (!isEdge ·) =
        (seen (fineHistory sampleBackend bouncedPoll)).filter (!isEdge ·) :=
  ⟨rfl, poll_atomic sampleBackend bouncedPoll rfl⟩

end PollInterleaving
