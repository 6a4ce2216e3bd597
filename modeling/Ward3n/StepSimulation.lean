import Ward3n.TracedRuns

/-!
# One stepped machine followed by another

Two machines with their own states, events and observations. Each event of the
first is answered by a burst of events of the second, possibly empty. A relation
between the states that the bursts keep, and under which both sides show the
same, carries over to whole runs; what is not shown may differ. The guard of the
first machine limits the runs about which something is claimed.
-/

namespace StepSimulation

open TracedRuns

universe u v w u' v' w' x
variable {S : Type u} {E : Type v} {O : Type w} {T : Type u'} {F : Type v'} {P : Type w'}
  {Q : Type x}

/-- The second machine follows the first along the bursts. -/
structure Follows (step : S → E → S × List O) (step' : T → F → T × List P) (burst : E → List F)
    (shown : O → Option Q) (shown' : P → Option Q) (guard : S → E → Prop) (R : S → T → Prop) :
    Prop where
  next : ∀ {s t e}, R s t → guard s e → R (step s e).1 (exec step' t (burst e))
  shows : ∀ {s t e}, R s t → guard s e →
    (step s e).2.filterMap shown = (trace step' t (burst e)).filterMap shown'

section Runs

variable {step : S → E → S × List O} {step' : T → F → T × List P} {burst : E → List F}
  {shown : O → Option Q} {shown' : P → Option Q} {guard : S → E → Prop} {R : S → T → Prop}

/-- Related states stay related along a run, and both machines show the same. -/
theorem Follows.run (h : Follows step step' burst shown shown' guard R) {s : S} {t : T}
    (start : R s t) {es : List E} (guarded : AllSteps step guard s es) :
    R (exec step s es) (exec step' t (es.flatMap burst)) ∧
      (trace step s es).filterMap shown =
        (trace step' t (es.flatMap burst)).filterMap shown' := by
  induction es generalizing s t with
  | nil => exact ⟨start, rfl⟩
  | cons e es ih =>
    obtain ⟨hstep, hrest⟩ := guarded
    obtain ⟨hend, hshown⟩ := ih (h.next start hstep) hrest
    rw [List.flatMap_cons, exec_append, trace_append, List.filterMap_append, ← h.shows start hstep,
      ← hshown, trace, List.filterMap_append]
    exact ⟨hend, rfl⟩

/-- A machine that is followed one event at a time. -/
theorem Follows.of_lockstep {f : E → F}
    (next : ∀ {s t e}, R s t → guard s e → R (step s e).1 (step' t (f e)).1)
    (shows : ∀ {s t e}, R s t → guard s e →
      (step s e).2.filterMap shown = (step' t (f e)).2.filterMap shown') :
    Follows step step' (fun e => [f e]) shown shown' guard R where
  next := next
  shows := by
    intro s t e hrel hguard
    rw [trace, trace_nil, List.append_nil]
    exact shows hrel hguard

end Runs

end StepSimulation
