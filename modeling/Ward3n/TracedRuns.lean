import Mathlib.Data.List.Basic
import Mathlib.Data.List.Infix

/-!
# Runs of a stepped machine and the trace they leave

A step takes a state and an event to the next state and the list of what could
be observed while it ran, oldest first. The rules below turn facts about one
step into facts about the whole trace: a relation between the trace so far and
the state, a property of each observation and its past, and a bound on how
often one kind of observation can have happened against another.
-/

namespace TracedRuns

universe u v w
variable {S : Type u} {E : Type v} {O : Type w}

/-- The state a run ends in. -/
def exec (step : S → E → S × List O) : S → List E → S
  | s, [] => s
  | s, e :: es => exec step (step s e).1 es

/-- Everything observed along a run. -/
def trace (step : S → E → S × List O) : S → List E → List O
  | _, [] => []
  | s, e :: es => (step s e).2 ++ trace step (step s e).1 es

variable {step : S → E → S × List O}

@[simp] theorem exec_nil (s : S) : exec step s [] = s := rfl

@[simp] theorem trace_nil (s : S) : trace step s [] = [] := rfl

theorem exec_append (s : S) (es fs : List E) :
    exec step s (es ++ fs) = exec step (exec step s es) fs := by
  induction es generalizing s with
  | nil => rfl
  | cons e es ih => exact ih (step s e).1

theorem trace_append (s : S) (es fs : List E) :
    trace step s (es ++ fs) = trace step s es ++ trace step (exec step s es) fs := by
  induction es generalizing s with
  | nil => rfl
  | cons e es ih => simp only [List.cons_append, trace, exec, ih, List.append_assoc]

/-- A run on translated events is a run of the machine that translates. -/
theorem exec_map {D : Type*} (f : D → E) (s : S) (ds : List D) :
    exec step s (ds.map f) = exec (fun s d => step s (f d)) s ds := by
  induction ds generalizing s with
  | nil => rfl
  | cons d ds ih => exact ih (step s (f d)).1

theorem trace_map {D : Type*} (f : D → E) (s : S) (ds : List D) :
    trace step s (ds.map f) = trace (fun s d => step s (f d)) s ds := by
  induction ds generalizing s with
  | nil => rfl
  | cons d ds ih => simp only [List.map_cons, trace, ih]

/-- A guard met by every step of a run, each in the state it is taken from. -/
def AllSteps (step : S → E → S × List O) (guard : S → E → Prop) : S → List E → Prop
  | _, [] => True
  | s, e :: es => guard s e ∧ AllSteps step guard (step s e).1 es

theorem allSteps_of_forall {guard : S → E → Prop} (h : ∀ s e, guard s e) (s : S) (es : List E) :
    AllSteps step guard s es := by
  induction es generalizing s with
  | nil => trivial
  | cons e es ih => exact ⟨h s e, ih (step s e).1⟩

theorem allSteps_of_mem {guard : E → Prop} {es : List E} (h : ∀ e ∈ es, guard e) (s : S) :
    AllSteps step (fun _ e => guard e) s es := by
  induction es generalizing s with
  | nil => trivial
  | cons e es ih =>
    exact ⟨h e List.mem_cons_self, ih (fun x hx => h x (List.mem_cons_of_mem e hx)) (step s e).1⟩

theorem allSteps_congr {guard guard' : S → E → Prop} (h : ∀ s e, guard s e ↔ guard' s e) (s : S)
    (es : List E) : AllSteps step guard s es ↔ AllSteps step guard' s es := by
  induction es generalizing s with
  | nil => rfl
  | cons e es ih => exact and_congr (h s e) (ih (step s e).1)

theorem allSteps_append {guard : S → E → Prop} {s : S} {es fs : List E} :
    AllSteps step guard s (es ++ fs) ↔
      AllSteps step guard s es ∧ AllSteps step guard (exec step s es) fs := by
  induction es generalizing s with
  | nil => simp [AllSteps]
  | cons e es ih => rw [List.cons_append, AllSteps, AllSteps, ih, and_assoc, exec]

/-- The guard, read at each place of the run. -/
theorem allSteps_iff {guard : S → E → Prop} {s : S} {es : List E} :
    AllSteps step guard s es ↔
      ∀ before e after, es = before ++ e :: after → guard (exec step s before) e := by
  induction es generalizing s with
  | nil => simp [AllSteps]
  | cons e es ih =>
    rw [AllSteps, ih]
    constructor
    · rintro ⟨first, rest⟩ before x after hsplit
      cases before with
      | nil =>
        obtain ⟨rfl, rfl⟩ := List.cons.inj hsplit
        exact first
      | cons y before =>
        obtain ⟨rfl, hrest⟩ := List.cons.inj hsplit
        exact rest before x after hrest
    · intro hall
      constructor
      · exact hall [] e es rfl
      · intro before x after hsplit
        exact hall (e :: before) x after (congrArg (e :: ·) hsplit)

/-- A relation between history and state kept by every guarded step holds at the end of
every run whose steps all meet the guard. -/
theorem guarded_history {guard : S → E → Prop} {J : List O → S → Prop}
    (next : ∀ h s e, guard s e → J h s → J (h ++ (step s e).2) (step s e).1)
    {h : List O} {s : S} (start : J h s) {es : List E} (guarded : AllSteps step guard s es) :
    J (h ++ trace step s es) (exec step s es) := by
  induction es generalizing h s with
  | nil => simpa using start
  | cons e es ih =>
    rw [trace, ← List.append_assoc]
    exact ih (next h s e guarded.1 start) guarded.2

theorem history_invariant {J : List O → S → Prop}
    (next : ∀ h s e, J h s → J (h ++ (step s e).2) (step s e).1)
    {s : S} (start : J [] s) (es : List E) : J (trace step s es) (exec step s es) := by
  have hall : AllSteps step (fun _ _ => True) s es := allSteps_of_forall (fun _ _ => trivial) s es
  exact guarded_history (fun h s e _ => next h s e) start hall

theorem state_invariant {P : S → Prop} (next : ∀ s e, P s → P (step s e).1)
    {s : S} (start : P s) (es : List E) : P (exec step s es) :=
  history_invariant (J := fun _ s => P s) (fun _ s e => next s e) start es

/-- A property of the state began with an event, and has held since. -/
structure BeganWith (step : S → E → S × List O) (P : S → Prop) (s : S) (es before : List E) (e : E)
    (after : List E) : Prop where
  split : es = before ++ e :: after
  fresh : ¬ P (exec step s before)
  since : ∀ q, q <+: after → P (exec step s (before ++ e :: q))

theorem BeganWith.entered {P : S → Prop} {s : S} {es before after : List E} {e : E}
    (h : BeganWith step P s es before e after) : P (step (exec step s before) e).1 := by
  have hfirst := h.since [] List.nil_prefix
  rwa [exec_append] at hfirst

theorem BeganWith.holds {P : S → Prop} {s : S} {es before after : List E} {e : E}
    (h : BeganWith step P s es before e after) : P (exec step s es) := by
  have hend := h.since after (List.prefix_refl after)
  rwa [← h.split] at hend

theorem BeganWith.shorter {P : S → Prop} {s : S} {es before after : List E} {e : E}
    (h : BeganWith step P s es before e after) : before.length < es.length := by
  rw [h.split]
  simp

theorem beganWith_last {P : S → Prop} {s : S} {es : List E} {e : E} (hfresh : ¬ P (exec step s es))
    (hholds : P (exec step s (es ++ [e]))) : BeganWith step P s (es ++ [e]) es e [] := by
  refine ⟨rfl, hfresh, fun q hq => ?_⟩
  rw [List.prefix_nil.mp hq]
  exact hholds

theorem BeganWith.concat {P : S → Prop} {s : S} {es before after : List E} {e x : E}
    (h : BeganWith step P s es before e after) (hholds : P (exec step s (es ++ [x]))) :
    BeganWith step P s (es ++ [x]) before e (after ++ [x]) := by
  have hsplit : es ++ [x] = before ++ e :: (after ++ [x]) := by
    rw [h.split, List.append_assoc, List.cons_append]
  refine ⟨hsplit, h.fresh, fun q hq => ?_⟩
  rcases List.prefix_concat_iff.mp hq with rfl | hq
  · rwa [hsplit] at hholds
  · exact h.since q hq

/-- What did not hold at the start and holds at the end began with some event. -/
theorem exists_beganWith {P : S → Prop} {s : S} (hstart : ¬ P s) {es : List E}
    (hend : P (exec step s es)) : ∃ before e after, BeganWith step P s es before e after := by
  induction es using List.reverseRecOn with
  | nil => exact absurd hend hstart
  | append_singleton es x ih =>
    by_cases hbefore : P (exec step s es)
    · obtain ⟨before, e, after, h⟩ := ih hbefore
      exact ⟨before, e, after ++ [x], h.concat hend⟩
    · exact ⟨es, x, [], beganWith_last hbefore hend⟩

/-- It began only once. -/
theorem BeganWith.unique {P : S → Prop} {s : S} {es before before' after after' : List E} {e e' : E}
    (h : BeganWith step P s es before e after) (h' : BeganWith step P s es before' e' after') :
    before = before' := by
  rcases List.append_eq_append_iff.mp (h.split.symm.trans h'.split) with
    ⟨mid, hbefore, hrest⟩ | ⟨mid, hbefore, hrest⟩
  · cases mid with
    | nil => simpa using hbefore.symm
    | cons x mid =>
      obtain ⟨rfl, rfl⟩ := List.cons.inj hrest
      exact absurd (hbefore ▸ h.since mid (List.prefix_append mid _)) h'.fresh
  · cases mid with
    | nil => simpa using hbefore
    | cons x mid =>
      obtain ⟨rfl, rfl⟩ := List.cons.inj hrest
      exact absurd (hbefore ▸ h'.since mid (List.prefix_append mid _)) h.fresh

theorem forall_mem_ite {P : O → Prop} {c : Prop} [Decidable c] {o : O} (ho : P o) :
    ∀ x ∈ (if c then [o] else []), P x := by
  intro x hx
  split at hx
  · rwa [List.mem_singleton.mp hx]
  · cases hx

/-- Every observation, taken with its past, has a property. -/
def AtEach (Q : List O → O → Prop) (h : List O) : Prop :=
  ∀ past o later, h = past ++ o :: later → Q past o

@[simp] theorem atEach_nil (Q : List O → O → Prop) : AtEach Q [] := by
  intro past o later h
  simp at h

theorem atEach_of_forall {Q : List O → O → Prop} {h : List O} (hall : ∀ past, ∀ o ∈ h, Q past o) :
    AtEach Q h := by
  rintro past o later rfl
  exact hall past o (by simp)

@[simp] theorem atEach_cons {Q : List O → O → Prop} {o : O} {t : List O} :
    AtEach Q (o :: t) ↔ Q [] o ∧ AtEach (fun past => Q (o :: past)) t := by
  constructor
  · intro h
    exact ⟨h [] o t rfl, fun past p later hsplit => h (o :: past) p later (by
      rw [hsplit, List.cons_append])⟩
  · rintro ⟨first, rest⟩ past p later hsplit
    cases past with
    | nil =>
      obtain ⟨rfl, rfl⟩ := List.cons.inj hsplit
      exact first
    | cons q past =>
      obtain ⟨rfl, hrest⟩ := List.cons.inj hsplit
      exact rest past p later hrest

theorem atEach_append {Q : List O → O → Prop} {h t : List O} :
    AtEach Q (h ++ t) ↔ AtEach Q h ∧ AtEach (fun past => Q (h ++ past)) t := by
  induction h generalizing Q with
  | nil => simp
  | cons o h ih => simp only [List.cons_append, atEach_cons, ih, and_assoc]

/-- A relation to the past, once established by each step, passes to the whole trace. -/
theorem atEach_trace {J : List O → S → Prop} {Q : List O → O → Prop}
    (each : ∀ h s e, J h s → AtEach (fun past => Q (h ++ past)) (step s e).2)
    (next : ∀ h s e, J h s → J (h ++ (step s e).2) (step s e).1)
    {s : S} (start : J [] s) (es : List E) : AtEach Q (trace step s es) :=
  (history_invariant (J := fun h s => AtEach Q h ∧ J h s)
    (fun h s e hj => ⟨atEach_append.mpr ⟨hj.1, each h s e hj.2⟩, next h s e hj.2⟩)
    ⟨atEach_nil Q, start⟩ es).1

/-- When each step has the property exactly if it meets the guard, the trace has it exactly
if every step does. -/
theorem atEach_trace_iff {J : List O → S → Prop} {Q : List O → O → Prop} {guard : S → E → Prop}
    (each : ∀ h s e, J h s → (AtEach (fun past => Q (h ++ past)) (step s e).2 ↔ guard s e))
    (next : ∀ h s e, J h s → J (h ++ (step s e).2) (step s e).1)
    {h : List O} {s : S} (start : J h s) (es : List E) :
    AtEach (fun past => Q (h ++ past)) (trace step s es) ↔ AllSteps step guard s es := by
  induction es generalizing h s with
  | nil => simp [AllSteps]
  | cons e es ih =>
    have hrest := ih (next h s e start)
    simp only [List.append_assoc] at hrest
    rw [trace, atEach_append, AllSteps, each h s e start, hrest]

/-- Some observation met `mark`, given its past, and every later one met `keep`. -/
def Since (keep : O → Prop) (mark : List O → O → Prop) (h : List O) : Prop :=
  ∃ past o later, h = past ++ o :: later ∧ mark past o ∧ ∀ x ∈ later, keep x

theorem Since.append {keep : O → Prop} {mark : List O → O → Prop} {h t : List O}
    (hsince : Since keep mark h) (hkeep : ∀ x ∈ t, keep x) : Since keep mark (h ++ t) := by
  obtain ⟨past, o, later, rfl, hmark, hlater⟩ := hsince
  refine ⟨past, o, later ++ t, by simp, hmark, ?_⟩
  intro x hx
  rcases List.mem_append.mp hx with hx | hx
  · exact hlater x hx
  · exact hkeep x hx

theorem since_of_mark {keep : O → Prop} {mark : List O → O → Prop} {h : List O} {o : O}
    {t : List O} (hmark : mark h o) (hkeep : ∀ x ∈ t, keep x) : Since keep mark (h ++ o :: t) :=
  ⟨h, o, t, rfl, hmark, hkeep⟩

/-- The mark lies in the later part, or in the earlier one with all of the later part kept. -/
theorem since_append {keep : O → Prop} {mark : List O → O → Prop} {h t : List O} :
    Since keep mark (h ++ t) ↔
      Since keep (fun past => mark (h ++ past)) t ∨ Since keep mark h ∧ ∀ x ∈ t, keep x := by
  constructor
  · rintro ⟨past, o, later, heq, hmark, hlater⟩
    rcases List.append_eq_append_iff.mp heq with ⟨mid, rfl, rfl⟩ | ⟨mid, rfl, hrest⟩
    · exact Or.inl ⟨mid, o, later, rfl, hmark, hlater⟩
    · cases mid with
      | nil => exact Or.inl ⟨[], o, later, hrest.symm, by simpa using hmark, hlater⟩
      | cons x mid =>
        obtain ⟨rfl, rfl⟩ := List.cons.inj hrest
        refine Or.inr ⟨⟨past, o, mid, rfl, hmark, ?_⟩, ?_⟩
        · intro y hy
          exact hlater y (List.mem_append_left t hy)
        · intro y hy
          exact hlater y (List.mem_append_right mid hy)
  · rintro (⟨past, o, later, rfl, hmark, hlater⟩ | ⟨hsince, hkeep⟩)
    · exact ⟨h ++ past, o, later, (List.append_assoc h past (o :: later)).symm, hmark, hlater⟩
    · exact hsince.append hkeep

/-- A part that holds no mark and is kept whole changes nothing. -/
theorem since_append_iff {keep : O → Prop} {mark : List O → O → Prop} {h t : List O}
    (hkeep : ∀ x ∈ t, keep x) (hmark : ∀ past, ∀ x ∈ t, ¬ mark past x) :
    Since keep mark (h ++ t) ↔ Since keep mark h := by
  constructor
  · intro hsince
    rcases since_append.mp hsince with ⟨past, o, later, rfl, hfound, _⟩ | ⟨hold, _⟩
    · exact absurd hfound (hmark _ o (by simp))
    · exact hold
  · intro hold
    exact hold.append hkeep

/-- A part that holds no mark and is not kept whole hides every earlier mark. -/
theorem not_since_append {keep : O → Prop} {mark : List O → O → Prop} {h t : List O} {o : O}
    (ho : o ∈ t) (hcut : ¬ keep o) (hmark : ∀ past, ∀ x ∈ t, ¬ mark past x) :
    ¬ Since keep mark (h ++ t) := by
  intro hsince
  rcases since_append.mp hsince with ⟨past, x, later, rfl, hfound, _⟩ | ⟨_, hkeep⟩
  · exact hmark _ x (by simp) hfound
  · exact hcut (hkeep o ho)

/-- Where no later observation can be a mark, there is only one to be found. -/
theorem since_unique {keep : O → Prop} {mark mark' : List O → O → Prop} {h : List O}
    (hsince : Since keep mark h) (hsince' : Since keep mark' h)
    (hends : ∀ past o, mark past o → ¬ keep o) (hends' : ∀ past o, mark' past o → ¬ keep o) :
    ∃ past o, mark past o ∧ mark' past o := by
  obtain ⟨past, o, later, rfl, hmark, hlater⟩ := hsince
  obtain ⟨past', o', later', heq, hmark', hlater'⟩ := hsince'
  rcases List.append_eq_append_iff.mp heq with ⟨mid, hpast, hrest⟩ | ⟨mid, hpast, hrest⟩
  · cases mid with
    | nil =>
      obtain ⟨rfl, _⟩ := List.cons.inj hrest
      rw [List.append_nil] at hpast
      exact ⟨past, o, hmark, hpast ▸ hmark'⟩
    | cons x mid =>
      obtain ⟨rfl, rfl⟩ := List.cons.inj hrest
      exact absurd (hlater o' (by simp)) (hends' past' o' hmark')
  · cases mid with
    | nil =>
      obtain ⟨rfl, _⟩ := List.cons.inj hrest
      rw [List.append_nil] at hpast
      exact ⟨past, o', hmark, hpast ▸ hmark'⟩
    | cons x mid =>
      obtain ⟨rfl, rfl⟩ := List.cons.inj hrest
      exact absurd (hlater' o (by simp)) (hends past o hmark)

theorem prefix_append_cases {p h t : List O} (hp : p <+: h ++ t) :
    p <+: h ∨ ∃ q, q <+: t ∧ p = h ++ q := by
  obtain ⟨rest, hrest⟩ := hp
  rcases List.append_eq_append_iff.mp hrest with ⟨mid, hh, _⟩ | ⟨mid, hp, ht⟩
  · exact Or.inl ⟨mid, hh.symm⟩
  · exact Or.inr ⟨mid, ⟨rest, ht.symm⟩, hp⟩

/-- Observations of kind `a` never outnumber those of kind `b`, at any point of the trace,
when each step pays for its own out of a credit that it settles before it ends. -/
theorem tally_le {a b : O → Bool} (credit : S → Nat)
    (paid : ∀ s e p, p <+: (step s e).2 → p.countP a ≤ p.countP b + credit s)
    (settled : ∀ s e, (step s e).2.countP a + credit (step s e).1 ≤
      (step s e).2.countP b + credit s)
    (s : S) (es : List E) {p : List O} (hp : p <+: trace step s es) :
    p.countP a ≤ p.countP b + credit s := by
  induction es generalizing s p with
  | nil =>
    rw [trace, List.prefix_nil] at hp
    simp [hp]
  | cons e es ih =>
    rcases prefix_append_cases hp with hfirst | ⟨q, hq, rfl⟩
    · exact paid s e p hfirst
    · have hrest := ih (step s e).1 hq
      have hstep := settled s e
      rw [List.countP_append, List.countP_append]
      omega

end TracedRuns
