import Mathlib.Data.List.Basic

/-!
# Scripts of fallible calls, and the protocol of what they call

A script makes calls, each of which returns a code. A code other than 0 ends the
script, and is what the script returns; a clean-up is run in any case. What the
called library asks of its callers is a protocol: a state, the calls that may be
made in it, and what a call that succeeds makes of it. A call that fails leaves
the state as it is.
-/

namespace CallProtocols

universe u v w

/-- What came of a script: its value or the code it ended with, and the calls it made, each
with the code it returned. -/
structure Script (C : Type u) (α : Type v) where
  outcome : Except Int α
  calls : List (C × Int)

namespace Script

variable {C : Type u} {α : Type v} {β : Type w}

def give (a : α) : Script C α := { outcome := .ok a, calls := [] }

/-- The script ends with this code, which need not be the code of a call. -/
def fail (code : Int) : Script C α := { outcome := .error code, calls := [] }

def andThen (s : Script C α) (f : α → Script C β) : Script C β :=
  match s.outcome with
  | .error code => { outcome := .error code, calls := s.calls }
  | .ok a => { outcome := (f a).outcome, calls := s.calls ++ (f a).calls }

/-- A call whose code is looked at -/
def attempt (c : C) (code : Int) : Script C Unit :=
  { outcome := if code = 0 then .ok () else .error code, calls := [(c, code)] }

/-- A call whose code, if it has one, is not looked at -/
def perform (c : C) (code : Int) : Script C Unit := { outcome := .ok (), calls := [(c, code)] }

/-- One call after the other -/
def attemptAll (code : C → Int) : List C → Script C Unit
  | [] => give ()
  | c :: cs => (attempt c (code c)).andThen fun _ => attemptAll code cs

/-- The clean-up calls are made behind the script, however it ended. -/
def finallyDo (s : Script C α) (cs : List C) : Script C α :=
  { outcome := s.outcome, calls := s.calls ++ cs.map (·, 0) }

/-- The code a script returns to its caller -/
def code (s : Script C α) : Int :=
  match s.outcome with
  | .ok _ => 0
  | .error code => code

end Script

/-- When a call may be made, and what it does if it succeeds -/
structure Protocol (Q : Type u) (C : Type v) where
  ready : Q → C → Bool
  done : Q → C → Q

namespace Protocol

variable {Q : Type u} {C : Type v} (p : Protocol Q C)

def next (q : Q) (x : C × Int) : Option Q :=
  if p.ready q x.1 then some (if x.2 = 0 then p.done q x.1 else q) else none

/-- The state behind these calls; none if one of them was made out of turn. -/
def walk (q : Q) (calls : List (C × Int)) : Option Q := calls.foldlM p.next q

theorem walk_append (q : Q) (xs ys : List (C × Int)) :
    p.walk q (xs ++ ys) = (p.walk q xs).bind (p.walk · ys) := List.foldlM_append

end Protocol

section Scripts

variable {Q : Type u} {C : Type v} {α : Type w} {p : Protocol Q C} {q q' : Q}
  {good : α → Q → Prop} {bad : Int → Q → Prop}

/-- From this state the script keeps to the protocol, and ends in a good state if it succeeds and
in a bad one if it fails. -/
def Keeps (p : Protocol Q C) (q : Q) (s : Script C α) (good : α → Q → Prop)
    (bad : Int → Q → Prop) : Prop :=
  ∃ q', p.walk q s.calls = some q' ∧
    match s.outcome with
    | .ok a => good a q'
    | .error code => bad code q'

theorem keeps_give {a : α} (h : good a q) : Keeps p q (.give a) good bad := ⟨q, rfl, h⟩

theorem keeps_fail {code : Int} (h : bad code q) : Keeps p q (.fail code) good bad := ⟨q, rfl, h⟩

theorem Keeps.mono {s : Script C α} {good' : α → Q → Prop} {bad' : Int → Q → Prop}
    (h : Keeps p q s good bad) (hgood : ∀ a q, good a q → good' a q)
    (hbad : ∀ code q, bad code q → bad' code q) : Keeps p q s good' bad' := by
  obtain ⟨q', hwalk, hend⟩ := h
  refine ⟨q', hwalk, ?_⟩
  cases houtcome : s.outcome with
  | ok a =>
    rw [houtcome] at hend
    exact hgood a q' hend
  | error code =>
    rw [houtcome] at hend
    exact hbad code q' hend

/-- The rule for two scripts in a row -/
theorem Keeps.andThen {β : Type*} {s : Script C α} {f : α → Script C β} {middle : α → Q → Prop}
    {good : β → Q → Prop} (h : Keeps p q s middle bad)
    (hrest : ∀ a q', middle a q' → Keeps p q' (f a) good bad) :
    Keeps p q (s.andThen f) good bad := by
  obtain ⟨q', hwalk, hend⟩ := h
  cases houtcome : s.outcome with
  | error code =>
    rw [houtcome] at hend
    exact ⟨q', by simpa only [Script.andThen, houtcome] using hwalk,
      by simpa only [Script.andThen, houtcome] using hend⟩
  | ok a =>
    rw [houtcome] at hend
    obtain ⟨q'', hrestWalk, hrestEnd⟩ := hrest a q' hend
    refine ⟨q'', ?_, by simpa only [Script.andThen, houtcome] using hrestEnd⟩
    simp only [Script.andThen, houtcome]
    rw [p.walk_append, hwalk]
    exact hrestWalk

theorem keeps_attempt {c : C} (hready : p.ready q c = true) (code : Int)
    (hfails : code ≠ 0 → bad code q) :
    Keeps p q (.attempt c code) (fun _ q' => q' = p.done q c) bad := by
  refine ⟨if code = 0 then p.done q c else q, ?_, ?_⟩
  · simp [Script.attempt, Protocol.walk, Protocol.next, hready]
  · by_cases hcode : code = 0
    · simp [Script.attempt, hcode]
    · simpa [Script.attempt, hcode] using hfails hcode

/-- A call that leaves the state as it is, and whose code is not looked at -/
theorem keeps_perform {c : C} (hready : p.ready q c = true) (hsame : p.done q c = q) (code : Int) :
    Keeps p q (.perform c code) (fun _ q' => q' = q) bad := by
  refine ⟨q, ?_, rfl⟩
  simp [Script.perform, Protocol.walk, Protocol.next, hready, hsame]

/-- The states on the way, if all these calls succeed: none if one is made out of turn. -/
def Protocol.path (p : Protocol Q C) (q : Q) : List C → Option (List Q)
  | [] => some []
  | c :: cs => if p.ready q c then (p.path (p.done q c) cs).map (q :: ·) else none

/-- Calls in a row: each may be the one that fails. -/
theorem keeps_attemptAll {code : C → Int} {cs : List C} {states : List Q}
    (hpath : p.path q cs = some states)
    (hbad : ∀ c ∈ cs, code c ≠ 0 → ∀ q' ∈ states, bad (code c) q') :
    Keeps p q (.attemptAll code cs) (fun _ q' => q' = cs.foldl p.done q) bad := by
  induction cs generalizing q states with
  | nil => exact keeps_give rfl
  | cons c cs ih =>
    rw [Protocol.path] at hpath
    split at hpath
    swap
    · cases hpath
    rename_i hready
    obtain ⟨later, hlater, rfl⟩ := Option.map_eq_some_iff.mp hpath
    refine (keeps_attempt hready (code c) fun hcode =>
      hbad c List.mem_cons_self hcode q List.mem_cons_self).andThen ?_
    rintro _ q' rfl
    exact ih hlater fun c' hc' hcode q' hq' =>
      hbad c' (List.mem_cons_of_mem c hc') hcode q' (List.mem_cons_of_mem q hq')

/-- A clean-up behind a script -/
theorem Keeps.finallyDo {s : Script C α} {cs : List C} {good' : α → Q → Prop}
    {bad' : Int → Q → Prop} (h : Keeps p q s good bad)
    (hgood : ∀ a q, good a q → ∃ q', p.walk q (cs.map (·, 0)) = some q' ∧ good' a q')
    (hbad : ∀ code q, bad code q → ∃ q', p.walk q (cs.map (·, 0)) = some q' ∧ bad' code q') :
    Keeps p q (s.finallyDo cs) good' bad' := by
  obtain ⟨q', hwalk, hend⟩ := h
  cases houtcome : s.outcome with
  | ok a =>
    rw [houtcome] at hend
    obtain ⟨q'', hclean, hq''⟩ := hgood a q' hend
    refine ⟨q'', ?_, by simpa only [Script.finallyDo, houtcome] using hq''⟩
    simp only [Script.finallyDo]
    rw [p.walk_append, hwalk]
    exact hclean
  | error code =>
    rw [houtcome] at hend
    obtain ⟨q'', hclean, hq''⟩ := hbad code q' hend
    refine ⟨q'', ?_, by simpa only [Script.finallyDo, houtcome] using hq''⟩
    simp only [Script.finallyDo]
    rw [p.walk_append, hwalk]
    exact hclean

end Scripts

section Codes

variable {C : Type u} {α : Type v} {β : Type w}

/-- Calls in a row all succeed if no code is returned. -/
theorem Script.attemptAll_ok {code : C → Int} {cs : List C}
    (h : (Script.attemptAll code cs).code = 0) : (Script.attemptAll code cs).outcome = .ok () := by
  induction cs with
  | nil => rfl
  | cons c cs ih =>
    simp only [attemptAll, andThen, attempt, Script.code] at h ih ⊢
    by_cases hcode : code c = 0
    · simp only [hcode, if_true] at h ⊢
      exact ih h
    · simp only [if_neg hcode] at h
      exact absurd h hcode

theorem Script.andThen_ok {s : Script C α} {a : α} (h : s.outcome = .ok a)
    (f : α → Script C β) : (s.andThen f).outcome = (f a).outcome := by
  simp only [andThen, h]

theorem Script.andThen_fails {s : Script C α} (h : s.code ≠ 0) (f : α → Script C β) :
    (s.andThen f).outcome = .error s.code := by
  cases houtcome : s.outcome with
  | ok a => exact absurd (by simp only [Script.code, houtcome]) h
  | error code => simp only [andThen, Script.code, houtcome]

/-- Giving the value another form -/
theorem Script.andThen_give (s : Script C α) (f : α → β) :
    (s.andThen fun a => .give (f a)).outcome = s.outcome.map f := by
  simp only [andThen, give]
  cases s.outcome <;> rfl

theorem Script.code_give (s : Script C α) (f : α → β) :
    (s.andThen fun a => .give (f a)).code = s.code := by
  rw [Script.code, Script.code, s.andThen_give]
  cases s.outcome <;> rfl

end Codes

end CallProtocols
