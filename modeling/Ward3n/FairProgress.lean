import Ward3n.TracedRuns

/-!
# Work that is finished by fair rounds

A measure of the work a machine has left, and for each mode of the machine the
events that are urgent in it. No event adds work or changes the mode without
work being done; an urgent one does some. A stretch of events that holds an
urgent one for every mode is a fair round, whatever else it holds and in
whatever order. As many fair rounds as there is work finish it.
-/

namespace FairProgress

open TracedRuns

universe u v w x
variable {S : Type u} {E : Type v} {O : Type w} {M : Type x}

structure Progress (step : S → E → S × List O) (guard : E → Prop) (inv : S → Prop)
    (work : S → Nat) (mode : S → M) (urgent : M → E → Prop) : Prop where
  keeps : ∀ {s e}, inv s → guard e → inv (step s e).1
  falls : ∀ {s e}, inv s → guard e →
    work (step s e).1 < work s ∨ (work (step s e).1 = work s ∧ mode (step s e).1 = mode s)
  helps : ∀ {s e}, inv s → guard e → 0 < work s → urgent (mode s) e →
    work (step s e).1 < work s

/-- The stretch holds an urgent event for every mode in which there is work left. -/
def Fair (inv : S → Prop) (work : S → Nat) (mode : S → M) (urgent : M → E → Prop)
    (round : List E) : Prop :=
  ∀ s, inv s → 0 < work s → ∃ e ∈ round, urgent (mode s) e

section Rounds

variable {step : S → E → S × List O} {guard : E → Prop} {inv : S → Prop} {work : S → Nat}
  {mode : S → M} {urgent : M → E → Prop}

theorem Progress.inv_run (h : Progress step guard inv work mode urgent) {s : S} (hs : inv s)
    {es : List E} (hes : ∀ e ∈ es, guard e) : inv (exec step s es) := by
  induction es generalizing s with
  | nil => exact hs
  | cons e es ih =>
    exact ih (h.keeps hs (hes e List.mem_cons_self)) fun x hx => hes x (List.mem_cons_of_mem e hx)

theorem Progress.work_run_le (h : Progress step guard inv work mode urgent) {s : S} (hs : inv s)
    {es : List E} (hes : ∀ e ∈ es, guard e) : work (exec step s es) ≤ work s := by
  induction es generalizing s with
  | nil => exact Nat.le_refl _
  | cons e es ih =>
    have hfirst := hes e List.mem_cons_self
    have hrest := ih (h.keeps hs hfirst) fun x hx => hes x (List.mem_cons_of_mem e hx)
    rcases h.falls hs hfirst with hless | ⟨hsame, _⟩
    · exact Nat.le_trans hrest (Nat.le_of_lt hless)
    · exact Nat.le_trans hrest (Nat.le_of_eq hsame)

/-- An urgent event stays urgent until work is done, by itself or by another. -/
theorem Progress.urgent_falls (h : Progress step guard inv work mode urgent) {s : S} (hs : inv s)
    {es : List E} (hes : ∀ e ∈ es, guard e) (hwork : 0 < work s) {e : E} (he : e ∈ es)
    (hurgent : urgent (mode s) e) : work (exec step s es) < work s := by
  induction es generalizing s with
  | nil => cases he
  | cons x es ih =>
    have hfirst := hes x List.mem_cons_self
    have hlater : ∀ y ∈ es, guard y := fun y hy => hes y (List.mem_cons_of_mem x hy)
    have hinv := h.keeps hs hfirst
    rcases List.mem_cons.mp he with rfl | he
    · exact Nat.lt_of_le_of_lt (h.work_run_le hinv hlater) (h.helps hs hfirst hwork hurgent)
    · rcases h.falls hs hfirst with hless | ⟨hsame, hmode⟩
      · exact Nat.lt_of_le_of_lt (h.work_run_le hinv hlater) hless
      · have hrest := ih hinv hlater (by rwa [hsame]) he (by rwa [hmode])
        rwa [hsame] at hrest

/-- As many fair rounds as there is work leave none. -/
theorem Progress.finished (h : Progress step guard inv work mode urgent) {s : S} (hs : inv s)
    {rounds : List (List E)} (hguard : ∀ round ∈ rounds, ∀ e ∈ round, guard e)
    (hfair : ∀ round ∈ rounds, Fair inv work mode urgent round)
    (hcount : work s ≤ rounds.length) : work (exec step s rounds.flatten) = 0 := by
  induction rounds generalizing s with
  | nil => exact Nat.le_zero.mp hcount
  | cons round rounds ih =>
    have hfirst := hguard round List.mem_cons_self
    rw [List.flatten_cons, exec_append]
    apply ih (h.inv_run hs hfirst)
    · intro r hr
      exact hguard r (List.mem_cons_of_mem round hr)
    · intro r hr
      exact hfair r (List.mem_cons_of_mem round hr)
    · have hle := h.work_run_le hs hfirst
      rw [List.length_cons] at hcount
      by_cases hwork : 0 < work s
      · obtain ⟨e, he, hurgent⟩ := hfair round List.mem_cons_self s hs hwork
        have hless := h.urgent_falls hs hfirst hwork he hurgent
        omega
      · omega

end Rounds

end FairProgress
