import Mathlib.Algebra.BigOperators.Group.List.Basic
import Mathlib.Algebra.GroupWithZero.Nat

/-!
# Delivery of a list in requested pieces

A list is handed out from the front, as much at a time as each request asks for.
Every piece carries a mark: how much is left, that it was the last one, or that
there was nothing to give. Whatever the requests, the pieces up to the last one
are the list.
-/

namespace PartedDelivery

universe u v
variable {α : Type u} {μ : Type v}

/-- The marks of a delivery. The mark of a last piece is no other mark. -/
structure Marks (μ : Type v) where
  more : Nat → μ
  complete : μ
  exhausted : μ
  more_ne : ∀ left, more left ≠ complete
  exhausted_ne : exhausted ≠ complete

structure Part (α : Type u) (μ : Type v) where
  body : List α
  mark : μ
  deriving DecidableEq

/-- The part handed out on a request for `n`, when `rest` is what is left. -/
def nextPart (marks : Marks μ) (rest : List α) (n : Nat) : Part α μ :=
  { body := rest.take n
    mark :=
      match rest with
      | [] => marks.exhausted
      | _ :: _ => if rest.length ≤ n then marks.complete else marks.more (rest.length - n) }

/-- The parts handed out on a sequence of requests. -/
def deliver (marks : Marks μ) : List α → List Nat → List (Part α μ)
  | _, [] => []
  | rest, n :: ns => nextPart marks rest n :: deliver marks (rest.drop n) ns

/-- The bodies of a sequence of parts, in order. -/
def bodies (ps : List (Part α μ)) : List α := ps.flatMap Part.body

/-- No part so far was marked as the last. -/
def Unfinished (marks : Marks μ) (ps : List (Part α μ)) : Prop :=
  ∀ p ∈ ps, p.mark ≠ marks.complete

/-- What the receiver puts together: the bodies up to the last part, once that is there. -/
def collect [DecidableEq μ] (marks : Marks μ) : List (Part α μ) → Option (List α)
  | [] => none
  | p :: ps =>
    if p.mark = marks.complete then some p.body else (collect marks ps).map (p.body ++ ·)

/-- The parts are a delivery of `obj`, in whatever pieces. -/
structure Reassembles (marks : Marks μ) (obj : List α) (ps : List (Part α μ)) : Prop where
  more : ∀ before p after, ps = before ++ p :: after → Unfinished marks before →
    p.mark ≠ marks.complete → p.body ≠ [] ∧ ∃ tail, tail ≠ [] ∧
      obj = bodies before ++ p.body ++ tail ∧ p.mark = marks.more tail.length
  last : ∀ before p after, ps = before ++ p :: after → Unfinished marks before →
    p.mark = marks.complete → obj = bodies before ++ p.body
  closed : ∀ before p after, ps = before ++ p :: after → Unfinished marks before →
    p.mark = marks.complete → before ≠ [] → ∀ q ∈ after, q = ⟨[], marks.exhausted⟩
  reached : obj.length ≤ ps.length → ∃ p ∈ ps, p.mark = marks.complete

section Pieces

variable {marks : Marks μ}

theorem nextPart_nil (n : Nat) :
    nextPart marks ([] : List α) n = ⟨[], marks.exhausted⟩ := by
  simp [nextPart]

theorem nextPart_fits {rest : List α} {n : Nat} (hsome : rest ≠ []) (hfits : rest.length ≤ n) :
    nextPart marks rest n = ⟨rest, marks.complete⟩ := by
  cases rest with
  | nil => exact absurd rfl hsome
  | cons a rest => simp only [nextPart, if_pos hfits, List.take_of_length_le hfits]

theorem nextPart_long {rest : List α} {n : Nat} (hlong : n < rest.length) :
    nextPart marks rest n = ⟨rest.take n, marks.more (rest.length - n)⟩ := by
  cases rest with
  | nil => exact absurd hlong (Nat.not_lt_zero n)
  | cons a rest => simp only [nextPart, if_neg (Nat.not_le.mpr hlong)]

/-- A part that is marked as the last one took all that was left. -/
theorem nextPart_complete {rest : List α} {n : Nat}
    (h : (nextPart marks rest n).mark = marks.complete) : rest ≠ [] ∧ rest.length ≤ n := by
  cases rest with
  | nil =>
    rw [nextPart_nil] at h
    exact absurd h marks.exhausted_ne
  | cons a rest =>
    refine ⟨List.cons_ne_nil a rest, ?_⟩
    by_contra hlong
    rw [nextPart_long (Nat.not_le.mp hlong)] at h
    exact marks.more_ne _ h

theorem deliver_length (rest : List α) (ns : List Nat) :
    (deliver marks rest ns).length = ns.length := by
  induction ns generalizing rest with
  | nil => rfl
  | cons n ns ih => simp only [deliver, List.length_cons, ih]

/-- Nothing is lost or repeated: the bodies are the front of the list. -/
theorem bodies_deliver (rest : List α) (ns : List Nat) :
    bodies (deliver marks rest ns) = rest.take ns.sum := by
  induction ns generalizing rest with
  | nil => simp [deliver, bodies]
  | cons n ns ih =>
    have hrest := ih (rest.drop n)
    rw [bodies] at hrest ⊢
    rw [deliver, List.flatMap_cons, hrest, List.sum_cons, List.take_add]
    rfl

theorem deliver_nil (ns : List Nat) :
    ∀ p ∈ deliver marks ([] : List α) ns, p = ⟨[], marks.exhausted⟩ := by
  induction ns with
  | nil => simp [deliver]
  | cons n ns ih =>
    intro p hp
    rw [deliver, nextPart_nil, List.drop_nil] at hp
    rcases List.mem_cons.mp hp with rfl | hp
    · rfl
    · exact ih p hp

/-- A part and those around it belong to a request and those around it. -/
theorem deliver_split {rest : List α} {ns : List Nat} {before after : List (Part α μ)}
    {p : Part α μ} (h : deliver marks rest ns = before ++ p :: after) :
    ∃ ms n ks, ns = ms ++ n :: ks ∧ before = deliver marks rest ms ∧
      p = nextPart marks (rest.drop ms.sum) n ∧
      after = deliver marks (rest.drop (ms.sum + n)) ks := by
  induction before generalizing rest ns with
  | nil =>
    cases ns with
    | nil => cases h
    | cons n ns =>
      obtain ⟨hp, hafter⟩ := List.cons.inj h
      exact ⟨[], n, ns, rfl, rfl, hp.symm, by simpa using hafter.symm⟩
  | cons q before ih =>
    cases ns with
    | nil => cases h
    | cons m ns =>
      obtain ⟨hq, hrest⟩ := List.cons.inj h
      obtain ⟨ms, n, ks, rfl, rfl, rfl, rfl⟩ := ih hrest
      refine ⟨m :: ms, n, ks, rfl, by rw [deliver, hq], ?_, ?_⟩
      · rw [List.drop_drop, List.sum_cons]
      · rw [List.drop_drop, List.sum_cons, Nat.add_assoc]

/-- Until a part is marked as the last one something is left. -/
theorem unfinished_left {rest : List α} {ns : List Nat} (hsome : rest ≠ [])
    (h : Unfinished marks (deliver marks rest ns)) : rest.drop ns.sum ≠ [] := by
  induction ns generalizing rest with
  | nil => simpa using hsome
  | cons n ns ih =>
    have hfirst := h _ List.mem_cons_self
    have hlong : n < rest.length := by
      by_contra hfits
      rw [nextPart_fits hsome (Nat.not_lt.mp hfits)] at hfirst
      exact hfirst rfl
    have hdrop : rest.drop n ≠ [] := fun hnil => by
      have hlen := congrArg List.length hnil
      rw [List.length_drop, List.length_nil] at hlen
      omega
    have hrest := ih hdrop fun p hp => h p (List.mem_cons_of_mem _ hp)
    rwa [List.drop_drop] at hrest

theorem length_le_sum {ns : List Nat} (hpos : ∀ n ∈ ns, 0 < n) : ns.length ≤ ns.sum := by
  induction ns with
  | nil => exact Nat.le_refl 0
  | cons n ns ih =>
    have hn := hpos n List.mem_cons_self
    have hns := ih fun m hm => hpos m (List.mem_cons_of_mem _ hm)
    rw [List.length_cons, List.sum_cons]
    omega

/-- Whatever the requests, as long as each asks for something, the parts are a delivery. -/
theorem deliver_reassembles {obj : List α} (hsome : obj ≠ []) {ns : List Nat}
    (hpos : ∀ n ∈ ns, 0 < n) : Reassembles marks obj (deliver marks obj ns) where
  more := by
    intro before p after hsplit hbefore hmark
    obtain ⟨ms, n, ks, rfl, rfl, rfl, rfl⟩ := deliver_split hsplit
    have hn : 0 < n := hpos n (by simp)
    have hleft := unfinished_left hsome hbefore
    have hlong : n < (obj.drop ms.sum).length := by
      by_contra hfits
      rw [nextPart_fits hleft (Nat.not_lt.mp hfits)] at hmark
      exact hmark rfl
    rw [nextPart_long hlong, bodies_deliver]
    refine ⟨?_, (obj.drop ms.sum).drop n, ?_, ?_, by simp only [List.length_drop]⟩
    · intro hnil
      have hlen := congrArg List.length hnil
      rw [List.length_take, List.length_nil] at hlen
      omega
    · intro hnil
      have hlen := congrArg List.length hnil
      rw [List.length_drop, List.length_nil] at hlen
      omega
    · rw [List.append_assoc, List.take_append_drop, List.take_append_drop]
  last := by
    intro before p after hsplit hbefore hmark
    obtain ⟨ms, n, ks, rfl, rfl, rfl, rfl⟩ := deliver_split hsplit
    obtain ⟨hleft, hfits⟩ := nextPart_complete hmark
    rw [nextPart_fits hleft hfits, bodies_deliver, List.take_append_drop]
  closed := by
    intro before p after hsplit hbefore hmark _
    obtain ⟨ms, n, ks, rfl, rfl, rfl, rfl⟩ := deliver_split hsplit
    obtain ⟨_, hfits⟩ := nextPart_complete hmark
    have hdone : obj.drop (ms.sum + n) = [] := by
      rw [← List.drop_drop, List.drop_of_length_le hfits]
    rw [hdone]
    exact deliver_nil ks
  reached := by
    intro hlen
    rw [deliver_length] at hlen
    have hsum := length_le_sum hpos
    by_contra hnone
    have hunfinished : Unfinished marks (deliver marks obj ns) :=
      fun p hp hmark => hnone ⟨p, hp, hmark⟩
    exact unfinished_left hsome hunfinished (List.drop_of_length_le (by omega))

/-- The receiver has the list as soon as the requests have asked for all of it, and nothing
before. -/
theorem collect_deliver [DecidableEq μ] {obj : List α} (hsome : obj ≠ []) (ns : List Nat) :
    collect marks (deliver marks obj ns) = if obj.length ≤ ns.sum then some obj else none := by
  induction ns generalizing obj with
  | nil =>
    have hpos : ¬ obj.length ≤ [].sum := by simpa using hsome
    rw [if_neg hpos]
    rfl
  | cons n ns ih =>
    rw [deliver, List.sum_cons]
    by_cases hfits : obj.length ≤ n
    · rw [nextPart_fits hsome hfits, collect, if_pos rfl, if_pos (Nat.le_add_right_of_le hfits)]
    · have hlong : n < obj.length := Nat.not_le.mp hfits
      have hdrop : obj.drop n ≠ [] := by simpa using hlong
      rw [nextPart_long hlong, collect, if_neg (marks.more_ne _), ih hdrop, List.length_drop]
      by_cases hall : obj.length ≤ n + ns.sum
      · rw [if_pos hall, if_pos (by omega), Option.map_some, List.take_append_drop]
      · rw [if_neg hall, if_neg (by omega)]
        rfl

/-- A list handed out whole is a delivery, whatever follows it. -/
theorem whole_reassembles (obj : List α) (after : List (Part α μ)) :
    Reassembles marks obj (⟨obj, marks.complete⟩ :: after) := by
  have first : ∀ before p later, (⟨obj, marks.complete⟩ :: after : List (Part α μ)) =
      before ++ p :: later → Unfinished marks before → before = [] ∧ p = ⟨obj, marks.complete⟩ := by
    intro before p later hsplit hbefore
    cases before with
    | nil => exact ⟨rfl, (List.cons.inj hsplit).1.symm⟩
    | cons q before =>
      rw [← (List.cons.inj hsplit).1] at hbefore
      exact absurd rfl (hbefore _ List.mem_cons_self)
  constructor
  · intro before p later hsplit hbefore hmark
    obtain ⟨_, rfl⟩ := first before p later hsplit hbefore
    exact absurd rfl hmark
  · intro before p later hsplit hbefore _
    obtain ⟨rfl, rfl⟩ := first before p later hsplit hbefore
    simp [bodies]
  · intro before p later hsplit hbefore _ hsome
    exact absurd (first before p later hsplit hbefore).1 hsome
  · intro _
    exact ⟨_, List.mem_cons_self, rfl⟩

end Pieces

end PartedDelivery
