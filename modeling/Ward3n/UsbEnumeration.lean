import Ward3n.UsbDescriptors
import Mathlib.Data.List.TakeWhile

/-!
# How the driver is opened

`_ccid_open`, which TinyUSB calls with the interface descriptor when a
configuration is set. The driver goes past the class descriptors, opens up to
three endpoints, and tells TinyUSB how many bytes it took.

It is shown what it does on every chain of descriptors. TinyUSB passes the
pointer into the configuration descriptor of the device itself, but the walk does
not rely on that one.
-/

namespace UsbEnumeration

open CellMemory DescriptorChains UsbDescriptors

/-- `sizeof(tusb_desc_interface_t)` -/
def interfaceSize : Nat := 9

/-- `_ep_out`, `_ep_in` and `_ep_intr` -/
structure Endpoints where
  epOut : UInt8
  epIn : UInt8
  epIntr : UInt8
  deriving DecidableEq

/-- What `_ccid_open` returns and leaves. -/
structure Opened where
  drvLen : Nat
  eps : Endpoints
  /-- the addresses of the endpoints that were opened -/
  opened : List UInt8
  /-- a transfer to the receive buffer was queued on `_ep_out` -/
  armed : Bool
  deriving DecidableEq

/-- The loop over the class descriptors. It looks at the type before it looks at the length;
`none` is a loop that has not come to its end. -/
def skipFunctional (maxLen : Nat) : Nat → Memory UInt8 → Nat → Option (Memory UInt8 × Nat)
  | 0, _, _ => none
  | fuel + 1, pDesc, drvLen =>
    if descType pDesc = ccidDescriptorType ∧ drvLen < maxLen then
      skipFunctional maxLen fuel (descNext pDesc) ((drvLen + descLen pDesc) % 2 ^ 16)
    else some (pDesc, drvLen)

/-- The endpoint goes to its variable: bulk by direction, interrupt, or none. -/
def assign (eps : Endpoints) (address attributes : UInt8) : Endpoints :=
  if attributes &&& 0x03 = tusbXferBulk then
    if address &&& 0x80 = 0 then { eps with epOut := address } else { eps with epIn := address }
  else if attributes &&& 0x03 = tusbXferInterrupt then { eps with epIntr := address }
  else eps

/-- The state of the loop over the endpoints -/
structure Walk where
  pDesc : Memory UInt8
  drvLen : Nat
  eps : Endpoints
  opened : List UInt8

/-- The loop over the endpoints, and whether no `usbd_edpt_open` failed. -/
def openEndpoints (edptOpen : List UInt8 → List UInt8 → Bool) (maxLen : Nat) :
    Nat → Walk → Walk × Bool
  | 0, w => (w, true)
  | n + 1, w =>
    if w.drvLen < maxLen then
      if descType w.pDesc ≠ tusbDescEndpoint then (w, true)
      else if edptOpen w.opened (read w.pDesc 7) = false then (w, false)
      else
        openEndpoints edptOpen maxLen n
          { pDesc := descNext w.pDesc
            drvLen := (w.drvLen + descLen w.pDesc) % 2 ^ 16
            eps := assign w.eps (w.pDesc 2) (w.pDesc 3)
            opened := w.opened ++ [w.pDesc 2] }
    else (w, true)

/-- `_ccid_open`. The parameter `edptOpen` is the answer of `usbd_edpt_open` to an endpoint
descriptor, once it has opened the endpoints with these addresses; `eps` are the endpoints as
they were. -/
def ccidOpen (edptOpen : List UInt8 → List UInt8 → Bool) (eps : Endpoints) (itfDesc : Memory UInt8)
    (maxLen fuel : Nat) : Option Opened :=
  if itfDesc 5 ≠ tusbClassSmartCard then
    some { drvLen := 0, eps := eps, opened := [], armed := false }
  else
    match skipFunctional maxLen fuel (descNext itfDesc) interfaceSize with
    | none => none
    | some (pDesc, drvLen) =>
      let (w, ok) := openEndpoints edptOpen maxLen 3
        { pDesc := pDesc, drvLen := drvLen, eps := ⟨0, 0, 0⟩, opened := [] }
      if ok = false ∨ w.eps.epOut = 0 ∨ w.eps.epIn = 0 then
        some { drvLen := 0, eps := w.eps, opened := w.opened, armed := false }
      else some { drvLen := w.drvLen, eps := w.eps, opened := w.opened, armed := true }

section Chains

def isFunctional (d : Descriptor) : Bool := d.kind == ccidDescriptorType

def isEndpoint (d : Descriptor) : Bool := d.kind == tusbDescEndpoint

def Descriptor.address (d : Descriptor) : UInt8 := d.body.headD 0

def Descriptor.attributes (d : Descriptor) : UInt8 := d.body.tail.headD 0

/-- An endpoint descriptor has seven bytes, and is not for the control endpoint. -/
def WellFormed (ds : List Descriptor) : Prop :=
  ∀ d ∈ ds, d.kind = tusbDescEndpoint → d.body.length = 5 ∧ Descriptor.address d ≠ 0

/-- The endpoints of an interface that the driver looks at: up to three, right behind the
class descriptors. -/
def endpointsOf (ds : List Descriptor) : List Descriptor :=
  ((ds.dropWhile isFunctional).take 3).takeWhile isEndpoint

/-- The endpoint variables once these endpoints were opened, in order -/
def assigned (es : List Descriptor) : Endpoints :=
  es.foldl (fun eps e => assign eps (Descriptor.address e) (Descriptor.attributes e)) ⟨0, 0, 0⟩

variable {edptOpen : List UInt8 → List UInt8 → Bool} {maxLen : Nat}

/-- The loop over the class descriptors stops behind the last of them. -/
theorem skipFunctional_chain (hmax : maxLen < 2 ^ 16) {ds : List Descriptor} {p : Memory UInt8}
    {drvLen fuel : Nat} (hpoints : Points p ds) (hlen : drvLen + chainLength ds = maxLen)
    (hfuel : ds.length < fuel) :
    ∃ q, skipFunctional maxLen fuel p drvLen =
        some (q, drvLen + chainLength (ds.takeWhile isFunctional)) ∧
      Points q (ds.dropWhile isFunctional) := by
  induction ds generalizing p drvLen fuel with
  | nil =>
    obtain ⟨fuel, rfl⟩ := Nat.exists_eq_add_of_lt hfuel
    rw [chainLength_nil] at hlen
    refine ⟨p, ?_, hpoints⟩
    rw [skipFunctional, if_neg (by omega)]
    rfl
  | cons d ds ih =>
    obtain ⟨fuel, rfl⟩ := Nat.exists_eq_add_one_of_ne_zero (Nat.ne_zero_of_lt hfuel)
    have hpos := d.length_pos
    have hmore : ds.length < fuel := Nat.lt_of_succ_lt_succ hfuel
    rw [chainLength_cons] at hlen
    rw [skipFunctional, hpoints.kind, hpoints.len]
    by_cases hkind : d.kind = ccidDescriptorType
    · have hskipped : isFunctional d = true := beq_iff_eq.mpr hkind
      have hsum : (drvLen + d.length) % 2 ^ 16 = drvLen + d.length :=
        Nat.mod_eq_of_lt (by omega)
      rw [if_pos ⟨hkind, by omega⟩, hsum, List.takeWhile_cons_of_pos hskipped,
        List.dropWhile_cons_of_pos hskipped, chainLength_cons, ← Nat.add_assoc]
      exact ih hpoints.next (by omega) hmore
    · have hstop : ¬ isFunctional d = true := fun h => hkind (beq_iff_eq.mp h)
      rw [if_neg (fun h => hkind h.1), List.takeWhile_cons_of_neg hstop,
        List.dropWhile_cons_of_neg hstop]
      exact ⟨p, rfl, hpoints⟩

/-- The two bytes of an endpoint descriptor that the driver looks at -/
theorem endpoint_cells {d : Descriptor} {ds : List Descriptor} {p : Memory UInt8}
    (hpoints : Points p (d :: ds)) (hbody : d.body.length = 5) :
    p 2 = Descriptor.address d ∧ p 3 = Descriptor.attributes d := by
  obtain ⟨kind, body, fits⟩ := d
  obtain ⟨a, b, rest, rfl⟩ : ∃ a b rest, body = a :: b :: rest := by
    rcases body with _ | ⟨a, _ | ⟨b, rest⟩⟩
    · simp at hbody
    · simp at hbody
    · exact ⟨a, b, rest, rfl⟩
  exact ⟨hpoints.cell (i := 0) rfl, hpoints.cell (i := 1) rfl⟩

/-- The endpoints that are opened behind those: the ones in front of the first that fails -/
def openedOf (edptOpen : List UInt8 → List UInt8 → Bool) :
    List UInt8 → List Descriptor → List Descriptor
  | _, [] => []
  | opened, e :: es =>
    if edptOpen opened e.bytes then
      e :: openedOf edptOpen (opened ++ [Descriptor.address e]) es
    else []

theorem openedOf_opens {opened : List UInt8} {e : Descriptor}
    (hopens : edptOpen opened e.bytes = true) (es : List Descriptor) :
    openedOf edptOpen opened (e :: es) =
      e :: openedOf edptOpen (opened ++ [Descriptor.address e]) es := if_pos hopens

theorem openedOf_fails {opened : List UInt8} {e : Descriptor}
    (hfails : ¬ edptOpen opened e.bytes = true) (es : List Descriptor) :
    openedOf edptOpen opened (e :: es) = [] := if_neg hfails

theorem openedOf_front (opened : List UInt8) (es : List Descriptor) :
    openedOf edptOpen opened es <+: es := by
  induction es generalizing opened with
  | nil => exact List.prefix_rfl
  | cons e es ih =>
    by_cases hopens : edptOpen opened e.bytes = true
    · rw [openedOf_opens hopens]
      exact List.cons_prefix_cons.mpr ⟨rfl, ih _⟩
    · rw [openedOf_fails hopens]
      exact List.nil_prefix

/-- Nothing fails exactly if each endpoint can be opened behind those in front of it. -/
theorem openedOf_all {opened : List UInt8} {es : List Descriptor} :
    openedOf edptOpen opened es = es ↔ ∀ before e after, es = before ++ e :: after →
      edptOpen (opened ++ before.map Descriptor.address) e.bytes = true := by
  induction es generalizing opened with
  | nil => simp [openedOf]
  | cons e es ih =>
    constructor
    · intro hall before x after hsplit
      by_cases hopens : edptOpen opened e.bytes = true
      · rw [openedOf_opens hopens] at hall
        have hrest := ih.mp (List.cons.inj hall).2
        cases before with
        | nil =>
          obtain ⟨rfl, rfl⟩ := List.cons.inj hsplit
          rw [List.map_nil, List.append_nil]
          exact hopens
        | cons y before =>
          obtain ⟨rfl, hlater⟩ := List.cons.inj hsplit
          have hx := hrest before x after hlater
          rwa [List.append_assoc] at hx
      · rw [openedOf_fails hopens] at hall
        cases hall
    · intro hall
      have hfirst := hall [] e es rfl
      rw [List.map_nil, List.append_nil] at hfirst
      rw [openedOf_opens hfirst]
      congr 1
      refine ih.mpr fun before x after hsplit => ?_
      have hx := hall (e :: before) x after (congrArg (e :: ·) hsplit)
      rwa [List.append_assoc]

/-- The walk once these endpoints were opened -/
def Walk.past (w : Walk) (os : List Descriptor) (q : Memory UInt8) : Walk where
  pDesc := q
  drvLen := w.drvLen + chainLength os
  eps := os.foldl (fun eps e => assign eps (Descriptor.address e) (Descriptor.attributes e)) w.eps
  opened := w.opened ++ os.map Descriptor.address

theorem Walk.past_nil (w : Walk) : w.past [] w.pDesc = w := by
  simp [Walk.past]

theorem Walk.past_cons (w : Walk) (e : Descriptor) (os : List Descriptor) (p q : Memory UInt8) :
    Walk.past { pDesc := p, drvLen := w.drvLen + e.length
                eps := assign w.eps (Descriptor.address e) (Descriptor.attributes e)
                opened := w.opened ++ [Descriptor.address e] } os q = w.past (e :: os) q := by
  simp [Walk.past, chainLength_cons, Nat.add_assoc]

/-- The loop opens the endpoints right in front of it, up to the first that fails. -/
theorem openEndpoints_chain (hmax : maxLen < 2 ^ 16) {ds : List Descriptor} {n : Nat} {w : Walk}
    (hpoints : Points w.pDesc ds) (hlen : w.drvLen + chainLength ds = maxLen)
    (hformed : WellFormed ds) :
    ∃ q, openEndpoints edptOpen maxLen n w =
      (w.past (openedOf edptOpen w.opened ((ds.take n).takeWhile isEndpoint)) q,
        (openedOf edptOpen w.opened ((ds.take n).takeWhile isEndpoint)).length ==
          ((ds.take n).takeWhile isEndpoint).length) := by
  induction n generalizing ds w with
  | zero => exact ⟨w.pDesc, congrArg (·, true) w.past_nil.symm⟩
  | succ n ih =>
    cases ds with
    | nil =>
      rw [chainLength_nil] at hlen
      rw [openEndpoints, if_neg (by omega)]
      exact ⟨w.pDesc, congrArg (·, true) w.past_nil.symm⟩
    | cons d ds =>
      have hpos := d.length_pos
      rw [chainLength_cons] at hlen
      rw [openEndpoints, if_pos (by omega), hpoints.kind, List.take_succ_cons]
      by_cases hkind : d.kind = tusbDescEndpoint
      swap
      · have hstop : ¬ isEndpoint d = true := fun h => hkind (beq_iff_eq.mp h)
        rw [if_pos hkind, List.takeWhile_cons_of_neg hstop]
        exact ⟨w.pDesc, congrArg (·, true) w.past_nil.symm⟩
      have hmore : isEndpoint d = true := beq_iff_eq.mpr hkind
      have hbody := (hformed d List.mem_cons_self hkind).1
      have hseven : d.length = 7 := congrArg (· + 2) hbody
      have hread : read w.pDesc 7 = d.bytes := by
        rw [← hseven]
        exact hpoints.first
      rw [if_neg (not_not.mpr hkind), List.takeWhile_cons_of_pos hmore, hread]
      by_cases hopens : edptOpen w.opened d.bytes = true
      · obtain ⟨haddress, hattributes⟩ := endpoint_cells hpoints hbody
        have hsum : (w.drvLen + d.length) % 2 ^ 16 = w.drvLen + d.length :=
          Nat.mod_eq_of_lt (by omega)
        rw [if_neg (ne_false_of_eq_true hopens), hpoints.len, hsum, haddress, hattributes,
          openedOf_opens hopens]
        obtain ⟨q, hrest⟩ := ih
          (w := ⟨descNext w.pDesc, w.drvLen + d.length,
            assign w.eps (Descriptor.address d) (Descriptor.attributes d),
            w.opened ++ [Descriptor.address d]⟩)
          hpoints.next (by simp only; omega) (fun e he => hformed e (List.mem_cons_of_mem d he))
        rw [Walk.past_cons] at hrest
        refine ⟨q, hrest.trans ?_⟩
        simp
      · rw [if_pos (by simpa using hopens), openedOf_fails hopens]
        exact ⟨w.pDesc, congrArg (·, false) w.past_nil.symm⟩

/-- What `_ccid_open` makes of an interface descriptor and the descriptors behind it. -/
def openSpec (edptOpen : List UInt8 → List UInt8 → Bool) (eps : Endpoints) (d : Descriptor)
    (ds : List Descriptor) : Opened :=
  if d.body[3]? ≠ some tusbClassSmartCard then
    { drvLen := 0, eps := eps, opened := [], armed := false }
  else
    let es := endpointsOf ds
    let os := openedOf edptOpen [] es
    let opens := os.length == es.length && (assigned os).epOut != 0 && (assigned os).epIn != 0
    { drvLen := if opens then chainLength (d :: (ds.takeWhile isFunctional ++ es)) else 0
      eps := assigned os
      opened := os.map Descriptor.address
      armed := opens }

theorem ccidOpen_chain {d : Descriptor} {ds : List Descriptor} {itfDesc : Memory UInt8}
    (eps : Endpoints) (hpoints : Points itfDesc (d :: ds)) (hsize : d.length = interfaceSize)
    (hmax : chainLength (d :: ds) < 2 ^ 16) (hformed : WellFormed ds) {fuel : Nat}
    (hfuel : ds.length < fuel) :
    ccidOpen edptOpen eps itfDesc (chainLength (d :: ds)) fuel =
      some (openSpec edptOpen eps d ds) := by
  have hbody : d.body.length = 7 := Nat.add_right_cancel hsize
  obtain ⟨b, hb⟩ : ∃ b, d.body[3]? = some b :=
    ⟨d.body[3], List.getElem?_eq_getElem (by omega)⟩
  have hclass : itfDesc 5 = b := hpoints.cell hb
  by_cases hother : b = tusbClassSmartCard
  swap
  · rw [ccidOpen, openSpec, hclass, hb, if_pos hother, if_pos (by simpa using hother)]
  have htotal : interfaceSize + chainLength ds = chainLength (d :: ds) := by
    rw [chainLength_cons, hsize]
  obtain ⟨q, hskip, hq⟩ := skipFunctional_chain hmax hpoints.next htotal hfuel
  have hsplit : chainLength (ds.takeWhile isFunctional) + chainLength (ds.dropWhile isFunctional) =
      chainLength ds := by
    rw [← chainLength_append, List.takeWhile_append_dropWhile]
  have hrest : WellFormed (ds.dropWhile isFunctional) :=
    fun e he => hformed e ((List.dropWhile_suffix _).subset he)
  obtain ⟨q', hopen⟩ : ∃ q', openEndpoints edptOpen (chainLength (d :: ds)) 3
      ⟨q, interfaceSize + chainLength (ds.takeWhile isFunctional), ⟨0, 0, 0⟩, []⟩ =
        (⟨q', interfaceSize + chainLength (ds.takeWhile isFunctional) +
          chainLength (openedOf edptOpen [] (endpointsOf ds)),
          assigned (openedOf edptOpen [] (endpointsOf ds)),
          (openedOf edptOpen [] (endpointsOf ds)).map Descriptor.address⟩,
          (openedOf edptOpen [] (endpointsOf ds)).length == (endpointsOf ds).length) :=
    openEndpoints_chain hmax hq (by rw [Nat.add_assoc, hsplit, htotal]) hrest
  rw [ccidOpen, openSpec, hclass, hb, if_neg (not_not.mpr hother), if_neg (by simpa using hother),
    hskip]
  simp only [hopen]
  have hfront : openedOf edptOpen [] (endpointsOf ds) <+: endpointsOf ds := openedOf_front [] _
  generalize endpointsOf ds = es at hfront
  generalize openedOf edptOpen [] es = os at hfront
  by_cases hopens : os.length = es.length
  · have hlength : interfaceSize + chainLength (ds.takeWhile isFunctional) + chainLength es =
        chainLength (d :: (ds.takeWhile isFunctional ++ es)) := by
      rw [chainLength_cons, chainLength_append, hsize, Nat.add_assoc]
    rw [hfront.eq_of_length hopens, hlength]
    by_cases hout : (assigned es).epOut = 0
    · simp [hout]
    · by_cases hin : (assigned es).epIn = 0
      · simp [hin]
      · simp [hout, hin]
  · simp [hopens]

/-- A bulk endpoint of this direction -/
def Bulk (out : Bool) (d : Descriptor) : Prop :=
  Descriptor.attributes d &&& 0x03 = tusbXferBulk ∧
    (Descriptor.address d &&& 0x80 == 0) = out

/-- The variable for a bulk endpoint of this direction -/
def Endpoints.bulk (eps : Endpoints) (out : Bool) : UInt8 := if out then eps.epOut else eps.epIn

theorem assign_bulk {out : Bool} {d : Descriptor} (eps : Endpoints) (h : Bulk out d) :
    (assign eps (Descriptor.address d) (Descriptor.attributes d)).bulk out =
      Descriptor.address d := by
  obtain ⟨hbulk, hdirection⟩ := h
  rw [assign, if_pos hbulk]
  cases out with
  | true => rw [if_pos (beq_iff_eq.mp hdirection)]; rfl
  | false => rw [if_neg (beq_eq_false_iff_ne.mp hdirection)]; rfl

theorem assign_other {out : Bool} {d : Descriptor} (eps : Endpoints) (h : ¬ Bulk out d) :
    (assign eps (Descriptor.address d) (Descriptor.attributes d)).bulk out = eps.bulk out := by
  rw [assign]
  by_cases hbulk : Descriptor.attributes d &&& 0x03 = tusbXferBulk
  · rw [if_pos hbulk]
    have hdirection : (Descriptor.address d &&& 0x80 == 0) ≠ out := fun hd => h ⟨hbulk, hd⟩
    by_cases hzero : Descriptor.address d &&& 0x80 = 0
    · rw [if_pos hzero]
      cases out with
      | true => exact absurd (beq_iff_eq.mpr hzero) hdirection
      | false => rfl
    · rw [if_neg hzero]
      cases out with
      | true => rfl
      | false => exact absurd (beq_eq_false_iff_ne.mpr hzero) hdirection
  · rw [if_neg hbulk]
    split <;> rfl

/-- The last bulk endpoint of a direction is the one that is used. -/
theorem foldl_bulk (out : Bool) (es : List Descriptor) (eps : Endpoints) :
    (∃ e ∈ es, Bulk out e ∧
      (es.foldl (fun eps e => assign eps (Descriptor.address e) (Descriptor.attributes e))
        eps).bulk out = Descriptor.address e) ∨
    (∀ e ∈ es, ¬ Bulk out e) ∧
      (es.foldl (fun eps e => assign eps (Descriptor.address e) (Descriptor.attributes e))
        eps).bulk out = eps.bulk out := by
  induction es using List.reverseRecOn with
  | nil => exact Or.inr ⟨nofun, rfl⟩
  | append_singleton es e ih =>
    rw [List.foldl_append, List.foldl_cons, List.foldl_nil]
    by_cases hbulk : Bulk out e
    · exact Or.inl ⟨e, by simp, hbulk, assign_bulk _ hbulk⟩
    · rw [assign_other _ hbulk]
      rcases ih with ⟨e', he', hbulk', heq⟩ | ⟨hnone, heq⟩
      · exact Or.inl ⟨e', by simp [he'], hbulk', heq⟩
      · refine Or.inr ⟨fun x hx => ?_, heq⟩
        rcases List.mem_append.mp hx with hx | hx
        · exact hnone x hx
        · rwa [List.mem_singleton.mp hx]

/-- What TinyUSB is told, and what the driver goes on with, when the interface is accepted. -/
structure Claims (d : Descriptor) (ds : List Descriptor) (o : Opened) : Prop where
  whole : o.drvLen = chainLength (d :: (ds.takeWhile isFunctional ++ endpointsOf ds))
  opened : o.opened = (endpointsOf ds).map Descriptor.address
  out : ∃ e ∈ endpointsOf ds, Bulk true e ∧ o.eps.epOut = Descriptor.address e
  inn : ∃ e ∈ endpointsOf ds, Bulk false e ∧ o.eps.epIn = Descriptor.address e

theorem endpointsOf_wellFormed {ds : List Descriptor} (hformed : WellFormed ds) :
    ∀ e ∈ endpointsOf ds, Descriptor.address e ≠ 0 := by
  intro e he
  have hpass : isEndpoint e = true := List.mem_takeWhile_imp he
  have hkind : e.kind = tusbDescEndpoint := beq_iff_eq.mp hpass
  have hin : e ∈ ds := (List.dropWhile_suffix _).subset
    ((List.take_prefix _ _).subset ((List.takeWhile_prefix _).subset he))
  exact (hformed e hin hkind).2

/-- An endpoint variable is set exactly if there is an endpoint for it. -/
theorem assigned_bulk (out : Bool) {es : List Descriptor}
    (hformed : ∀ e ∈ es, Descriptor.address e ≠ 0) :
    ((assigned es).bulk out ≠ 0 ↔ ∃ e ∈ es, Bulk out e) ∧
      ((∃ e ∈ es, Bulk out e) →
        ∃ e ∈ es, Bulk out e ∧ (assigned es).bulk out = Descriptor.address e) := by
  rcases foldl_bulk out es ⟨0, 0, 0⟩ with ⟨e, he, hbulk, heq⟩ | ⟨hnone, heq⟩
  · rw [← assigned] at heq
    rw [heq]
    exact ⟨iff_of_true (hformed e he) ⟨e, he, hbulk⟩, fun _ => ⟨e, he, hbulk, rfl⟩⟩
  · rw [← assigned] at heq
    have hzero : (assigned es).bulk out = 0 := heq.trans (by cases out <;> rfl)
    have hno : ¬ ∃ e ∈ es, Bulk out e := fun ⟨e, he, hbulk⟩ => hnone e he hbulk
    rw [hzero]
    exact ⟨iff_of_false (not_not.mpr rfl) hno, fun h => absurd h hno⟩

/-- The endpoints all open, one behind the other, and there is one for each direction. -/
def Opens (edptOpen : List UInt8 → List UInt8 → Bool) (ds : List Descriptor) : Prop :=
  (∀ before e after, endpointsOf ds = before ++ e :: after →
    edptOpen (before.map Descriptor.address) e.bytes = true) ∧
    (∃ e ∈ endpointsOf ds, Bulk true e) ∧ ∃ e ∈ endpointsOf ds, Bulk false e

section Accepting

variable {d : Descriptor} {ds : List Descriptor} {eps : Endpoints}

theorem opens_all : openedOf edptOpen [] (endpointsOf ds) = endpointsOf ds ↔
    ∀ before e after, endpointsOf ds = before ++ e :: after →
      edptOpen (before.map Descriptor.address) e.bytes = true := openedOf_all

theorem openSpec_armed (hformed : WellFormed ds) :
    (openSpec edptOpen eps d ds).armed = true ↔
      d.body[3]? = some tusbClassSmartCard ∧ Opens edptOpen ds := by
  by_cases hclass : d.body[3]? = some tusbClassSmartCard
  swap
  · rw [openSpec, if_pos hclass]
    exact iff_of_false Bool.false_ne_true fun h => hclass h.1
  have haddress := endpointsOf_wellFormed hformed
  rw [openSpec, if_neg (not_not.mpr hclass)]
  simp only [Bool.and_eq_true, bne_iff_ne, beq_iff_eq]
  constructor
  · rintro ⟨⟨hlength, hout⟩, hin⟩
    have hall := (openedOf_front [] (endpointsOf ds)).eq_of_length hlength
    rw [hall] at hout hin
    exact ⟨hclass, opens_all.mp hall, (assigned_bulk true haddress).1.mp hout,
      (assigned_bulk false haddress).1.mp hin⟩
  · rintro ⟨_, hopens, hout, hin⟩
    rw [opens_all.mpr hopens]
    exact ⟨⟨rfl, (assigned_bulk true haddress).1.mpr hout⟩,
      (assigned_bulk false haddress).1.mpr hin⟩

theorem openSpec_claims (hformed : WellFormed ds)
    (harmed : (openSpec edptOpen eps d ds).armed = true) :
    Claims d ds (openSpec edptOpen eps d ds) := by
  obtain ⟨hclass, hopens, hout, hin⟩ := (openSpec_armed hformed).mp harmed
  have haddress := endpointsOf_wellFormed hformed
  have houtIs := (assigned_bulk true haddress).2 hout
  have hinIs := (assigned_bulk false haddress).2 hin
  rw [openSpec, if_neg (not_not.mpr hclass)] at harmed ⊢
  simp only [opens_all.mpr hopens] at harmed ⊢
  exact ⟨if_pos harmed, rfl, houtIs, hinIs⟩

theorem openSpec_refuses (hrefused : (openSpec edptOpen eps d ds).armed = false) :
    (openSpec edptOpen eps d ds).drvLen = 0 := by
  by_cases hclass : d.body[3]? = some tusbClassSmartCard
  · rw [openSpec, if_neg (not_not.mpr hclass)] at hrefused ⊢
    simp only at hrefused
    simp only [hrefused]
    rfl
  · rw [openSpec, if_pos hclass]

/-- On every chain of descriptors the driver comes to an end, and accepts the interface exactly
if it is a smart card interface, its endpoints can be opened, and one of them is bulk OUT and
one bulk IN. It then claims the interface, its class descriptors and the endpoints, byte for
byte, and goes on with a bulk OUT and a bulk IN endpoint out of those it opened. -/
theorem driver_claims {itfDesc : Memory UInt8} (eps : Endpoints)
    (hpoints : Points itfDesc (d :: ds)) (hsize : d.length = interfaceSize)
    (hmax : chainLength (d :: ds) < 2 ^ 16) (hformed : WellFormed ds) {fuel : Nat}
    (hfuel : ds.length < fuel) :
    ∃ o, ccidOpen edptOpen eps itfDesc (chainLength (d :: ds)) fuel = some o ∧
      (o.armed = true ↔ d.body[3]? = some tusbClassSmartCard ∧ Opens edptOpen ds) ∧
      (o.armed = true → Claims d ds o) ∧ (o.armed = false → o.drvLen = 0) := by
  refine ⟨_, ccidOpen_chain eps hpoints hsize hmax hformed hfuel, ?_⟩
  exact ⟨openSpec_armed hformed, openSpec_claims hformed, openSpec_refuses⟩

end Accepting

/-- The configuration descriptor of the device, in memory -/
def configurationMemory : Memory UInt8 := write (fun _ => 0) 0 descConfiguration

theorem interface_points :
    Points (descNext configurationMemory) (interfaceDescriptor :: behindInterface) := by
  have hall : Points configurationMemory
      (configurationDescriptor :: interfaceDescriptor :: behindInterface) := by
    rw [configurationMemory, ← descConfiguration_chain]
    exact points_write _ _
  exact hall.next

theorem behindInterface_wellFormed : WellFormed behindInterface := by
  unfold WellFormed
  decide

/-- On its own interface the driver claims the 84 bytes to the end of the configuration. -/
theorem driver_claims_own :
    ∃ o, ccidOpen (fun _ _ => true) ⟨0, 0, 0⟩ (descNext configurationMemory)
        (chainLength (interfaceDescriptor :: behindInterface)) 5 = some o ∧
      (o.armed = true ↔ interfaceDescriptor.body[3]? = some tusbClassSmartCard ∧
        Opens (fun _ _ => true) behindInterface) ∧
      (o.armed = true → Claims interfaceDescriptor behindInterface o) ∧
      (o.armed = false → o.drvLen = 0) :=
  driver_claims ⟨0, 0, 0⟩ interface_points (by decide) (by decide) behindInterface_wellFormed
    (by decide)

end Chains

end UsbEnumeration
