import Ward3n.AuthorizationWindow
import Ward3n.ReaderRefinement

/-!
# What a session leaves to the next

IccPowerOn begins a session. Whatever was done to the device before, by whatever
host, the session shows what it would show on a device that was just switched
on. Only the authorization and the button are older than the session: they
belong to the person who holds the device.
-/

namespace SessionIsolation

open CryptoBackend DeviceState PivApplet CcidDriver Firmware TracedRuns StepSimulation
  ReaderSpecification TokenRefinement ReaderRefinement AuthorizationWindow
open SessionGate (pressedRun)

/-- A device just switched on, with the authorization and the button of another -/
def fresh (s : State) : State :=
  { boot with button := s.button, card := { boot.card with dev := s.card.dev } }

/-- A session: power on, and what happens then. -/
def session (seq : UInt8) (amb : Ambient) (hs : List Happening) : List Happening :=
  .message ⟨seq, .iccPowerOn⟩ amb :: hs

/-- What the host and the key see of a device from here on. -/
def sights (k : Backend) (s : State) (hs : List Happening) : List Sight :=
  (trace (step k) s (hs.map Happening.event)).filterMap sight

/-- The reader a device in this phase models -/
def readerOf (s : State) (p : Phase) : Reader :=
  { powered := s.ccid.iccPowered
    button := s.button
    token :=
      { selected := s.card.piv.selected
        verified := s.card.piv.pinVerified
        rest := ChainedResponses.pending s.card.piv
        phase := p } }

section Sessions

variable {k : Backend} {s : State} {p : Phase} {hs : List Happening}

theorem models_readerOf (hphase : InPhase s.card.dev p) : Models s (readerOf s p) :=
  ⟨rfl, rfl, rfl, rfl, rfl, hphase⟩

/-- Every state a run can reach is a state of the reader. -/
theorem run_phase (k : Backend) (es : List Event) : ∃ p, InPhase (run k es).card.dev p := by
  obtain ⟨p, hphase, _⟩ := window_run k es
  exact ⟨p, hphase⟩

theorem sights_readerOf (hphase : InPhase s.card.dev p) (hwhole : ∀ h ∈ hs, h.Whole) :
    sights k s hs =
      trace (Reader.step (objects k)) (readerOf s p) (hs.flatMap (occurrences k)) :=
  trace_sights k (models_readerOf hphase) hwhole

theorem session_whole (seq : UInt8) (amb : Ambient) (hwhole : ∀ h ∈ hs, h.Whole) :
    ∀ h ∈ session seq amb hs, h.Whole := by
  intro h hmem
  rcases List.mem_cons.mp hmem with rfl | hmem
  · rintro c ⟨⟩
  · exact hwhole h hmem

/-- A power-on makes readers equal that share the button and the phase. -/
theorem powerOn_forgets (s : State) (p : Phase) (seq : UInt8) (now : Nat)
    (sign : List UInt8 → List UInt8) (object : List UInt8 → Option (List UInt8)) :
    (readerOf s p).step object (.message ⟨seq, .iccPowerOn⟩ now sign) =
      (readerOf (fresh s) p).step object (.message ⟨seq, .iccPowerOn⟩ now sign) := rfl

end Sessions

end SessionIsolation
