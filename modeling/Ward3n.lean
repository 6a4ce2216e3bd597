import Ward3n.CellMemory
import Ward3n.MachineWords
import Ward3n.TracedRuns
import Ward3n.PartedDelivery
import Ward3n.BerTlv
import Ward3n.CheckedAccess
import Ward3n.ApduCodec
import Ward3n.ShortApdus
import Ward3n.DeviceState
import Ward3n.UserButton
import Ward3n.CryptoBackend
import Ward3n.FlashPersistence
import Ward3n.KeyStoreBoots
import Ward3n.PivApplet
import Ward3n.CcidDriver
import Ward3n.Firmware
import Ward3n.AppletEffects
import Ward3n.AuthenticationTemplate
import Ward3n.FirmwareSteps
import Ward3n.SessionGate
import Ward3n.AuthorizationWindow
import Ward3n.PressRetention
import Ward3n.PressAccounting
import Ward3n.TransmitBuffer
import Ward3n.MessageFraming
import Ward3n.InputConfinement
import Ward3n.ResponseDelivery
import Ward3n.ChainedResponses
import Ward3n.ChainOwnership
import Ward3n.CertificateObject
import Ward3n.AppletFrame
import Ward3n.SlotStatus
import Ward3n.PressOrder
import Ward3n.PressDebounce
import Ward3n.StepSimulation
import Ward3n.FairProgress
import Ward3n.ReaderSpecification
import Ward3n.TokenRefinement
import Ward3n.ReaderRefinement
import Ward3n.DescriptorChains
import Ward3n.UsbDescriptors
import Ward3n.ResponseLengths
import Ward3n.BufferConfinement
import Ward3n.SessionIsolation
import Ward3n.PatientHost
import Ward3n.PioProgram
import Ward3n.PixelWire
import Ward3n.PixelTiming
import Ward3n.PixelLatch
import Ward3n.StatusLight
import Ward3n.SignalOnWire
import Ward3n.HostSessions
import Ward3n.SigningSession
import Ward3n.DeviceLife
import Ward3n.SignatureTraces
import Ward3n.KeyConcealment
import Ward3n.CallProtocols
import Ward3n.KeyStoreCalls
import Ward3n.UsbEnumeration
import Ward3n.UsbListening
import Ward3n.PollInterleaving
