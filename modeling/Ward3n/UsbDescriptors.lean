import Ward3n.DescriptorChains
import Ward3n.MachineWords

/-!
# What the device says about itself

The configuration descriptor of `usb_descriptors.c`: the configuration, its one
interface, the CCID class descriptor and three endpoints.
-/

namespace UsbDescriptors

open CellMemory MachineWords DescriptorChains

def tusbClassSmartCard : UInt8 := 0x0B
def tusbDescConfiguration : UInt8 := 0x02
def tusbDescInterface : UInt8 := 0x04
def tusbDescEndpoint : UInt8 := 0x05
def tusbDescConfigAttRemoteWakeup : UInt8 := 0x20
def tusbXferBulk : UInt8 := 0x02
def tusbXferInterrupt : UInt8 := 0x03
def ccidDescriptorType : UInt8 := 0x21
def ccidEpBulkOut : UInt8 := 0x01
def ccidEpBulkIn : UInt8 := 0x81
def ccidEpIntrIn : UInt8 := 0x82
def ccidEpBulkSize : Nat := 64
def ccidEpIntrSize : Nat := 8
def ccidFuncDescLen : Nat := 54
def configTotalLen : Nat := 9 + 9 + ccidFuncDescLen + 7 + 7 + 7

/-- `desc_configuration` -/
def descConfiguration : List UInt8 :=
  -- the configuration
  [9, tusbDescConfiguration] ++ toBytes 2 configTotalLen ++
  [1, 1, 0, tusbDescConfigAttRemoteWakeup ||| 0x80, 50] ++
  -- the interface
  [9, tusbDescInterface, 0, 0, 3, 0x0B, 0x00, 0x00, 0] ++
  -- the CCID class descriptor, with dwMaxCCIDMessageLength behind dwFeatures
  [UInt8.ofNat ccidFuncDescLen, ccidDescriptorType] ++ toBytes 2 0x0110 ++ [0x00, 0x07] ++
  toBytes 4 0x00000003 ++ toBytes 4 0x00000DFC ++ toBytes 4 0x00000DFC ++ [0x00] ++
  toBytes 4 0x000025CD ++ toBytes 4 0x000025CD ++ [0x00] ++ toBytes 4 0x000000FE ++
  toBytes 4 0x00000000 ++ toBytes 4 0x00000000 ++ toBytes 4 0x00040000 ++ toBytes 4 0x0000010F ++
  [0xFF, 0xFF] ++ toBytes 2 0x0000 ++ [0x00, 0x01] ++
  -- the endpoints
  [7, tusbDescEndpoint, ccidEpBulkOut, tusbXferBulk] ++ toBytes 2 ccidEpBulkSize ++ [0] ++
  [7, tusbDescEndpoint, ccidEpBulkIn, tusbXferBulk] ++ toBytes 2 ccidEpBulkSize ++ [0] ++
  [7, tusbDescEndpoint, ccidEpIntrIn, tusbXferInterrupt] ++ toBytes 2 ccidEpIntrSize ++ [16]

/-- The descriptor that begins here -/
def descriptorAt (bytes : List UInt8) (kind : UInt8) (size : Nat)
    (fits : (bytes.take size).tail.tail.length + 2 < 256) : Descriptor :=
  { kind := kind, body := (bytes.take size).tail.tail, fits := fits }

def configurationDescriptor : Descriptor :=
  descriptorAt descConfiguration tusbDescConfiguration 9 (by decide)

def interfaceDescriptor : Descriptor :=
  descriptorAt (descConfiguration.drop 9) tusbDescInterface 9 (by decide)

def ccidDescriptor : Descriptor :=
  descriptorAt (descConfiguration.drop 18) ccidDescriptorType ccidFuncDescLen (by decide)

def bulkOutDescriptor : Descriptor :=
  descriptorAt (descConfiguration.drop 72) tusbDescEndpoint 7 (by decide)

def bulkInDescriptor : Descriptor :=
  descriptorAt (descConfiguration.drop 79) tusbDescEndpoint 7 (by decide)

def intrInDescriptor : Descriptor :=
  descriptorAt (descConfiguration.drop 86) tusbDescEndpoint 7 (by decide)

/-- What stands behind the interface descriptor. -/
def behindInterface : List Descriptor :=
  [ccidDescriptor, bulkOutDescriptor, bulkInDescriptor, intrInDescriptor]

/-- The bytes are a chain of whole descriptors, each as long as it says. -/
theorem descConfiguration_chain :
    chainBytes (configurationDescriptor :: interfaceDescriptor :: behindInterface) =
      descConfiguration := by
  decide

/-- `dwMaxCCIDMessageLength`, as the host reads it out of the class descriptor -/
def dwMaxCcidMessageLength : Nat := ofBytes ((ccidDescriptor.body.drop 42).take 4)

end UsbDescriptors
