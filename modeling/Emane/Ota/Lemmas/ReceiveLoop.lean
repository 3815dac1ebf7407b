import Emane.Lib.Machine
import Emane.Ota.Lemmas.Bounds

/-!
This module contains the messages that the loop over received messages gets over.
-/

namespace Emane

namespace ControlMessageSerializer

variable {mem : Nat → UInt8}

end ControlMessageSerializer

namespace OTAManager

structure Sections (codec : OTACodec) (mem : Nat → UInt8) (h : OTAHeader)
    (eventIndex controlIndex packetIndex : Nat) : Prop where
  events : h.eventLength.toNat ≠ 0 → eventIndex + h.eventLength.toNat ≤ 2^16
  packet : packetIndex + h.dataLength.toNat ≤ 2^16
  control : h.controlLength.toNat ≠ 0 → ∃ msgs : List SerializedControlMessage,
    ControlMessageSerializer.Fits msgs
      ∧ Memory.Holds mem controlIndex ( ControlMessageSerializer.getVectorIO msgs).flatten
      ∧ ( ControlMessageSerializer.getVectorIO msgs).flatten.length ≤ h.controlLength.toNat
      ∧ controlIndex + ( ControlMessageSerializer.getVectorIO msgs).flatten.length ≤ 2^16
      ∧ ∀ msg ∈ msgs, msg.serializedId = EMANE_CONTROL_MEASSGE_OTA_TRANSMITTER
        → (codec.parseTransmitters msg.serialization).isSome

section

variable {codec : OTACodec} {mem : Nat → UInt8}

end

namespace Arrival

variable (arrival : Arrival) (m : OTAManager) (codec : OTACodec)

def mem : Nat → UInt8 :=
  Memory.ofList arrival.msg.val arrival.stale

def header : Option (Nat × OTAHeader) :=
  (receiveHeader codec arrival.mem arrival.msg.val.length).2

/--
With the sum of the lengths the parts of a message from another manager are where the code looks
for them, with indices of 16 bits.
-/
def WellFormed : Prop :=
  ∀ headerLength h,
    arrival.header codec = some (headerLength, h)
      →
    copyUUID h.uuid arrival.beyond ≠ m.uuid
      →
    Sections codec arrival.mem h ((2 + headerLength) % 2^16)
      (((2 + headerLength) % 2^16 + h.eventLength.toNat) % 2^16)
      ((((2 + headerLength) % 2^16 + h.eventLength.toNat) % 2^16 + h.controlLength.toNat) % 2^16)

variable {arrival m codec}

end Arrival

end OTAManager
end Emane
