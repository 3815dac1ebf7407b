import Emane.FlowControl.Impl.Token
import Emane.Tdma.Impl.BasicQueueManager
import Emane.Tdma.Impl.QueueMapping
import Emane.Tdma.Impl.ReceiveManager
import Emane.Packet.Impl.Packet

/-!
This module contains the transmit side of the TDMA radio model: packets from the transport and
from the scheduler go into the queues, a transmit opportunity takes them out, and flow control
counts them. A message is framed by its length, and on the way to another radio it may be lost,
repeated and reordered.
-/

namespace Emane
namespace Tdma

structure TxSlotInfo where
  absoluteSlotIndex : Nat
  dataRate : Nat
  queueId : Nat
  destination : NEMId
  bytesAvailable : Nat
  deriving DecidableEq

structure BaseModel where
  id : NEMId
  queueMapping : QueueTexts
  flowControlEnable : Bool
  flowControlManager : FlowControlManager
  queueManager : BasicQueueManager
  sequenceNumber : Nat

namespace BaseModel

inductive Output where
  | report (r : Report)
  | sendUpstreamControl (tokens : Nat)
  | sendDownstreamPacket (sequenceNumber : Nat) (destination : NEMId) (message : BaseModelMessage)
  deriving DecidableEq

def configure (id : NEMId) (mapping : QueueTexts) (flowControlEnable : Bool)
    (cfg : QueueManagerConfig) : BaseModel where
  id := id
  queueMapping := mapping
  flowControlEnable := flowControlEnable
  flowControlManager := .init
  queueManager := .configure id cfg
  sequenceNumber := 0

def postStart (b : BaseModel) (flowControlTokens : Nat) : List Output × BaseModel :=
  if b.flowControlEnable then
    let (messages, flowControlManager) := b.flowControlManager.start flowControlTokens
    (messages.map Output.sendUpstreamControl, { b with flowControlManager := flowControlManager })
  else
    ([], b)

def addToken (b : BaseModel) (tokens : Nat) : List Output × BaseModel :=
  -- give tokens back, as many as fit into 16 bits
  let (_, messages, flowControlManager) := b.flowControlManager.addToken (tokens % 2^16)
  (messages.map Output.sendUpstreamControl, { b with flowControlManager := flowControlManager })

def replaceTokens (b : BaseModel) : Nat → List Output × BaseModel
  | 0 => ([], b)
  | packetsDropped + 1 =>
    let (outputs, b') := b.addToken 1
    let (outputs', b'') := replaceTokens b' packetsDropped
    (outputs ++ outputs', b'')

def processDownstreamPacket (b : BaseModel) (pkt : DownstreamPacket) : Option (List Output × BaseModel) :=
  let (status, flowControlManager) :=
    if b.flowControlEnable then b.flowControlManager.removeToken else (true, b.flowControlManager)
  if status then
    match b.queueMapping.priorityToQueue pkt.info.priority with
    | .ok queue => do
      let (packetsDropped, reports, queueManager) ← b.queueManager.enqueue queue pkt
      let b' := { b with flowControlManager := flowControlManager, queueManager := queueManager }
      if b.flowControlEnable then
        let (outputs, b'') := b'.replaceTokens packetsDropped
        return (reports.map Output.report ++ outputs, b'')
      else
        return (reports.map Output.report, b')
    -- the exception of `stoi` is caught by the thread of the layer, the token has been removed by then
    | .error _ => return ([], { b with flowControlManager := flowControlManager })
  else
    let report := .outbound pkt.info.source pkt.info.source pkt.info.priority pkt.length
      .DROP_FLOW_CONTROL
    return ([.report report], b)

def processSchedulerPacket (b : BaseModel) (pkt : DownstreamPacket)
    : Option (List Output × BaseModel) := do
  let (_, reports, queueManager) ← b.queueManager.enqueue 4 pkt
  return (reports.map Output.report, { b with queueManager := queueManager })

def frameDestination (components : MessageComponents) : NEMId :=
  components.foldl
    (fun dst c =>
      if dst = 0 then
        c.destination
      else if dst ≠ NEM_BROADCAST_MAC_ADDRESS && dst ≠ c.destination then
        NEM_BROADCAST_MAC_ADDRESS
      else
        dst)
    0

def sendDownstreamPacket (b : BaseModel) (slot : TxSlotInfo) : Option (List Output × BaseModel) := do
  let (d, queueManager) ← b.queueManager.dequeue slot.queueId slot.bytesAvailable slot.destination
  let reports := d.reports.map Output.report
  let b' := { b with queueManager := queueManager }
  if d.totalLength ≠ 0 && d.totalLength ≤ slot.bytesAvailable then
    let completedPackets := (d.components.filter (fun c => !c.moreFragments)).length
    let (outputs, b'') :=
      if b.flowControlEnable && completedPackets ≠ 0 then b'.addToken completedPackets else ([], b')
    let message := ⟨slot.absoluteSlotIndex, slot.dataRate, d.components⟩
    let packet := .sendDownstreamPacket b.sequenceNumber (frameDestination d.components) message
    return (reports ++ outputs ++ [packet], { b'' with sequenceNumber := b''.sequenceNumber + 1 })
  else
    return (reports, b')

def processFlowControlMessage (b : BaseModel) (tokens : Nat) : List Output × BaseModel :=
  if b.flowControlEnable then
    let (messages, flowControlManager) := b.flowControlManager.processFlowControlMessage tokens
    (messages.map Output.sendUpstreamControl, { b with flowControlManager := flowControlManager })
  else
    ([], b)

inductive Event where
  | downstreamPacket (pkt : DownstreamPacket)
  | schedulerPacket (pkt : DownstreamPacket)
  | txOpportunity (slot : TxSlotInfo)
  | flowControlMessage (tokens : Nat)
  deriving DecidableEq

def step (b : BaseModel) : Event → Option BaseModel
  | .downstreamPacket pkt => (b.processDownstreamPacket pkt).map Prod.snd
  | .schedulerPacket pkt => (b.processSchedulerPacket pkt).map Prod.snd
  | .txOpportunity slot => (b.sendDownstreamPacket slot).map Prod.snd
  | .flowControlMessage tokens => some (b.processFlowControlMessage tokens).2

def dataPackets (b : BaseModel) : Nat :=
  ((List.finRange 4).map (fun i => (b.queueManager.queues i.castSucc).queue.size)).sum

end BaseModel

namespace BaseModel

def react (b : BaseModel) : Event → Option (List Output × BaseModel)
  | .downstreamPacket pkt => b.processDownstreamPacket pkt
  | .schedulerPacket pkt => b.processSchedulerPacket pkt
  | .txOpportunity slot => b.sendDownstreamPacket slot
  | .flowControlMessage tokens => some (b.processFlowControlMessage tokens)

def Event.packet : Event → Option DownstreamPacket
  | .downstreamPacket pkt => some pkt
  | .schedulerPacket pkt => some pkt
  | .txOpportunity _ => none
  | .flowControlMessage _ => none

def Output.enqueuedIn : Output → Option QueueIndex
  | .report (.enqueue i) => some i
  | _ => none

def Output.message : Output → Option BaseModelMessage
  | .sendDownstreamPacket _ _ message => some message
  | _ => none

end BaseModel

structure Exchange where
  model : BaseModel
  receiver : ReceiveManager
  enqueued : QueueIndex → List DownstreamPacket
  messages : List BaseModelMessage

namespace Exchange

def init (model : BaseModel) (receiver : ReceiveManager) : Exchange where
  model := model
  receiver := receiver
  enqueued := fun _ => []
  messages := []

def sent (s : Exchange) : MessageComponents :=
  s.messages.flatMap BaseModelMessage.messages

def noteEnqueued (enqueued : QueueIndex → List DownstreamPacket) (event : BaseModel.Event)
    (outputs : List BaseModel.Output)
    : QueueIndex → List DownstreamPacket :=
  match event.packet, outputs.findSome? BaseModel.Output.enqueuedIn with
  | some pkt, some i => Function.update enqueued i (enqueued i ++ [pkt])
  | _, _ => enqueued

inductive Event where
  | model (event : BaseModel.Event)
  | arrival (index : Nat) (info : PacketInfo) (startOfReception now : Nat) (reception : Reception)
  | foreignArrival (pending : PendingInfo) (now : Nat) (reception : Reception)
  | process (absoluteSlotIndex now : Nat) (reception : Reception)
  deriving DecidableEq

def receive (s : Exchange) (pending : PendingInfo) (now : Nat) (reception : Reception) : Exchange :=
  { s with receiver := (s.receiver.enqueue pending now reception).2.1 }

def step (s : Exchange) : Event → Option Exchange
  | .model event => do
    let (outputs, model) ← s.model.react event
    return { s with
      model := model
      enqueued := noteEnqueued s.enqueued event outputs
      messages := s.messages ++ outputs.filterMap BaseModel.Output.message }
  | .arrival index info startOfReception now reception => do
    let message ← s.messages[index]?
    return s.receive ⟨message, { info with source := s.model.id }, startOfReception⟩ now reception
  | .foreignArrival pending now reception =>
    if pending.info.source = s.model.id then
      none
    else
      some (s.receive pending now reception)
  | .process absoluteSlotIndex now reception =>
    some { s with receiver := (s.receiver.process absoluteSlotIndex now reception).1 }

end Exchange

namespace BaseModelMessage

def typeNumber : MessageComponent.Kind → Nat
  | .data => 1
  | .control => 2

def serializeFragment (c : MessageComponent) : Bytes :=
  -- the index and the offset are cut down to 32 bits
  Protobuf.writeRecord 1 [
    .number (if c.moreFragments then 1 else 0),
    .number (c.fragmentIndex % 2^32),
    .number (c.fragmentOffset % 2^32),
    .number c.fragmentSequence
  ]

def serializeComponent (c : MessageComponent) : Bytes :=
  let fields := Protobuf.writeRecord 1 [
    .number (typeNumber c.type),
    .number c.destination,
    .number c.priority,
    .bytes c.data
  ]
  if c.isFragment then
    fields ++ Protobuf.writeRecord 5 [.bytes (serializeFragment c)]
  else
    fields

def serialize (m : BaseModelMessage) : Bytes :=
  Protobuf.writeRecord 1 [.number m.absoluteSlotIndex, .number m.dataRate]
    ++ Protobuf.writeRepeated 3 (m.messages.map (fun c => .bytes (serializeComponent c)))

end BaseModelMessage

namespace BaseModel

def sendDownstreamPacket.packet (info : Emane.PacketInfo) (message : BaseModelMessage)
    : Emane.DownstreamPacket :=
  -- The packet for the physical layer. The size of the message is a `size_t`, its prefix has 16
  -- bits.
  let serialization := message.serialize
  (Emane.DownstreamPacket.create info serialization).prependLengthPrefixFraming serialization.length

def processUpstreamPacket.messageBytes (pkt : Emane.UpstreamPacket) : Option Bytes :=
  let (len, pkt') := pkt.stripLengthPrefixFraming
  if len ≠ 0 ∧ pkt'.length ≥ len then
    some (pkt'.get.take len)
  else
    none

end BaseModel
end Tdma
end Emane
