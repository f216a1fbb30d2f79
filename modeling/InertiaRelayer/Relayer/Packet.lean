import InertiaRelayer.Types

namespace InertiaRelayer

structure Meta where
  size : Nat
  addr : IpAddr
  port : UInt16
  discard : Bool
  forwarded : Bool
  repair : Bool
  isSimpleVoteTx : Bool
  isPerfTrackPacket : Bool
  isFromStakedNode : Bool
deriving DecidableEq

class PacketRef (π : Type) where
  packetMeta : π → Meta
  data : π → Option (List UInt8)
  setDiscard : π → π
  data_of_discard : ∀ x, (packetMeta x).discard = true → data x = none
  packetMeta_setDiscard : ∀ x, packetMeta (setDiscard x) = { packetMeta x with discard := true }

abbrev BankingPacketBatch (π : Type) := List (List π)

structure Packet where
  buffer : List UInt8
  packetMeta : Meta
deriving DecidableEq

instance : PacketRef Packet where
  packetMeta := Packet.packetMeta
  data x :=
    if x.packetMeta.discard then none
    else if x.packetMeta.size ≤ x.buffer.length then some (x.buffer.take x.packetMeta.size)
    else none
  setDiscard x := { x with packetMeta := { x.packetMeta with discard := true } }
  data_of_discard x h := by simp [h]
  packetMeta_setDiscard _ := rfl

structure Timestamp where
  seconds : Int
  nanos : Int
deriving DecidableEq

structure Header where
  ts : Option Timestamp
deriving DecidableEq

structure ProtoPacketFlags where
  discard : Bool
  forwarded : Bool
  repair : Bool
  simpleVoteTx : Bool
  tracerPacket : Bool
  fromStakedNode : Bool
deriving DecidableEq

structure ProtoMeta where
  size : Nat
  addr : String
  port : UInt32
  flags : Option ProtoPacketFlags
  senderStake : Nat
deriving DecidableEq

structure ProtoPacket where
  data : List UInt8
  packetMeta : Option ProtoMeta
deriving DecidableEq

structure ProtoPacketBatch where
  packets : List ProtoPacket
deriving DecidableEq

section Convert

variable {π : Type} [PacketRef π] (addrText : IpAddr → String)

def protoFlags (m : Meta) : ProtoPacketFlags :=
  ⟨m.discard,m.forwarded,m.repair,m.isSimpleVoteTx,m.isPerfTrackPacket,m.isFromStakedNode⟩

def packetToProtoPacket (x : π) : Option ProtoPacket :=
  match PacketRef.data x with
  | none => none
  | some data =>
      let m := PacketRef.packetMeta x
      some ⟨data,some ⟨m.size,addrText m.addr,m.port.toUInt32,some (protoFlags m),0⟩⟩

theorem packetToProtoPacket_data (x : π) :
    (packetToProtoPacket addrText x).map ProtoPacket.data = PacketRef.data x := by
  unfold packetToProtoPacket
  cases PacketRef.data x <;> rfl

end Convert

end InertiaRelayer
