import InertiaRelayer.Proxy.DelayRefinement
import InertiaRelayer.Proxy.Expiry
import InertiaRelayer.Auth.Reference
import InertiaRelayer.Relayer.Forwarder

namespace InertiaRelayer.Proxy
open Machine Forwarder

def sourceRelayer : UInt8 := 0

structure FilterSet where
  map : Blocked
  len : Nat
  len_eq : len = map.size

def FilterSet.isEmpty (set : FilterSet) : Bool := set.len == 0

section Path

variable {π : Type} [PacketRef π]

def discardFiltered (set : FilterSet) (batch : BankingPacketBatch π) : BankingPacketBatch π :=
  if set.isEmpty then batch else discardBlocked set.map batch

def mirrorPacket (x : π) : List (UInt8 × List UInt8) :=
  if (PacketRef.packetMeta x).discard then []
  else
    match PacketRef.data x with
    | none => []
    | some data => [(sourceRelayer,data)]

def mirrorBankingBatch (batch : BankingPacketBatch π) : List (UInt8 × List UInt8) :=
  batch.flatMap fun packets => packets.flatMap mirrorPacket

def forwardedPayloads (addrText : IpAddr → String) (batch : BankingPacketBatch π) :
    List (List UInt8) :=
  (protoPacketBatches addrText batch).flatMap fun proto => proto.packets.map ProtoPacket.data

def passes (set : FilterSet) (data : List UInt8) : Bool :=
  !hit set.map (firstSignature data)

theorem hit_of_isEmpty {set : FilterSet} (h : set.isEmpty = true) (sig : Option Signature) :
    hit set.map sig = false := by
  have hsize : set.map.size = 0 := by
    rw [← set.len_eq]
    exact eq_of_beq h
  exact hit_eq_false (fun s _ => KeyMap.containsKey_of_size_zero hsize s)

theorem discardFiltered_eq (set : FilterSet) (batch : BankingPacketBatch π) :
    discardFiltered set batch = discardBlocked set.map batch := by
  unfold discardFiltered
  split
  · rename_i hempty
    have hsame : (discardPacket set.map : π → π) = id := by
      funext x
      simp [discardPacket, hit_of_isEmpty hempty]
    simp [discardBlocked, hsame]
  · rfl

theorem release_is_discardFiltered {as : List (Action π)} {s : State π}
    (hrun : run step init as = some s) {r : Release π} (hr : r ∈ s.log)
    {batch : BankingPacketBatch π} (hin : r.answer.input = .banking batch) :
    ∃ set : FilterSet, r.answer.output = .banking (discardFiltered set batch) := by
  refine ⟨⟨r.answer.blocked,_,rfl⟩,?_⟩
  rw [(accounted_run hrun hr).output, hin, discardFiltered_eq]
  rfl

def forwardPacket (x : π) : List (List UInt8) :=
  if (PacketRef.packetMeta x).discard then [] else (PacketRef.data x).toList

theorem filterMap_protoPackets (addrText : IpAddr → String) (packets : List π) :
    ((packets.filter fun x => !(PacketRef.packetMeta x).discard).filterMap
        (packetToProtoPacket addrText)).map ProtoPacket.data = packets.flatMap forwardPacket := by
  induction packets with
  | nil => rfl
  | cons x packets ih =>
    rw [List.flatMap_cons, ← ih]
    unfold forwardPacket
    cases hd : (PacketRef.packetMeta x).discard with
    | true => simp [hd]
    | false =>
      have hdata := packetToProtoPacket_data addrText x
      cases hp : packetToProtoPacket addrText x with
      | none =>
        rw [hp] at hdata
        simp [hd, hp, ← hdata]
      | some proto =>
        rw [hp] at hdata
        simp [hd, hp, ← hdata]

theorem forwardedPayloads_eq (addrText : IpAddr → String) (batch : BankingPacketBatch π) :
    forwardedPayloads addrText batch =
      batch.flatMap fun packets => packets.flatMap forwardPacket := by
  have hmap : forwardedPayloads addrText batch =
      (protoPackets addrText batch).map ProtoPacket.data := by
    rw [← packets_protoPacketBatches, List.map_flatMap]
    rfl
  rw [hmap, protoPackets, List.map_flatMap]
  simp only [filterMap_protoPackets]

theorem forwardPacket_discardPacket (set : FilterSet) (x : π) :
    forwardPacket (discardPacket set.map x) =
      ((mirrorPacket x).map Prod.snd).filter (passes set) := by
  cases hd : (PacketRef.packetMeta x).discard with
  | true => simp [discardPacket, forwardPacket, mirrorPacket, hd]
  | false =>
    cases hdata : PacketRef.data x with
    | none => simp [discardPacket, forwardPacket, mirrorPacket, packetSignature, hit, hd, hdata]
    | some data =>
      cases hh : hit set.map (firstSignature data) with
      | true =>
        simp [discardPacket, forwardPacket, mirrorPacket, packetSignature, passes, hd, hdata, hh,
          PacketRef.packetMeta_setDiscard]
      | false =>
        simp [discardPacket, forwardPacket, mirrorPacket, packetSignature, passes, hd, hdata, hh]

theorem forwarded_discardFiltered (addrText : IpAddr → String) (set : FilterSet)
    (batch : BankingPacketBatch π) :
    forwardedPayloads addrText (discardFiltered set batch) =
      ((mirrorBankingBatch batch).map Prod.snd).filter (passes set) := by
  rw [discardFiltered_eq, forwardedPayloads_eq, discardBlocked, mirrorBankingBatch]
  simp only [List.flatMap_map, List.map_flatMap, List.filter_flatMap,
    forwardPacket_discardPacket]

theorem forwarded_payloads_are_mirrored_unfiltered (addrText : IpAddr → String) (delay : Nat)
    (as : List (RelayerDelay.Action FilterSet (BankingPacketBatch π)))
    (s : DelayState FilterSet (BankingPacketBatch π))
    (hrun : run (RelayerDelay.step delay discardFiltered) RelayerDelay.init as = some s) (n : Nat) :
    s.mirrored.flatMap mirrorBankingBatch =
      (s.popped.map Popped.item ++ s.queue.map Prod.snd).flatMap mirrorBankingBatch ∧
    (s.sends.take n).flatMap (forwardedPayloads addrText) =
      (s.popped.take n).flatMap fun p =>
        ((mirrorBankingBatch p.item).map Prod.snd).filter (passes p.env) := by
  obtain ⟨_,hs,_⟩ := relayer_delaysThrough delay discardFiltered as s hrun
  refine ⟨by rw [hs.mirrored, hs.received],?_⟩
  rw [hs.sent, ← List.map_take, List.flatMap_map]
  simp only [forwarded_discardFiltered]

end Path

section Sample

def udpMeta (size : Nat) (discard : Bool) : Meta :=
  ⟨size,.v4 10 0 0 2,8000,discard,false,false,false,false,false⟩

def udpPacket (data : List UInt8) (discard : Bool) : Packet := ⟨data,udpMeta data.length discard⟩

def bankingBatch : BankingPacketBatch Packet :=
  [[udpPacket blockedPacket.data false,udpPacket otherPacket.data false],
    [udpPacket otherPacket.data true,udpPacket [1,2,3] false]]

def oneFilter : FilterSet where
  map := (∅ : Blocked).insert blockedSignature 0
  len := 1
  len_eq := by decide

def delayedBatch : List (RelayerDelay.Action FilterSet (BankingPacketBatch Packet)) :=
  [.wait 0,.recvOk 0 bankingBatch,.sweep,.readNow 0,.drained,.wait 0,.recvTimeout 100000000,.sweep,
    .readNow 100000000,.send oneFilter false,.drained]

theorem delayed_batch_forwarded :
    ∃ s, run (RelayerDelay.step packetDelay discardFiltered) RelayerDelay.init delayedBatch =
        some s ∧
      (s.sends.take 1).flatMap (forwardedPayloads Auth.ipText.text) =
        [otherPacket.data,[1,2,3]] ∧
      (s.sends.take 1).flatMap (forwardedPayloads Auth.ipText.text) =
        (s.popped.take 1).flatMap fun p =>
          ((mirrorBankingBatch p.item).map Prod.snd).filter (passes p.env) := by
  obtain ⟨s,hs,hf⟩ := exists_run_of_map (RelayerDelay.step packetDelay discardFiltered)
    RelayerDelay.init delayedBatch (fun s =>
      decide ((s.sends.take 1).flatMap (forwardedPayloads Auth.ipText.text) =
        [otherPacket.data,[1,2,3]])) (by decide +kernel)
  exact ⟨s,hs,of_decide_eq_true hf,
    (forwarded_payloads_are_mirrored_unfiltered Auth.ipText.text packetDelay _ s hs 1).2⟩

end Sample

end InertiaRelayer.Proxy
