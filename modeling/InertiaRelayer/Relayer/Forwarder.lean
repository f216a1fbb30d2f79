import InertiaRelayer.Relayer.Packet
import InertiaRelayer.Library.Chunks
import InertiaRelayer.Library.KeyMap

namespace InertiaRelayer.Forwarder

def subscriberQueueCapacity : Nat := 50000
def validatorPacketBatchSize : Nat := 64

inductive Msg where
  | batch (batch : ProtoPacketBatch)
  | heartbeat (count : UInt64)
deriving DecidableEq

structure SubscribePacketsResponse where
  header : Option Header
  msg : Option Msg
deriving DecidableEq

structure Channel where
  isOpen : Bool
  queue : List SubscribePacketsResponse
deriving DecidableEq

inductive TrySend where
  | sent (channel : Channel)
  | full
  | closed

def Channel.trySend (c : Channel) (response : SubscribePacketsResponse) : TrySend :=
  if c.isOpen then
    if c.queue.length < subscriberQueueCapacity then
      .sent { c with queue := c.queue ++ [response] }
    else .full
  else .closed

theorem Channel.trySend_sent {c d : Channel} {response : SubscribePacketsResponse}
    (h : c.trySend response = .sent d) : d.isOpen = c.isOpen := by
  unfold Channel.trySend at h
  split at h
  · split at h
    · cases h
      rfl
    · cases h
  · cases h

theorem Channel.trySend_closed {c : Channel} {response : SubscribePacketsResponse} :
    c.trySend response = .closed ↔ c.isOpen = false := by
  unfold Channel.trySend
  constructor
  · intro h
    split at h
    · split at h <;> cases h
    · rename_i hc
      simpa using hc
  · intro h
    simp [h]

abbrev PacketSubscriptions := KeyMap Pubkey Nat

section Subscribe

variable (keyText : Pubkey → String)

def debugKeys (subscriptions : PacketSubscriptions) : String :=
  "[" ++ ", ".intercalate (subscriptions.keys.map (fun k => "\"" ++ keyText k ++ "\"")) ++ "]"

def addSubscription (subscriptions : PacketSubscriptions) (identity : Pubkey) (sender : Nat) :
    Except String PacketSubscriptions :=
  match subscriptions.lookup identity with
  | none =>
      if 1 ≤ subscriptions.size then
        .error ("Too many subscriptions, max is 1, currently connected: " ++
          debugKeys keyText subscriptions)
      else .ok (subscriptions.insert identity sender)
  | some _ => .ok (subscriptions.insert identity sender)

theorem addSubscription_ok {subscriptions t : PacketSubscriptions} {identity : Pubkey}
    {sender : Nat} (h : addSubscription keyText subscriptions identity sender = .ok t) :
    t = subscriptions.insert identity sender ∧
      (subscriptions.lookup identity = none → subscriptions.size = 0) := by
  unfold addSubscription at h
  split at h
  · split at h
    · cases h
    · rename_i hsize
      cases h
      exact ⟨rfl,fun _ => by omega⟩
  · rename_i hold
    cases h
    exact ⟨rfl,fun hnone => by simp [hold] at hnone⟩

def subscribePackets (subscriptions : PacketSubscriptions) (extension : Option Pubkey)
    (sender : Nat) : Except Failure PacketSubscriptions :=
  match extension with
  | none => .error (internal "internal error fetching public key")
  | some pubkey =>
      match addSubscription keyText subscriptions pubkey sender with
      | .error err => .error (internal err)
      | .ok subscriptions => .ok subscriptions

theorem subscribePackets_ok {subscriptions t : PacketSubscriptions} {pubkey : Pubkey}
    {sender : Nat} (h : subscribePackets keyText subscriptions (some pubkey) sender = .ok t) :
    t = subscriptions.insert pubkey sender ∧
      (subscriptions.lookup pubkey = none → subscriptions.size = 0) := by
  simp only [subscribePackets] at h
  split at h
  · cases h
  · rename_i hadd
    cases h
    exact addSubscription_ok keyText hadd

end Subscribe

def dropConnections (subscriptions : PacketSubscriptions) : List Pubkey → PacketSubscriptions
  | [] => subscriptions
  | disconnected :: rest => dropConnections (subscriptions.erase disconnected) rest

theorem lookup_dropConnections {subscriptions : PacketSubscriptions} {failed : List Pubkey}
    {k : Pubkey} (hk : k ∉ failed) :
    (dropConnections subscriptions failed).lookup k = subscriptions.lookup k := by
  induction failed generalizing subscriptions with
  | nil => rfl
  | cons x failed ih =>
    obtain ⟨hne,hrest⟩ := not_or.mp (mt List.mem_cons.mpr hk)
    rw [dropConnections, ih hrest, AList.lookup_erase_ne hne]

theorem lookup_of_dropConnections {subscriptions : PacketSubscriptions} {failed : List Pubkey}
    {k : Pubkey} {ch : Nat} (h : (dropConnections subscriptions failed).lookup k = some ch) :
    subscriptions.lookup k = some ch := by
  induction failed generalizing subscriptions with
  | nil => exact h
  | cons x failed ih => exact (KeyMap.lookup_erase_some (ih h)).2

section Forward

variable {π : Type} [PacketRef π] (addrText : IpAddr → String)

def protoPackets (batches : BankingPacketBatch π) : List ProtoPacket :=
  batches.flatMap (fun batch =>
    (batch.filter (fun x => !(PacketRef.packetMeta x).discard)).filterMap
      (packetToProtoPacket addrText))

def protoPacketBatches (batches : BankingPacketBatch π) : List ProtoPacketBatch :=
  (Chunks.chunks validatorPacketBatchSize (protoPackets addrText batches)).map ProtoPacketBatch.mk

theorem packets_protoPacketBatches (batches : BankingPacketBatch π) :
    (protoPacketBatches addrText batches).flatMap ProtoPacketBatch.packets =
      protoPackets addrText batches := by
  rw [protoPacketBatches, List.flatMap_map, List.flatMap_id', Chunks.flatten_chunks]

end Forward

structure Offer where
  pubkey : Pubkey
  sender : Nat
  response : SubscribePacketsResponse
deriving DecidableEq

def batchOffer (ts : Timestamp) (batch : ProtoPacketBatch) (subscriber : Pubkey × Nat) : Offer :=
  ⟨subscriber.1,subscriber.2,⟨some ⟨some ts⟩,some (.batch batch)⟩⟩

def batchOffers (subscribers : List (Pubkey × Nat)) (ts : Timestamp)
    (batch : ProtoPacketBatch) : List Offer :=
  match subscribers.getLast? with
  | none => []
  | some last =>
      if batch.packets.isEmpty then []
      else subscribers.dropLast.map (batchOffer ts batch) ++ [batchOffer ts batch last]

def forwardOffers (subscribers : List (Pubkey × Nat)) (ts : Timestamp)
    (batches : List ProtoPacketBatch) : List Offer :=
  batches.flatMap (batchOffers subscribers ts)

def heartbeatOffer (count : UInt64) (subscriber : Pubkey × Nat) : Offer :=
  ⟨subscriber.1,subscriber.2,⟨none,some (.heartbeat count)⟩⟩

theorem batchOffers_subscriber {subscribers : List (Pubkey × Nat)} {ts : Timestamp}
    {batch : ProtoPacketBatch} {o : Offer} (h : o ∈ batchOffers subscribers ts batch) :
    (o.pubkey,o.sender) ∈ subscribers := by
  unfold batchOffers at h
  split at h
  · cases h
  · rename_i last hlast
    split at h
    · cases h
    · rcases List.mem_append.mp h with h | h
      · obtain ⟨subscriber,hm,rfl⟩ := List.mem_map.mp h
        exact List.dropLast_subset subscribers hm
      · rw [List.mem_singleton.mp h]
        exact List.mem_of_getLast? hlast

theorem forwardOffers_subscriber {subscribers : List (Pubkey × Nat)} {ts : Timestamp}
    {batches : List ProtoPacketBatch} {o : Offer}
    (h : o ∈ forwardOffers subscribers ts batches) : (o.pubkey,o.sender) ∈ subscribers := by
  obtain ⟨batch,_,hm⟩ := List.mem_flatMap.mp h
  exact batchOffers_subscriber hm

end InertiaRelayer.Forwarder
