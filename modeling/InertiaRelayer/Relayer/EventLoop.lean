import InertiaRelayer.Relayer.Forwarder
import InertiaRelayer.Library.Machine
import Mathlib.Logic.Function.Basic

namespace InertiaRelayer.Forwarder

structure Round where
  pending : List Offer
  failed : List (Pubkey × Nat)
  dropped : UInt64
deriving DecidableEq

inductive Loop where
  | checking
  | waiting
  | snapshotting (batches : List ProtoPacketBatch)
  | forwarding (round : Round)
  | heartbeating (round : Round)
  | dropping (failed : List (Pubkey × Nat))
  | stopped
deriving DecidableEq

namespace Loop

def pending : Loop → List Offer
  | .forwarding round => round.pending
  | .heartbeating round => round.pending
  | _ => []

def failed : Loop → List (Pubkey × Nat)
  | .forwarding round => round.failed
  | .heartbeating round => round.failed
  | .dropping failed => failed
  | _ => []

def readLocked : Loop → Bool
  | .heartbeating _ => true
  | _ => false

def idle : Loop → Bool
  | .checking => true
  | .waiting => true
  | _ => false

end Loop

structure State where
  subscriptions : PacketSubscriptions
  channels : Nat → Channel
  nextChannel : Nat
  loop : Loop
  heartbeatCount : UInt64
  droppedSends : UInt64

def init : State := ⟨∅,fun _ => ⟨false,[]⟩,0,.checking,0,0⟩

inductive Action (π : Type) where
  | subscribePackets (identity : Pubkey)
  | closeStream (ch : Nat)
  | deliver (ch : Nat)
  | receive (batches : BankingPacketBatch π)
  | disconnect
  | snapshot (subscribers : List (Pubkey × Nat)) (ts : Timestamp)
  | heartbeatTick (subscribers : List (Pubkey × Nat))
  | offer
  | endRound
  | dropConnections
  | dropLogTick
  | select
  | exit

def subscribers (subscriptions : PacketSubscriptions) : List (Pubkey × Nat) :=
  subscriptions.entries.map (fun e => (e.1,e.2))

namespace State

def setChannel (s : State) (ch : Nat) (c : Channel) : State :=
  { s with channels := Function.update s.channels ch c }

def enter (s : State) (loop : Loop) : State := { s with loop := loop }

def openChannel (s : State) (isOpen : Bool) : State :=
  { s.setChannel s.nextChannel ⟨isOpen,[]⟩ with nextChannel := s.nextChannel + 1 }

def tryForward (s : State) (o : Offer) (round : Round) : State × Round :=
  match (s.channels o.sender).trySend o.response with
  | .sent c => (s.setChannel o.sender c,round)
  | .full => (s,{ round with dropped := round.dropped + 1 })
  | .closed => (s,{ round with failed := round.failed ++ [(o.pubkey,o.sender)] })

end State

section Step

variable {π : Type} [PacketRef π] (keyText : Pubkey → String) (addrText : IpAddr → String)

def subscribeStep (s : State) (identity : Pubkey) : State :=
  match subscribePackets keyText s.subscriptions (some identity) s.nextChannel with
  | .error _ => s.openChannel false
  | .ok subscriptions => { s.openChannel true with subscriptions := subscriptions }

def offerStep (s : State) (enter : Round → Loop) (round : Round) : Option State :=
  match round.pending with
  | [] => none
  | o :: pending =>
      let (t,next) := s.tryForward o { round with pending := pending }
      some (t.enter (enter next))

def step (s : State) : Action π → Option State
  | .subscribePackets identity =>
      if s.loop.readLocked then none else some (subscribeStep keyText s identity)
  | .closeStream ch =>
      if ch < s.nextChannel then some (s.setChannel ch ⟨false,[]⟩) else none
  | .deliver ch =>
      match (s.channels ch).queue with
      | [] => none
      | _ :: queue => some (s.setChannel ch { s.channels ch with queue := queue })
  | .receive batches =>
      match s.loop with
      | .waiting => some (s.enter (.snapshotting (protoPacketBatches addrText batches)))
      | _ => none
  | .disconnect =>
      match s.loop with
      | .waiting => some (s.enter .stopped)
      | _ => none
  | .snapshot order ts =>
      match s.loop with
      | .snapshotting batches =>
          if order.Perm (subscribers s.subscriptions) then
            if order.isEmpty then some (s.enter (.dropping []))
            else some (s.enter (.forwarding ⟨forwardOffers order ts batches,[],0⟩))
          else none
      | _ => none
  | .heartbeatTick order =>
      match s.loop with
      | .waiting =>
          if order.Perm (subscribers s.subscriptions) then
            some (s.enter (.heartbeating ⟨order.map (heartbeatOffer s.heartbeatCount),[],0⟩))
          else none
      | _ => none
  | .offer =>
      match s.loop with
      | .forwarding round => offerStep s .forwarding round
      | .heartbeating round => offerStep s .heartbeating round
      | _ => none
  | .endRound =>
      match s.loop with
      | .forwarding ⟨[],failed,dropped⟩ =>
          some { s.enter (.dropping failed) with droppedSends := s.droppedSends + dropped }
      | .heartbeating ⟨[],failed,dropped⟩ =>
          some { s.enter (.dropping failed) with
            heartbeatCount := s.heartbeatCount + 1
            droppedSends := s.droppedSends + dropped }
      | _ => none
  | .dropConnections =>
      match s.loop with
      | .dropping failed =>
          some { s.enter .checking with
            subscriptions := dropConnections s.subscriptions (failed.map Prod.fst) }
      | _ => none
  | .dropLogTick =>
      match s.loop with
      | .waiting => some { s.enter .checking with droppedSends := 0 }
      | _ => none
  -- The flag is read only between two rounds, never while `select!` blocks.
  | .select =>
      match s.loop with
      | .checking => some (s.enter .waiting)
      | _ => none
  | .exit =>
      match s.loop with
      | .checking => some (s.enter .stopped)
      | _ => none

end Step

end InertiaRelayer.Forwarder
