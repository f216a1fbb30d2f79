import InertiaRelayer.Blockengine.Filter
import InertiaRelayer.Proxy.Mirror
import Mathlib.Logic.Function.Basic

namespace InertiaRelayer.Blockengine
open Broadcast Machine Proxy

structure Wiring (T : Type) where
  onRelease : FilterSet → T → T
  codec : Option (Mirror.Codec T)

def packetWiring : Wiring SubscribePacketsResponse := ⟨filterBePackets,none⟩

def bundleWiring (c : Mirror.Codec SubscribeBundlesResponse) : Wiring SubscribeBundlesResponse :=
  ⟨filterBeBundles,some c⟩

structure Sent (T : Type) where
  stream : Nat
  seq : Nat
  item : T
deriving DecidableEq

inductive Out (T : Type) where
  | released (p : Popped FilterSet (Sent T)) (sent : Sent T)
  | inertia (resp : T)

inductive StreamPhase where
  | absent
  | subscribing
  | serving
  | dropped
  | refused
deriving DecidableEq

inductive Pump where
  | none
  | running
  | cancelled
  | lost
deriving DecidableEq

structure Delivered (T : Type) where
  time : Nat
  index : Nat
  out : Out T

structure Stream (T : Type) where
  phase : StreamPhase
  upstream : Bool
  pump : Pump
  bridge : Bool
  cancelled : Bool
  ended : Bool
  rx : Receiver
  pulled : List T
  delivered : List (Delivered T)

structure State (T : Type) where
  exit : Bool
  shutdown : Bool
  streams : Nat → Stream T
  nextStream : Nat
  inbound : List (Sent T)
  outbound : List (Out T)
  delay : DelayState FilterSet (Sent T)
  delayRx : Receiver
  mirror : Mirror.State T

inductive TaskAction where
  | upstreamOk
  | upstreamDenied
  | upstreamFailed
  | drop
  | pumpEnds
  | pumpCancelled
  | bridgeExit
  | bridgeCancelled
deriving DecidableEq

inductive DelayAction where
  | recv (received : Nat)
  | lagged (n : Nat)
  | shutdown
  | releaseDue (now : Nat)
  | send (env : FilterSet)
  | drained
  | closed

inductive Action (T : Type) where
  | exit
  | watch
  | subscribe
  | task (i : Nat) (a : TaskAction)
  | pumpItem (i : Nat) (item : T)
  | poll (i now : Nat)
  | lagged (i n : Nat)
  | delay (a : DelayAction)
  | mirror (a : Mirror.Action)

section Step

variable {T : Type} (w : Wiring T)

def Stream.absent : Stream T := ⟨.absent,false,.none,false,false,false,⟨0⟩,[],[]⟩

def init : State T where
  exit := false
  shutdown := false
  streams _ := .absent
  nextStream := 0
  inbound := []
  outbound := []
  delay := DelayForward.init
  delayRx := subscribe ([] : List (Sent T))
  mirror := .init (subscribe ([] : List T))

def Stream.serveProxyStream (st : Stream T) (upstream : Bool) : Stream T :=
  { st with
    phase := .serving
    upstream := upstream
    pump := if upstream then .running else .none
    bridge := true }

def taskStep (exit : Bool) (st : Stream T) : TaskAction → Option (Stream T)
  | .upstreamOk =>
      match st.phase with
      | .subscribing => some (st.serveProxyStream true)
      | _ => none
  | .upstreamDenied =>
      match st.phase with
      | .subscribing => some (st.serveProxyStream false)
      | _ => none
  | .upstreamFailed =>
      match st.phase with
      | .subscribing => some { st with phase := .refused }
      | _ => none
  | .drop =>
      match st.phase with
      | .serving => some { st with phase := .dropped, cancelled := true }
      | _ => none
  | .pumpEnds =>
      match st.pump with
      | .running => some { st with pump := .lost }
      | _ => none
  | .pumpCancelled =>
      match st.pump with
      | .running => if st.cancelled then some { st with pump := .cancelled } else none
      | _ => none
  | .bridgeExit =>
      if st.bridge && exit then some { st with bridge := false, cancelled := true } else none
  | .bridgeCancelled =>
      if st.bridge && st.cancelled then some { st with bridge := false } else none

def onSent (env : FilterSet) (x : Sent T) : Sent T := { x with item := w.onRelease env x.item }

namespace State

def setStream (s : State T) (i : Nat) (st : Stream T) : State T :=
  { s with streams := Function.update s.streams i st }

def newStream (s : State T) : Stream T :=
  { Stream.absent with phase := .subscribing, rx := subscribe s.outbound }

def subscribeStream (s : State T) : State T :=
  { s.setStream s.nextStream s.newStream with nextStream := s.nextStream + 1 }

end State

def pumpStep (s : State T) (i : Nat) (item : T) : Option (State T) :=
  let st := s.streams i
  match st.pump with
  | .running =>
      some { s.setStream i { st with pulled := st.pulled ++ [item] } with
        inbound := s.inbound ++ [⟨i,st.pulled.length,item⟩] }
  | _ => none

def pollStep (s : State T) (i now : Nat) : Option (State T) :=
  let st := s.streams i
  match st.phase with
  | .serving =>
      if st.cancelled then some (s.setStream i { st with ended := true })
      else
        match recv s.outbound st.rx with
        | none => none
        | some (out,rx) =>
            if s.delay.clock ≤ now then
              some (s.setStream i { st with
                rx := rx
                delivered := st.delivered ++ [⟨now,st.rx.cursor,out⟩] })
            else none
  | _ => none

def lagStep (s : State T) (i n : Nat) : Option (State T) :=
  let st := s.streams i
  match st.phase with
  | .serving => (lag s.outbound n st.rx).map fun rx => s.setStream i { st with rx := rx }
  | _ => none

def forwarded (s d : DelayState FilterSet (Sent T)) : List (Out T) :=
  List.zipWith Out.released (d.popped.drop s.popped.length) (d.sends.drop s.sends.length)

def delayRun (s : State T) (rx : Receiver) (a : DelayForward.Action FilterSet (Sent T)) :
    Option (State T) :=
  (DelayForward.step packetDelay (onSent w) s.delay a).map fun d =>
    { s with delay := d, delayRx := rx, outbound := s.outbound ++ forwarded s.delay d }

def delayStep (s : State T) : DelayAction → Option (State T)
  | .recv received =>
      match recv s.inbound s.delayRx with
      | none => none
      | some (x,rx) => delayRun w s rx (.recvOk received x)
  | .lagged n =>
      match lag s.inbound n s.delayRx with
      | none => none
      | some rx => delayRun w s rx (.recvLagged n)
  | .shutdown => if s.shutdown then delayRun w s s.delayRx .shutdown else none
  | .releaseDue now => delayRun w s s.delayRx (.releaseDue now)
  | .send env => delayRun w s s.delayRx (.send env)
  | .drained => delayRun w s s.delayRx .drained
  | .closed => delayRun w s s.delayRx .recvClosed

def mirrorStep (s : State T) (a : Mirror.Action) : Option (State T) :=
  match w.codec with
  | none => none
  | some c =>
      (Mirror.step c s.shutdown (s.inbound.map Sent.item) s.mirror a).map fun t =>
        { s with mirror := t.1, outbound := s.outbound ++ t.2.map Out.inertia }

def step (s : State T) : Action T → Option (State T)
  | .exit => some { s with exit := true }
  | .watch => if s.exit then some { s with shutdown := true } else none
  | .subscribe => some s.subscribeStream
  | .task i a => (taskStep s.exit (s.streams i) a).map (s.setStream i)
  | .pumpItem i item => pumpStep s i item
  | .poll i now => pollStep s i now
  | .lagged i n => lagStep s i n
  | .delay a => delayStep w s a
  | .mirror a => mirrorStep w s a

end Step

end InertiaRelayer.Blockengine
