import InertiaRelayer.Library.DelayLine

namespace InertiaRelayer.Proxy
open Machine

def idleTick : Nat := 100000000
def packetDelay : Nat := 100000000

structure Popped (E T : Type) where
  due : Nat
  time : Nat
  env : E
  item : T

structure Loop (Φ E T : Type) where
  phase : Φ
  clock : Nat
  queue : List (Nat × T)
  arrived : List (Nat × T)
  mirrored : List T
  popped : List (Popped E T)
  sends : List T

def Loop.start {Φ : Type} (E T : Type) (phase : Φ) : Loop Φ E T := ⟨phase,0,[],[],[],[],[]⟩

namespace Loop

variable {Φ E T : Type} (s : Loop Φ E T)

def enter (phase : Φ) : Loop Φ E T := { s with phase := phase }

def read (t : Nat) : Option (Loop Φ E T) :=
  if s.clock ≤ t then some { s with clock := t } else none

def receive (delay t : Nat) (x : T) : Loop Φ E T :=
  { s with
    mirrored := s.mirrored ++ [x]
    arrived := s.arrived ++ [(t,x)]
    queue := s.queue ++ [(t + delay,x)] }

def release (onRelease : E → T → T) (now : Nat) (env : E) : Option (Loop Φ E T) :=
  match s.queue with
  | [] => none
  | (due,x) :: rest =>
      if due ≤ now then
        some { s with
          queue := rest
          popped := s.popped ++ [⟨due,now,env,x⟩]
          sends := s.sends ++ [onRelease env x] }
      else none

def due (now : Nat) : Bool :=
  match s.queue with
  | [] => false
  | (release_at,_) :: _ => decide (release_at ≤ now)

def toLine : DelayLine.Line T :=
  ⟨s.clock,s.arrived,s.queue,s.popped.map fun p => ⟨p.due,p.time,p.item⟩⟩

end Loop

inductive Phase where
  | receiving
  | waiting (deadline : Nat)
  | sweeping
  | reading
  | draining (now : Nat)
  | ended
deriving DecidableEq

def Phase.drain : Phase → Option Nat
  | .draining now => some now
  | _ => none

abbrev DelayState (E T : Type) := Loop Phase E T

namespace RelayerDelay

inductive Action (E T : Type) where
  | exit
  | wait (asked : Nat)
  | recvOk (received : Nat) (batch : T)
  | recvTimeout (returned : Nat)
  | recvDisconnected
  | sweep
  | readNow (now : Nat)
  | send (env : E) (isErr : Bool)
  | drained

variable {E T : Type} (delay : Nat) (onRelease : E → T → T)

def timeout (s : DelayState E T) (now : Nat) : Nat :=
  match s.queue with
  | [] => idleTick
  | (release_at,_) :: _ => release_at - now

def loopHead (s : DelayState E T) : Action E T → Option (DelayState E T)
  | .exit => some (s.enter .ended)
  | .wait asked => do
      let deadline := asked + timeout s asked
      let s ← s.read asked
      return s.enter (.waiting deadline)
  | _ => none

-- The flag is not read again before `recv_timeout` returns.
def receive (s : DelayState E T) (deadline : Nat) : Action E T → Option (DelayState E T)
  | .recvOk received batch => do
      let s ← s.read received
      return (s.receive delay received batch).enter .sweeping
  | .recvTimeout returned =>
      if deadline ≤ returned then do
        let s ← s.read returned
        return s.enter .sweeping
      else none
  | .recvDisconnected => some (s.enter .ended)
  | _ => none

def drain (s : DelayState E T) (now : Nat) : Action E T → Option (DelayState E T)
  | .send env isErr => do
      let s ← s.release onRelease now env
      return s.enter (if isErr then .ended else .draining now)
  | .drained => if s.due now then none else some (s.enter .receiving)
  | _ => none

def step (s : DelayState E T) (a : Action E T) : Option (DelayState E T) :=
  match s.phase with
  | .receiving => loopHead s a
  | .waiting deadline => receive delay s deadline a
  | .sweeping =>
      match a with
      | .sweep => some (s.enter .reading)
      | _ => none
  | .reading =>
      match a with
      | .readNow now => do
          let s ← s.read now
          return s.enter (.draining now)
      | _ => none
  | .draining now => drain onRelease s now a
  | .ended => none

def init : DelayState E T := Loop.start E T .receiving

end RelayerDelay

namespace DelayForward

inductive Action (E T : Type) where
  | shutdown
  | releaseDue (now : Nat)
  | send (env : E)
  | drained
  | recvOk (received : Nat) (resp : T)
  | recvLagged (count : Nat)
  | recvClosed

variable {E T : Type} (delay : Nat) (onRelease : E → T → T)

def select (s : DelayState E T) : Action E T → Option (DelayState E T)
  | .shutdown => some (s.enter .ended)
  | .releaseDue now =>
      if s.due now then do
        let s ← s.read now
        return s.enter (.draining now)
      else none
  | .recvOk received resp => do
      let s ← s.read received
      return s.receive delay received resp
  | .recvLagged _ => some s
  | .recvClosed => some (s.enter .ended)
  | _ => none

def step (s : DelayState E T) (a : Action E T) : Option (DelayState E T) :=
  match s.phase with
  | .receiving => select delay s a
  | .draining now =>
      match a with
      | .send env => s.release onRelease now env
      | .drained => if s.due now then none else some (s.enter .receiving)
      | _ => none
  | _ => none

def init : DelayState E T := Loop.start E T .receiving

end DelayForward

end InertiaRelayer.Proxy
