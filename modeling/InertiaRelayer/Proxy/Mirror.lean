import InertiaRelayer.Library.Broadcast
import InertiaRelayer.Library.Machine
import InertiaRelayer.Proxy.Framing

namespace InertiaRelayer.Mirror
open Frames Broadcast

def backoffInitial : Nat := 250
def backoffMax : Nat := 5000

inductive RunPhase where
  | starting
  | looping
  | connecting
  | serving (conn : Nat)
  | closing (conn : Nat)
  | pausing
  | sleeping
  | stopped
deriving DecidableEq

inductive Branch where
  | readBundles
  | readFilters
  | mirrorBundlesOut
  | mirrorControl
deriving DecidableEq

structure SendStream (T : Type) where
  conn : Nat
  complete : List (T × Nat)
  torn : Option (T × Nat)
  written : Bytes
deriving DecidableEq

inductive Writer (T : Type) where
  | idle
  | opening
  | receiving (send : SendStream T)
  | writing (send : SendStream T) (len buf : Bytes)
  | returned
deriving DecidableEq

inductive ReaderPhase where
  | checking
  | reading
  | returned
deriving DecidableEq

structure Reader where
  conn : Nat
  phase : ReaderPhase
  arrived : Bytes
  unread : Bytes
  ended : Bool
deriving DecidableEq

structure Delivery (T : Type) where
  reader : Nat
  conn : Nat
  stored : Option Nat
  resp : T
deriving DecidableEq

structure State (T : Type) where
  phase : RunPhase
  backoff : Nat
  conn : Option Nat
  nextConn : Nat
  rx : Receiver
  writer : Writer T
  streams : List (SendStream T)
  readers : List Reader
  delivered : List (Delivery T)

inductive RunAction where
  | endpointOk
  | endpointFailed
  | loopCheck
  | connectOk
  | connectFailed
  | branchEnds (branch : Branch)
  | clear
  | pauseCheck
  | wake
deriving DecidableEq

inductive WriterAction where
  | openOk
  | openFailed
  | shutdown
  | recv
  | lagged (n : Nat)
  | closed
  | write (n : Nat)
  | writeFailed
  | wrote
deriving DecidableEq

inductive ReaderAction where
  | arrive (bytes : Bytes)
  | streamEnds
  | check
  | frame
  | fail
  | lost
deriving DecidableEq

inductive Action where
  | run (a : RunAction)
  | writer (a : WriterAction)
  | acceptUni
  | reader (i : Nat) (a : ReaderAction)
deriving DecidableEq

section Streams

variable {T : Type}

namespace SendStream

def opened (conn : Nat) : SendStream T := ⟨conn,[],none,[]⟩

def started (send : SendStream T) : List (T × Nat) := send.complete ++ send.torn.toList

def take (send : SendStream T) (item : T × Nat) : SendStream T := { send with torn := some item }

def write (send : SendStream T) (chunk rest : Bytes) : SendStream T :=
  match rest with
  | [] =>
      { send with
        complete := send.started
        torn := none
        written := send.written ++ chunk }
  | _ => { send with written := send.written ++ chunk }

end SendStream

def Writer.send : Writer T → Option (SendStream T)
  | .receiving send => some send
  | .writing send _ _ => some send
  | _ => none

namespace State

def init (rx : Receiver) : State T := ⟨.starting,backoffInitial,none,0,rx,.idle,[],[],[]⟩

def sendStreams (m : State T) : List (SendStream T) := m.streams ++ m.writer.send.toList

def enter (m : State T) (phase : RunPhase) : State T := { m with phase := phase }

def setWriter (m : State T) (writer : Writer T) : State T := { m with writer := writer }

def endWriter (m : State T) (writer : Writer T) : State T :=
  { m with streams := m.sendStreams, writer := writer }

def setReader (m : State T) (i : Nat) (r : Reader) : State T :=
  { m with readers := m.readers.set i r }

def branchDone (m : State T) (shutdown : Bool) : Branch → Bool
  | .readBundles => true
  | .readFilters => true
  | .mirrorBundlesOut =>
      match m.writer with
      | .returned => true
      | _ => false
  | .mirrorControl => shutdown

end State

end Streams

section Step

variable {T : Type} (c : Codec T) (shutdown : Bool) (contents : List T)

def runStep (m : State T) : RunAction → Option (State T)
  | .endpointOk =>
      match m.phase with
      | .starting => some (m.enter .looping)
      | _ => none
  | .endpointFailed =>
      match m.phase with
      | .starting => some (m.enter .stopped)
      | _ => none
  | .loopCheck =>
      match m.phase with
      | .looping => some (m.enter (if shutdown then .stopped else .connecting))
      | _ => none
  | .connectOk =>
      match m.phase with
      | .connecting =>
          some { m with
            phase := .serving m.nextConn
            backoff := backoffInitial
            conn := some m.nextConn
            nextConn := m.nextConn + 1
            writer := .opening }
      | _ => none
  | .connectFailed =>
      match m.phase with
      | .connecting => some (m.enter .pausing)
      | _ => none
  | .branchEnds branch =>
      match m.phase with
      | .serving conn =>
          if m.branchDone shutdown branch then some ((m.endWriter .idle).enter (.closing conn))
          else none
      | _ => none
  | .clear =>
      match m.phase with
      | .closing _ => some { m.enter .pausing with conn := none }
      | _ => none
  | .pauseCheck =>
      match m.phase with
      | .pausing => some (m.enter (if shutdown then .stopped else .sleeping))
      | _ => none
  | .wake =>
      match m.phase with
      | .sleeping => some { m.enter .looping with backoff := min (m.backoff * 2) backoffMax }
      | _ => none

def receiveStep (m : State T) (send : SendStream T) : Option (State T) :=
  match recv contents m.rx with
  | none => none
  | some (resp,rx) =>
      match c.encode resp with
      | none => some { m with rx := rx }
      | some buf =>
          some { m.setWriter (.writing (send.take (resp,m.rx.cursor)) (lenPrefix buf) buf) with
            rx := rx }

def writeStep (m : State T) (send : SendStream T) (len buf : Bytes) (n : Nat) :
    Option (State T) :=
  match len with
  | [] =>
      if 0 < n ∧ n ≤ buf.length then
        some (m.setWriter (.writing (send.write (buf.take n) (buf.drop n)) [] (buf.drop n)))
      else none
  | _ =>
      if 0 < n ∧ n ≤ len.length then
        some (m.setWriter
          (.writing (send.write (len.take n) (len.drop n ++ buf)) (len.drop n) buf))
      else none

def writerStep (m : State T) : WriterAction → Option (State T)
  | .openOk =>
      match m.phase, m.writer with
      | .serving conn, .opening => some (m.setWriter (.receiving (.opened conn)))
      | _, _ => none
  | .openFailed =>
      match m.writer with
      | .opening => some (m.endWriter .returned)
      | _ => none
  | .shutdown =>
      match m.writer with
      | .receiving _ => if shutdown then some (m.endWriter .returned) else none
      | _ => none
  | .recv =>
      match m.writer with
      | .receiving send => receiveStep c contents m send
      | _ => none
  | .lagged n =>
      match m.writer with
      | .receiving _ => (lag contents n m.rx).map fun rx => { m with rx := rx }
      | _ => none
  | .closed =>
      match m.writer with
      | .receiving _ => some (m.endWriter .returned)
      | _ => none
  | .write n =>
      match m.writer with
      | .writing send len buf => writeStep m send len buf n
      | _ => none
  | .writeFailed =>
      match m.writer with
      | .writing _ _ _ => some (m.endWriter .returned)
      | _ => none
  | .wrote =>
      match m.writer with
      | .writing send [] [] => some (m.setWriter (.receiving send))
      | _ => none

def acceptStep (m : State T) : Option (State T) :=
  match m.phase with
  | .serving conn => some { m with readers := m.readers ++ [⟨conn,.checking,[],[],false⟩] }
  | _ => none

def oversized (unread : Bytes) : Bool :=
  match readExact 4 unread with
  | none => false
  | some (header,_) => decide (maxBundleFrame < leValue header)

def frameStep (m : State T) (i : Nat) (r : Reader) : Option (State T × List T) :=
  match readBundleFrame r.unread with
  | none => none
  | some (buf,rest) =>
      let next := m.setReader i { r with phase := .checking, unread := rest }
      match c.decode buf with
      | none => some (next,[])
      | some resp =>
          some ({ next with delivered := m.delivered ++ [⟨i,r.conn,m.conn,resp⟩] },[resp])

def readerStep (m : State T) (i : Nat) (r : Reader) : ReaderAction → Option (State T × List T)
  | .arrive bytes =>
      if r.ended then none
      else some (m.setReader i
        { r with arrived := r.arrived ++ bytes, unread := r.unread ++ bytes },[])
  | .streamEnds => some (m.setReader i { r with ended := true },[])
  | .check =>
      match r.phase with
      | .checking =>
          some (m.setReader i { r with phase := if shutdown then .returned else .reading },[])
      | _ => none
  | .frame =>
      match r.phase with
      | .reading => frameStep c m i r
      | _ => none
  | .fail =>
      match r.phase with
      | .reading =>
          if (readBundleFrame r.unread).isNone && (r.ended || oversized r.unread) then
            some (m.setReader i { r with phase := .returned },[])
          else none
      | _ => none
  | .lost =>
      match r.phase with
      | .reading => some (m.setReader i { r with phase := .returned },[])
      | _ => none

def step (m : State T) : Action → Option (State T × List T)
  | .run a => (runStep shutdown m a).map fun t => (t,[])
  | .writer a => (writerStep c shutdown contents m a).map fun t => (t,[])
  | .acceptUni => (acceptStep m).map fun t => (t,[])
  | .reader i a =>
      match m.readers[i]? with
      | none => none
      | some r => readerStep c shutdown m i r a

end Step

structure System (T : Type) where
  shutdown : Bool
  sent : List T
  mirror : State T

namespace System

variable {T : Type}

inductive Action (T : Type) where
  | exit
  | broadcast (resp : T)
  | mirror (a : Mirror.Action)

def init (before : List T) : System T := ⟨false,before,State.init (subscribe before)⟩

def step (c : Codec T) (s : System T) : Action T → Option (System T)
  | .exit => some { s with shutdown := true }
  | .broadcast resp => some { s with sent := s.sent ++ [resp] }
  | .mirror a => (Mirror.step c s.shutdown s.sent s.mirror a).map fun t => { s with mirror := t.1 }

end System

end InertiaRelayer.Mirror
