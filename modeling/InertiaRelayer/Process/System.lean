import InertiaRelayer.Blockengine.Shutdown
import InertiaRelayer.Relayer.Shutdown
import InertiaRelayer.Relayer.StakeRefresh

namespace InertiaRelayer.Process
open Machine Proxy

inductive SlotPhase where
  | looping
  | subscribing
  | receiving
  | waiting
  | pausing
  | sleeping
  | ended
deriving DecidableEq

inductive SlotAction where
  | loopCheck
  | subscribeOk
  | subscribeFailed
  | recvCheck
  | recvSlot (slot : Nat)
  | recvTimeout
  | recvDisconnected
  | pauseCheck
  | wake

def slotStep (exit : Bool) (phase : SlotPhase) : SlotAction → Option SlotPhase
  | .loopCheck =>
      match phase with
      | .looping => some (if exit then .ended else .subscribing)
      | _ => none
  | .subscribeOk =>
      match phase with
      | .subscribing => some .receiving
      | _ => none
  | .subscribeFailed =>
      match phase with
      | .subscribing => some .pausing
      | _ => none
  | .recvCheck =>
      match phase with
      | .receiving => some (if exit then .pausing else .waiting)
      | _ => none
  | .recvSlot _ =>
      match phase with
      | .waiting => some .receiving
      | _ => none
  | .recvTimeout | .recvDisconnected =>
      match phase with
      | .waiting => some .pausing
      | _ => none
  | .pauseCheck =>
      match phase with
      | .pausing => some (if exit then .looping else .sleeping)
      | _ => none
  | .wake =>
      match phase with
      | .sleeping => some .looping
      | _ => none

structure Tpu where
  snus : StakedNodesUpdater.Updater
  refreshing : Bool
  cancelled : Bool
  quic : Bool
  quicFwd : Bool
  sigverify : Bool

-- When the QUIC servers and the sigverify stage end is decided outside this repository.
structure TpuEnds where
  quic : Tpu → Bool
  quicFwd : Tpu → Bool
  sigverify : Tpu → Bool → Bool

structure Config where
  keyText : Pubkey → String
  addrText : IpAddr → String
  codec : Mirror.Codec SubscribeBundlesResponse
  fromStr : String → Option Pubkey
  overrides : KeyMap Pubkey Nat
  ends : TpuEnds
  mayReturn : List Nat → Bool

inductive TpuAction where
  | snusCheck
  | snus (i : StakedNodesUpdater.Iteration String)
  | cancel
  | quicEnds
  | quicFwdEnds
  | sigverifyEnds

def tpuStep (c : Config) (exit receiverGone : Bool) (tpu : Tpu) : TpuAction → Option Tpu
  | .snusCheck =>
      if tpu.refreshing || tpu.snus.exited then none
      else if exit then some { tpu with snus := { tpu.snus with exited := true } }
      else some { tpu with refreshing := true }
  | .snus i =>
      if tpu.refreshing && !i.exit then
        (StakedNodesUpdater.step c.fromStr c.overrides tpu.snus i).map fun u =>
          { tpu with snus := u, refreshing := false }
      else none
  | .cancel => if exit then some { tpu with cancelled := true } else none
  | .quicEnds => if c.ends.quic tpu then some { tpu with quic := true } else none
  | .quicFwdEnds => if c.ends.quicFwd tpu then some { tpu with quicFwd := true } else none
  | .sigverifyEnds =>
      if c.ends.sigverify tpu receiverGone then some { tpu with sigverify := true } else none

def Tpu.ended (tpu : Tpu) : Bool :=
  tpu.snus.exited && tpu.quic && tpu.quicFwd && tpu.sigverify

inductive Server where
  | serving
  | draining
  | returned
deriving DecidableEq

inductive Main where
  | relayerJoin
  | blockengineJoin
  | proxyJoin
  | rpcTask
  | relayerTask
  | proxyDelayTask
  | returned
  | aborted
deriving DecidableEq

def Main.halted : Main → Bool
  | .returned | .aborted => true
  | _ => false

def streaming (f : Forwarder.State) (ch : Nat) : Bool :=
  (f.channels ch).isOpen && (!(f.channels ch).queue.isEmpty ||
    (Forwarder.subscribers f.subscriptions).any (fun e => e.2 = ch) ||
    f.loop.pending.any (fun o => o.sender = ch))

def subscriberStreams (f : Forwarder.State) : List Nat :=
  (List.range f.nextChannel).filter (streaming f)

def unfinished {T : Type} (st : Blockengine.Stream T) : Bool :=
  match st.phase with
  | .subscribing => true
  | .serving => !st.ended
  | _ => false

def proxyStreams {T : Type} (b : Blockengine.State T) : List Nat :=
  (List.range b.nextStream).filter fun i => unfinished (b.streams i)

structure State (π : Type) where
  signalled : Bool
  panicked : Bool
  relayer : Pipeline.State π
  packets : Blockengine.State SubscribePacketsResponse
  bundles : Blockengine.State SubscribeBundlesResponse
  tpu : Tpu
  slots : SlotPhase
  relayerServer : Server
  blockengineServer : Server
  main : Main

inductive Action (π : Type) where
  | signal
  | panic
  | processExit
  | relayerShutdown
  | relayerServed
  | blockengineShutdown
  | blockengineServed
  | relayer (a : Pipeline.Action π)
  | storeExit
  | packets (a : Blockengine.Action SubscribePacketsResponse)
  | bundles (a : Blockengine.Action SubscribeBundlesResponse)
  | watch
  | tpu (a : TpuAction)
  | slots (a : SlotAction)
  | join

section Step

variable {π : Type} [PacketRef π]

def init (started : Nat) : State π where
  signalled := false
  panicked := false
  relayer := Pipeline.init
  packets := Blockengine.init
  bundles := Blockengine.init
  tpu := ⟨StakedNodesUpdater.start started,false,false,false,false,false⟩
  slots := .looping
  relayerServer := .serving
  blockengineServer := .serving
  main := .relayerJoin

namespace State

def exit (s : State π) : Bool := s.relayer.exit

def storeExit (s : State π) : State π :=
  { s with
    relayer := { s.relayer with exit := true }
    packets := { s.packets with exit := true }
    bundles := { s.bundles with exit := true } }

def sendShutdown (s : State π) : State π :=
  { s with
    packets := { s.packets with shutdown := true }
    bundles := { s.bundles with shutdown := true } }

def canRelay (s : State π) : Pipeline.Action π → Bool
  | .signal | .storeExit => false
  | .delay .recvDisconnected => s.tpu.sigverify
  | .forwarder (.subscribePackets _) => decide (s.relayerServer = .serving)
  | _ => true

def canServe {T : Type} (s : State π) : Blockengine.Action T → Bool
  | .exit | .watch => false
  | .subscribe => decide (s.blockengineServer = .serving)
  | .delay .closed => decide (s.blockengineServer = .returned)
  | _ => true

def receiverGone (s : State π) : Bool := decide (s.relayer.delay.phase = .ended)

def proxyEnded (s : State π) : Bool :=
  decide (s.bundles.mirror.phase = .stopped ∧ s.packets.delay.phase = .ended ∧
    s.bundles.delay.phase = .ended)

def joined (s : State π) : Option Main :=
  match s.main with
  | .relayerJoin => if s.relayerServer = .returned then some .blockengineJoin else none
  | .blockengineJoin => if s.blockengineServer = .returned then some .proxyJoin else none
  | .proxyJoin => if s.proxyEnded then some .rpcTask else none
  | .rpcTask => if s.slots = .ended then some .relayerTask else none
  | .relayerTask =>
      if s.tpu.ended ∧ s.relayer.forwarder.loop = .stopped then some .proxyDelayTask else none
  | .proxyDelayTask => if s.relayer.delay.phase = .ended then some .returned else none
  | .returned | .aborted => none

end State

variable (c : Config)

def runningStep (s : State π) : Action π → Option (State π)
  | .signal => some { s with signalled := true }
  | .panic => some { s.storeExit with panicked := true }
  | .processExit => if s.panicked then some { s with main := .aborted } else none
  | .relayerShutdown =>
      if s.signalled ∧ s.relayerServer = .serving then
        some { s.storeExit with relayerServer := .draining }
      else none
  | .relayerServed =>
      if s.relayerServer = .draining ∧ c.mayReturn (subscriberStreams s.relayer.forwarder) then
        some { s with relayerServer := .returned }
      else none
  | .blockengineShutdown =>
      if s.signalled ∧ s.blockengineServer = .serving then
        some { s.storeExit with blockengineServer := .draining }
      else none
  | .blockengineServed =>
      if s.blockengineServer = .draining ∧
          c.mayReturn (proxyStreams s.packets ++ proxyStreams s.bundles) then
        some { s with blockengineServer := .returned }
      else none
  | .relayer a =>
      if s.canRelay a then
        (Pipeline.step c.keyText c.addrText s.relayer a).map fun r => { s with relayer := r }
      else none
  | .storeExit => if s.relayer.failed && !s.exit then some s.storeExit else none
  | .packets a =>
      if s.canServe a then
        (Blockengine.step Blockengine.packetWiring s.packets a).map fun b => { s with packets := b }
      else none
  | .bundles a =>
      if s.canServe a then
        (Blockengine.step (Blockengine.bundleWiring c.codec) s.bundles a).map fun b =>
          { s with bundles := b }
      else none
  | .watch => if s.exit then some s.sendShutdown else none
  | .tpu a =>
      (tpuStep c s.exit s.receiverGone s.tpu a).map fun tpu => { s with tpu := tpu }
  | .slots a => (slotStep s.exit s.slots a).map fun slots => { s with slots := slots }
  | .join => s.joined.map fun main => { s with main := main }

def step (s : State π) (a : Action π) : Option (State π) :=
  if s.main.halted then none else runningStep c s a

end Step

section TpuEffects

variable (c : Config) (exit receiverGone : Bool)

inductive TpuEffect (tpu : Tpu) : TpuAction → Tpu → Prop
  | left (hidle : tpu.refreshing = false) (hrunning : tpu.snus.exited = false)
      (hexit : exit = true) :
      TpuEffect tpu .snusCheck { tpu with snus := { tpu.snus with exited := true } }
  | entered (hrunning : tpu.snus.exited = false) (hexit : exit = false) :
      TpuEffect tpu .snusCheck { tpu with refreshing := true }
  | refreshed (i : StakedNodesUpdater.Iteration String) (u : StakedNodesUpdater.Updater)
      (hstep : StakedNodesUpdater.step c.fromStr c.overrides tpu.snus i = some u) :
      TpuEffect tpu (.snus i) { tpu with snus := u, refreshing := false }
  | cancelled (hexit : exit = true) : TpuEffect tpu .cancel { tpu with cancelled := true }
  | quicEnded (hends : c.ends.quic tpu = true) : TpuEffect tpu .quicEnds { tpu with quic := true }
  | quicFwdEnded (hends : c.ends.quicFwd tpu = true) :
      TpuEffect tpu .quicFwdEnds { tpu with quicFwd := true }
  | sigverifyEnded (hends : c.ends.sigverify tpu receiverGone = true) :
      TpuEffect tpu .sigverifyEnds { tpu with sigverify := true }

variable {c exit receiverGone} {tpu next : Tpu} {a : TpuAction}

theorem tpuStep_effect (hstep : tpuStep c exit receiverGone tpu a = some next) :
    TpuEffect c exit receiverGone tpu a next := by
  cases a with
  | snusCheck =>
    obtain ⟨hidle,hstep⟩ := Option.ite_none_left_eq_some.mp hstep
    obtain ⟨hrefreshing,hrunning⟩ : tpu.refreshing = false ∧ tpu.snus.exited = false := by
      simpa using hidle
    split at hstep
    · rename_i hexit
      cases hstep
      exact .left hrefreshing hrunning hexit
    · rename_i hexit
      cases hstep
      exact .entered hrunning (by simpa using hexit)
  | snus i =>
    obtain ⟨_,hmap⟩ := Option.ite_none_right_eq_some.mp hstep
    obtain ⟨u,hu,rfl⟩ := Option.map_eq_some_iff.mp hmap
    exact .refreshed i u hu
  | cancel =>
    obtain ⟨hexit,heq⟩ := Option.ite_none_right_eq_some.mp hstep
    cases heq
    exact .cancelled hexit
  | quicEnds =>
    obtain ⟨hends,heq⟩ := Option.ite_none_right_eq_some.mp hstep
    cases heq
    exact .quicEnded hends
  | quicFwdEnds =>
    obtain ⟨hends,heq⟩ := Option.ite_none_right_eq_some.mp hstep
    cases heq
    exact .quicFwdEnded hends
  | sigverifyEnds =>
    obtain ⟨hends,heq⟩ := Option.ite_none_right_eq_some.mp hstep
    cases heq
    exact .sigverifyEnded hends

end TpuEffects

section Effects

variable {π : Type} [PacketRef π] (c : Config)

inductive Effect (s : State π) : Action π → State π → Prop
  | signalled : Effect s .signal { s with signalled := true }
  | panicked : Effect s .panic { s.storeExit with panicked := true }
  | aborted (hp : s.panicked = true) : Effect s .processExit { s with main := .aborted }
  | relayerShutdown (hs : s.signalled = true) (hserver : s.relayerServer = .serving) :
      Effect s .relayerShutdown { s.storeExit with relayerServer := .draining }
  | relayerServed (hserver : s.relayerServer = .draining)
      (hstreams : c.mayReturn (subscriberStreams s.relayer.forwarder) = true) :
      Effect s .relayerServed { s with relayerServer := .returned }
  | blockengineShutdown (hs : s.signalled = true) (hserver : s.blockengineServer = .serving) :
      Effect s .blockengineShutdown { s.storeExit with blockengineServer := .draining }
  | blockengineServed (hserver : s.blockengineServer = .draining) :
      Effect s .blockengineServed { s with blockengineServer := .returned }
  | relayed (a : Pipeline.Action π) (r : Pipeline.State π) (ha : s.canRelay a = true)
      (hstep : Pipeline.step c.keyText c.addrText s.relayer a = some r) :
      Effect s (.relayer a) { s with relayer := r }
  | failed (hf : s.relayer.failed = true) (hexit : s.exit = false) : Effect s .storeExit s.storeExit
  | packets (a : Blockengine.Action SubscribePacketsResponse)
      (b : Blockengine.State SubscribePacketsResponse) (ha : s.canServe a = true)
      (hstep : Blockengine.step Blockengine.packetWiring s.packets a = some b) :
      Effect s (.packets a) { s with packets := b }
  | bundles (a : Blockengine.Action SubscribeBundlesResponse)
      (b : Blockengine.State SubscribeBundlesResponse) (ha : s.canServe a = true)
      (hstep : Blockengine.step (Blockengine.bundleWiring c.codec) s.bundles a = some b) :
      Effect s (.bundles a) { s with bundles := b }
  | watched (hexit : s.exit = true) : Effect s .watch s.sendShutdown
  | tpu (a : TpuAction) (tpu : Tpu)
      (hstep : tpuStep c s.exit s.receiverGone s.tpu a = some tpu) :
      Effect s (.tpu a) { s with tpu := tpu }
  | slots (a : SlotAction) (slots : SlotPhase) (hstep : slotStep s.exit s.slots a = some slots) :
      Effect s (.slots a) { s with slots := slots }
  | joined (main : Main) (hjoin : s.joined = some main) : Effect s .join { s with main := main }

variable {c} {s t : State π} {a : Action π}

theorem step_effect (hstep : step c s a = some t) : Effect c s a t ∧ s.main.halted = false := by
  unfold step at hstep
  split at hstep
  · cases hstep
  · rename_i hhalted
    refine ⟨?_,by simpa using hhalted⟩
    cases a with
    | signal =>
      cases hstep
      exact .signalled
    | panic =>
      cases hstep
      exact .panicked
    | processExit =>
      obtain ⟨hp,heq⟩ := Option.ite_none_right_eq_some.mp hstep
      cases heq
      exact .aborted hp
    | relayerShutdown =>
      obtain ⟨⟨hs,hserver⟩,heq⟩ := Option.ite_none_right_eq_some.mp hstep
      cases heq
      exact .relayerShutdown hs hserver
    | relayerServed =>
      obtain ⟨⟨hserver,hstreams⟩,heq⟩ := Option.ite_none_right_eq_some.mp hstep
      cases heq
      exact .relayerServed hserver hstreams
    | blockengineShutdown =>
      obtain ⟨⟨hs,hserver⟩,heq⟩ := Option.ite_none_right_eq_some.mp hstep
      cases heq
      exact .blockengineShutdown hs hserver
    | blockengineServed =>
      obtain ⟨⟨hserver,_⟩,heq⟩ := Option.ite_none_right_eq_some.mp hstep
      cases heq
      exact .blockengineServed hserver
    | relayer a =>
      obtain ⟨ha,hmap⟩ := Option.ite_none_right_eq_some.mp hstep
      obtain ⟨r,hr,rfl⟩ := Option.map_eq_some_iff.mp hmap
      exact .relayed a r ha hr
    | storeExit =>
      obtain ⟨hf,heq⟩ := Option.ite_none_right_eq_some.mp hstep
      cases heq
      obtain ⟨hf,hexit⟩ := Bool.and_eq_true_iff.mp hf
      exact .failed hf (by simpa using hexit)
    | packets a =>
      obtain ⟨ha,hmap⟩ := Option.ite_none_right_eq_some.mp hstep
      obtain ⟨b,hb,rfl⟩ := Option.map_eq_some_iff.mp hmap
      exact .packets a b ha hb
    | bundles a =>
      obtain ⟨ha,hmap⟩ := Option.ite_none_right_eq_some.mp hstep
      obtain ⟨b,hb,rfl⟩ := Option.map_eq_some_iff.mp hmap
      exact .bundles a b ha hb
    | watch =>
      obtain ⟨hexit,heq⟩ := Option.ite_none_right_eq_some.mp hstep
      cases heq
      exact .watched hexit
    | tpu a =>
      obtain ⟨tpu,htpu,rfl⟩ := Option.map_eq_some_iff.mp hstep
      exact .tpu a tpu htpu
    | slots a =>
      obtain ⟨slots,hslots,rfl⟩ := Option.map_eq_some_iff.mp hstep
      exact .slots a slots hslots
    | join =>
      obtain ⟨main,hmain,rfl⟩ := Option.map_eq_some_iff.mp hstep
      exact .joined main hmain

end Effects

section Assumptions

structure EndsForCause (e : TpuEnds) : Prop where
  quic : ∀ tpu, e.quic tpu = true → tpu.cancelled = true ∨ tpu.sigverify = true
  quicFwd : ∀ tpu, e.quicFwd tpu = true → tpu.cancelled = true ∨ tpu.sigverify = true
  sigverify : ∀ tpu receiverGone, e.sigverify tpu receiverGone = true →
    tpu.quic = true ∧ tpu.quicFwd = true ∨ receiverGone = true

structure EndsWhenCancelled (e : TpuEnds) : Prop where
  quic : ∀ tpu, tpu.cancelled = true → e.quic tpu = true
  quicFwd : ∀ tpu, tpu.cancelled = true → e.quicFwd tpu = true
  sigverify : ∀ tpu receiverGone, tpu.quic = true → tpu.quicFwd = true →
    e.sigverify tpu receiverGone = true

def ReturnsWhenDrained (c : Config) : Prop := c.mayReturn [] = true

def ReturnsOnlyDrained (c : Config) : Prop := ∀ streams, c.mayReturn streams = true → streams = []

end Assumptions

end InertiaRelayer.Process
