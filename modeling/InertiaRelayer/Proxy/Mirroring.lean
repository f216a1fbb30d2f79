import InertiaRelayer.Blockengine.Pipeline
import InertiaRelayer.Library.Component
import InertiaRelayer.Proxy.Hooks
import InertiaRelayer.Relayer.Pipeline

namespace InertiaRelayer.Mirroring
open Broadcast Machine Component Proxy Hooks
open Blockengine (Sent packetWiring)

def relayerThread : Nat := 0

def mirrorBePackets (resp : SubscribePacketsResponse) : List Call :=
  match resp.batch with
  | none => []
  | some batch => batch.packets.map fun packet => (Datagrams.sourceBlockengine,packet.data)

abbrev Received := Sent SubscribePacketsResponse

def mirrorReceived (x : Received) : List Call := mirrorBePackets x.item

structure State (π : Type) where
  relayer : Pipeline.State π
  packets : Blockengine.State SubscribePacketsResponse
  batch : Option (Hook (BankingPacketBatch π))
  resp : Option (Hook Received)
  mirror : Datagrams.State

inductive Action (π : Type) where
  | relayer (a : Pipeline.Action π)
  | recvBatch (batch : BankingPacketBatch π)
  | mirrorBatch
  | queueBatch (received : Nat)
  | packets (a : Blockengine.Action SubscribePacketsResponse)
  | recvPackets (h : Nat)
  | mirrorPackets
  | queuePackets (received : Nat)
  | mirror (a : Datagrams.Action)

section Step

variable {π : Type} [PacketRef π]

def init : State π := ⟨Pipeline.init,Blockengine.init,none,none,Datagrams.init⟩

namespace State

variable (s : State π)

def batchPort : Port (BankingPacketBatch π) := ⟨s.batch,s.mirror⟩

def respPort : Port Received := ⟨s.resp,s.mirror⟩

def canRelay : Pipeline.Action π → Bool
  | .delay (.recvOk ..) => false
  | .delay _ => s.batch.isNone
  | _ => true

def canServe : Blockengine.Action SubscribePacketsResponse → Bool
  | .delay (.recv _) => false
  | .delay _ => s.resp.isNone
  | _ => true

def canMirror : Datagrams.Action → Bool
  | .send h source _ => decide (source = Datagrams.sourceControl) && decide (h ≠ relayerThread) &&
      s.resp.all fun k => decide (k.thread ≠ h)
  | _ => true

def onBatch (a : Hooks.Action (BankingPacketBatch π)) : Option (State π) :=
  (Hooks.step mirrorBankingBatch s.batchPort a).map fun p => { s with batch := p.hook, mirror := p.mirror }

def onPackets (a : Hooks.Action Received) : Option (State π) :=
  (Hooks.step mirrorReceived s.respPort a).map fun p => { s with resp := p.hook, mirror := p.mirror }

end State

variable (keyText : Pubkey → String) (addrText : IpAddr → String)

def relay (s : State π) (a : Pipeline.Action π) : Option (State π) :=
  (Pipeline.step keyText addrText s.relayer a).map fun r => { s with relayer := r }

def serve (s : State π) (a : Blockengine.Action SubscribePacketsResponse) : Option (State π) :=
  (Blockengine.step packetWiring s.packets a).map fun b => { s with packets := b }

def step (s : State π) : Action π → Option (State π)
  | .relayer a => if s.canRelay a then relay keyText addrText s a else none
  | .recvBatch batch =>
      match s.relayer.delay.phase with
      | .waiting _ => s.onBatch (.enter batch relayerThread)
      | _ => none
  | .mirrorBatch => s.onBatch .call
  | .queueBatch received => do
      let k ← s.batch
      let s ← s.onBatch .leave
      relay keyText addrText s (.delay (.recvOk received k.item))
  | .packets a => if s.canServe a then serve s a else none
  | .recvPackets h => do
      let (x,_) ← recv s.packets.inbound s.packets.delayRx
      if s.packets.delay.phase = .receiving ∧ h ≠ relayerThread then s.onPackets (.enter x h)
      else none
  | .mirrorPackets => s.onPackets .call
  | .queuePackets received => do
      let s ← s.onPackets .leave
      serve s (.delay (.recv received))
  | .mirror a =>
      if s.canMirror a then
        (Datagrams.step s.mirror a).map fun m => { s with mirror := m }
      else none

end Step

section Effects

variable {π : Type} [PacketRef π] (keyText : Pubkey → String) (addrText : IpAddr → String)

inductive Effect (s : State π) : Action π → State π → Prop
  | relayed (a : Pipeline.Action π) (r : Pipeline.State π) (hcan : s.canRelay a = true)
      (hstep : Pipeline.step keyText addrText s.relayer a = some r) :
      Effect s (.relayer a) { s with relayer := r }
  | batchTaken (batch : BankingPacketBatch π) (p : Port (BankingPacketBatch π))
      (hstep : Hooks.step mirrorBankingBatch s.batchPort (.enter batch relayerThread) = some p) :
      Effect s (.recvBatch batch) { s with batch := p.hook, mirror := p.mirror }
  | batchCalled (p : Port (BankingPacketBatch π))
      (hstep : Hooks.step mirrorBankingBatch s.batchPort .call = some p) :
      Effect s .mirrorBatch { s with batch := p.hook, mirror := p.mirror }
  | batchQueued (received : Nat) (k : Hook (BankingPacketBatch π))
      (p : Port (BankingPacketBatch π)) (r : Pipeline.State π) (hk : s.batch = some k)
      (hleave : Hooks.step mirrorBankingBatch s.batchPort .leave = some p)
      (hstep : Pipeline.step keyText addrText s.relayer (.delay (.recvOk received k.item)) =
        some r) :
      Effect s (.queueBatch received)
        { s with relayer := r, batch := p.hook, mirror := p.mirror }
  | served (a : Blockengine.Action SubscribePacketsResponse)
      (b : Blockengine.State SubscribePacketsResponse) (hcan : s.canServe a = true)
      (hstep : Blockengine.step packetWiring s.packets a = some b) :
      Effect s (.packets a) { s with packets := b }
  | respTaken (h : Nat) (x : Received) (rx : Receiver) (p : Port Received)
      (hrecv : recv s.packets.inbound s.packets.delayRx = some (x,rx)) (hne : h ≠ relayerThread)
      (hstep : Hooks.step mirrorReceived s.respPort (.enter x h) = some p) :
      Effect s (.recvPackets h) { s with resp := p.hook, mirror := p.mirror }
  | respCalled (p : Port Received) (hstep : Hooks.step mirrorReceived s.respPort .call = some p) :
      Effect s .mirrorPackets { s with resp := p.hook, mirror := p.mirror }
  | respQueued (received : Nat) (p : Port Received)
      (b : Blockengine.State SubscribePacketsResponse)
      (hleave : Hooks.step mirrorReceived s.respPort .leave = some p)
      (hstep : Blockengine.step packetWiring s.packets (.delay (.recv received)) = some b) :
      Effect s (.queuePackets received) { s with packets := b, resp := p.hook, mirror := p.mirror }
  | mirrored (a : Datagrams.Action) (m : Datagrams.State) (hcan : s.canMirror a = true)
      (hstep : Datagrams.step s.mirror a = some m) : Effect s (.mirror a) { s with mirror := m }

variable {keyText addrText} {s t : State π} {a : Action π}

theorem step_effect (hstep : step keyText addrText s a = some t) :
    Effect keyText addrText s a t := by
  cases a with
  | relayer a =>
    obtain ⟨hcan,hstep⟩ := Option.ite_none_right_eq_some.mp hstep
    obtain ⟨r,hr,rfl⟩ := Option.map_eq_some_iff.mp hstep
    exact .relayed a r hcan hr
  | recvBatch batch =>
    simp only [step] at hstep
    split at hstep
    · obtain ⟨p,hp,rfl⟩ := Option.map_eq_some_iff.mp hstep
      exact .batchTaken batch p hp
    · cases hstep
  | mirrorBatch =>
    obtain ⟨p,hp,rfl⟩ := Option.map_eq_some_iff.mp hstep
    exact .batchCalled p hp
  | queueBatch received =>
    obtain ⟨k,hk,hstep⟩ := Option.bind_eq_some_iff.mp hstep
    obtain ⟨u,hu,hstep⟩ := Option.bind_eq_some_iff.mp hstep
    obtain ⟨p,hp,rfl⟩ := Option.map_eq_some_iff.mp hu
    obtain ⟨r,hr,rfl⟩ := Option.map_eq_some_iff.mp hstep
    exact .batchQueued received k p r hk hp hr
  | packets a =>
    obtain ⟨hcan,hstep⟩ := Option.ite_none_right_eq_some.mp hstep
    obtain ⟨b,hb,rfl⟩ := Option.map_eq_some_iff.mp hstep
    exact .served a b hcan hb
  | recvPackets h =>
    obtain ⟨⟨x,rx⟩,hrecv,hstep⟩ := Option.bind_eq_some_iff.mp hstep
    obtain ⟨⟨_,hne⟩,hstep⟩ := Option.ite_none_right_eq_some.mp hstep
    obtain ⟨p,hp,rfl⟩ := Option.map_eq_some_iff.mp hstep
    exact .respTaken h x rx p hrecv hne hp
  | mirrorPackets =>
    obtain ⟨p,hp,rfl⟩ := Option.map_eq_some_iff.mp hstep
    exact .respCalled p hp
  | queuePackets received =>
    obtain ⟨u,hu,hstep⟩ := Option.bind_eq_some_iff.mp hstep
    obtain ⟨p,hp,rfl⟩ := Option.map_eq_some_iff.mp hu
    obtain ⟨b,hb,rfl⟩ := Option.map_eq_some_iff.mp hstep
    exact .respQueued received p b hp hb
  | mirror a =>
    obtain ⟨hcan,hstep⟩ := Option.ite_none_right_eq_some.mp hstep
    obtain ⟨m,hm,rfl⟩ := Option.map_eq_some_iff.mp hstep
    exact .mirrored a m hcan hm

end Effects

section Threads

variable {π : Type} [PacketRef π] {keyText : Pubkey → String} {addrText : IpAddr → String}
  {s t : State π} {a : Action π}

structure Threads (s : State π) : Prop where
  batch : ∀ k, s.batch = some k → k.thread = relayerThread
  resp : ∀ k, s.resp = some k → k.thread ≠ relayerThread
  taken : ∀ k, s.resp = some k →
    ∃ rx, recv s.packets.inbound s.packets.delayRx = some (k.item,rx)

omit [PacketRef π] in
theorem threads_init : Threads (init : State π) :=
  ⟨fun _ hk => (by cases hk),fun _ hk => (by cases hk),fun _ hk => (by cases hk)⟩

omit [PacketRef π] in
theorem serves_aside {a : Blockengine.Action SubscribePacketsResponse} {k : Hook Received}
    (hcan : s.canServe a = true) (hk : s.resp = some k) (d : Blockengine.DelayAction) :
    a ≠ .delay d := by
  rintro rfl
  cases d <;> simp [State.canServe, hk] at hcan

theorem recv_kept {T : Type} {w : Blockengine.Wiring T} {b c : Blockengine.State T}
    {a : Blockengine.Action T} {x : Sent T} {rx : Receiver} (ha : ∀ d, a ≠ .delay d)
    (hr : recv b.inbound b.delayRx = some (x,rx)) (hstep : Blockengine.step w b a = some c) :
    recv c.inbound c.delayRx = some (x,rx) := by
  cases Blockengine.step_effect hstep with
  | pumped i item hp => exact recv_append hr _
  | delayed d => exact absurd rfl (ha d)
  | _ => exact hr

theorem threads_step (hs : Threads s) (hstep : step keyText addrText s a = some t) : Threads t := by
  cases step_effect hstep with
  | relayed | mirrored => exact ⟨hs.batch,hs.resp,hs.taken⟩
  | batchTaken batch p hp =>
    cases Hooks.step_effect hp with
    | entered item h hnone hidle =>
      refine ⟨?_,hs.resp,hs.taken⟩
      rintro k ⟨⟩
      rfl
  | batchCalled p hp =>
    cases Hooks.step_effect hp with
    | called k call m hk hcall hm =>
      refine ⟨?_,hs.resp,hs.taken⟩
      rintro k' ⟨⟩
      exact hs.batch k hk
  | batchQueued received k p r hk hleave hr =>
    cases Hooks.step_effect hleave with
    | left k hk hret => exact ⟨fun _ hk => (by cases hk),hs.resp,hs.taken⟩
  | served a b hcan hb =>
    refine ⟨hs.batch,hs.resp,fun k hk => ?_⟩
    obtain ⟨rx,hr⟩ := hs.taken k hk
    exact ⟨rx,recv_kept (serves_aside hcan hk) hr hb⟩
  | respTaken h x rx p hrecv hne hp =>
    cases Hooks.step_effect hp with
    | entered item h hnone hidle =>
      refine ⟨hs.batch,?_,?_⟩
      · rintro k ⟨⟩
        exact hne
      · rintro k ⟨⟩
        exact ⟨rx,hrecv⟩
  | respCalled p hp =>
    cases Hooks.step_effect hp with
    | called k call m hk hcall hm =>
      refine ⟨hs.batch,?_,?_⟩
      · rintro k' ⟨⟩
        exact hs.resp k hk
      · rintro k' ⟨⟩
        exact hs.taken k hk
  | respQueued received p b hleave hb =>
    cases Hooks.step_effect hleave with
    | left k hk hret => exact ⟨hs.batch,fun _ hk => (by cases hk),fun _ hk => (by cases hk)⟩

end Threads

section Components

variable {π : Type} [PacketRef π]

def relayerAct (s : State π) : Action π → Option (Pipeline.Action π)
  | .relayer a => some a
  | .queueBatch received => s.batch.map fun k => .delay (.recvOk received k.item)
  | _ => none

def packetsAct (_ : State π) : Action π → Option (Blockengine.Action SubscribePacketsResponse)
  | .packets a => some a
  | .queuePackets received => some (.delay (.recv received))
  | _ => none

def batchAct (s : State π) : Action π → Option (Hooks.Action (BankingPacketBatch π))
  | .recvBatch batch => some (.enter batch relayerThread)
  | .mirrorBatch => some .call
  | .queueBatch _ => some .leave
  | .mirrorPackets => (s.respPort.sending mirrorReceived).map .mirror
  | .mirror a => some (.mirror a)
  | _ => none

def respAct (s : State π) : Action π → Option (Hooks.Action Received)
  | .recvPackets h => (recv s.packets.inbound s.packets.delayRx).map fun x => .enter x.1 h
  | .mirrorPackets => some .call
  | .queuePackets _ => some .leave
  | .mirrorBatch => (s.batchPort.sending mirrorBankingBatch).map .mirror
  | .mirror a => some (.mirror a)
  | _ => none

variable (keyText : Pubkey → String) (addrText : IpAddr → String)

theorem relayer_projects : Projects (step (π := π) keyText addrText) (Pipeline.step keyText addrText)
    Threads State.relayer relayerAct where
  keeps _ _ _ := threads_step
  rests s a t hs hstep hact := by
    cases step_effect hstep with
    | relayed => cases hact
    | batchQueued received k p r hk hleave hr => simp [relayerAct, hk] at hact
    | _ => rfl
  moves s a t b hs hstep hact := by
    cases step_effect hstep with
    | relayed a r hcan hr =>
      cases hact
      exact hr
    | batchQueued received k p r hk hleave hr =>
      simp only [relayerAct, hk, Option.map_some, Option.some.injEq] at hact
      exact hact ▸ hr
    | _ => cases hact

theorem packets_projects : Projects (step (π := π) keyText addrText)
    (Blockengine.step packetWiring) Threads State.packets packetsAct where
  keeps _ _ _ := threads_step
  rests s a t hs hstep hact := by
    cases step_effect hstep with
    | served => cases hact
    | respQueued => cases hact
    | _ => rfl
  moves s a t b hs hstep hact := by
    cases step_effect hstep with
    | served a b hcan hb =>
      cases hact
      exact hb
    | respQueued received p b hleave hb =>
      cases hact
      exact hb
    | _ => cases hact

omit [PacketRef π] in
theorem batch_aside {s : State π} {a : Datagrams.Action} (hs : Threads s)
    (ha : Hooks.calls relayerThread a = false) :
    ∀ k, s.batchPort.hook = some k → Hooks.calls k.thread a = false := by
  intro k hk
  rw [hs.batch k hk]
  exact ha

omit [PacketRef π] in
theorem mirror_aside {s : State π} {a : Datagrams.Action} (hcan : s.canMirror a = true) :
    Hooks.calls relayerThread a = false ∧
      ∀ k, s.respPort.hook = some k → Hooks.calls k.thread a = false := by
  cases a with
  | send h source data =>
    obtain ⟨hcontrol,hresp⟩ := Bool.and_eq_true_iff.mp hcan
    obtain ⟨_,hne⟩ := Bool.and_eq_true_iff.mp hcontrol
    refine ⟨decide_eq_false (of_decide_eq_true hne),fun k hk => ?_⟩
    have hk : s.resp = some k := hk
    rw [hk] at hresp
    exact decide_eq_false (Ne.symm (of_decide_eq_true hresp))
  | _ => exact ⟨rfl,fun _ _ => rfl⟩

theorem batch_projects : Projects (step (π := π) keyText addrText) (Hooks.step mirrorBankingBatch)
    Threads State.batchPort batchAct where
  keeps _ _ _ := threads_step
  rests s a t hs hstep hact := by
    cases step_effect hstep with
    | relayed | served => rfl
    | respTaken h x rx p hrecv hne hp =>
      cases Hooks.step_effect hp with
      | entered => rfl
    | respCalled p hp =>
      cases Hooks.step_effect hp with
      | called k call m hk hcall hm => simp [batchAct, Port.sending, hk, hcall] at hact
    | respQueued received p b hleave hb =>
      cases Hooks.step_effect hleave with
      | left => rfl
    | _ => cases hact
  moves s a t b hs hstep hact := by
    cases step_effect hstep with
    | batchTaken batch p hp =>
      cases hact
      exact hp
    | batchCalled p hp =>
      cases hact
      exact hp
    | batchQueued received k p r hk hleave hr =>
      cases hact
      exact hleave
    | respCalled p hp =>
      cases Hooks.step_effect hp with
      | called k call m hk hcall hm =>
        simp only [batchAct, Port.sending, hk, hcall, Option.bind_some, Option.map_some,
          Option.some.injEq] at hact
        subst hact
        have hne : Hooks.calls relayerThread (.send k.thread call.1 call.2) = false :=
          decide_eq_false (hs.resp k hk)
        exact mirror_step (batch_aside hs hne) hm
    | mirrored a m hcan hm =>
      cases hact
      exact mirror_step (batch_aside hs (mirror_aside hcan).1) hm
    | _ => cases hact

theorem resp_projects : Projects (step (π := π) keyText addrText) (Hooks.step mirrorReceived)
    Threads State.respPort respAct where
  keeps _ _ _ := threads_step
  rests s a t hs hstep hact := by
    cases step_effect hstep with
    | relayed | served => rfl
    | batchTaken batch p hp =>
      cases Hooks.step_effect hp with
      | entered => rfl
    | batchCalled p hp =>
      cases Hooks.step_effect hp with
      | called k call m hk hcall hm => simp [respAct, Port.sending, hk, hcall] at hact
    | batchQueued received k p r hk hleave hr =>
      cases Hooks.step_effect hleave with
      | left => rfl
    | respTaken h x rx p hrecv hne hp => simp [respAct, hrecv] at hact
    | _ => cases hact
  moves s a t b hs hstep hact := by
    cases step_effect hstep with
    | respTaken h x rx p hrecv hne hp =>
      simp only [respAct, hrecv, Option.map_some, Option.some.injEq] at hact
      subst hact
      exact hp
    | respCalled p hp =>
      cases hact
      exact hp
    | respQueued received p b hleave hb =>
      cases hact
      exact hleave
    | batchCalled p hp =>
      cases Hooks.step_effect hp with
      | called k call m hk hcall hm =>
        simp only [respAct, Port.sending, hk, hcall, Option.bind_some, Option.map_some,
          Option.some.injEq] at hact
        subst hact
        have haside : ∀ i, s.respPort.hook = some i →
            Hooks.calls i.thread (.send k.thread call.1 call.2) = false := by
          intro i hi
          rw [hs.batch k hk]
          exact decide_eq_false (Ne.symm (hs.resp i hi))
        exact mirror_step haside hm
    | mirrored a m hcan hm =>
      cases hact
      exact mirror_step (mirror_aside hcan).2 hm
    | _ => cases hact

end Components

section Arrivals

variable {π : Type} [PacketRef π] {keyText : Pubkey → String} {addrText : IpAddr → String}
  {s t : State π} {a : Action π}

theorem batch_arrival (hstep : step keyText addrText s a = some t) :
    t.relayer.delay.arrived.map Prod.snd =
      s.relayer.delay.arrived.map Prod.snd ++ through batchAct State.batchPort leftAt s a := by
  cases step_effect hstep with
  | relayed a r hcan hr =>
    have hnone : Pipeline.arrivedAt a = [] := by
      cases a with
      | delay a =>
        cases a with
        | recvOk => cases hcan
        | _ => rfl
      | _ => rfl
    have harrived := Pipeline.arrived_step hr
    rw [hnone, List.append_nil] at harrived
    simp [through, batchAct, harrived]
  | batchQueued received k p r hk hleave hr =>
    have harrived := Pipeline.arrived_step hr
    simp [through, batchAct, leftAt, State.batchPort, hk, harrived, Pipeline.arrivedAt,
      RelayerDelay.arrivedBy]
  | respCalled p hp =>
    cases h : s.respPort.sending mirrorReceived with
    | _ => simp [through, batchAct, leftAt, h]
  | _ => simp [through, batchAct, leftAt]

theorem delayRun_arrived {T : Type} {w : Blockengine.Wiring T} {b c : Blockengine.State T}
    {rx : Receiver} {d : DelayForward.Action FilterSet (Sent T)}
    (hd : ∀ received x, d ≠ .recvOk received x)
    (hstep : Blockengine.delayRun w b rx d = some c) : c.delay.arrived = b.delay.arrived := by
  obtain ⟨e,he,rfl⟩ := Option.map_eq_some_iff.mp hstep
  cases Blockengine.forwards_step he with
  | idle _ _ _ hsame => exact hsame.arrived
  | received t x => exact absurd rfl (hd t x)
  | released => rfl

theorem arrived_kept {T : Type} {w : Blockengine.Wiring T} {b c : Blockengine.State T}
    {a : Blockengine.Action T} (ha : ∀ received, a ≠ .delay (.recv received))
    (hstep : Blockengine.step w b a = some c) : c.delay.arrived = b.delay.arrived := by
  cases a with
  | delay d =>
    cases d with
    | recv received => exact absurd rfl (ha received)
    | lagged n =>
      simp only [Blockengine.step, Blockengine.delayStep] at hstep
      split at hstep
      · cases hstep
      · exact delayRun_arrived (fun _ _ h => by cases h) hstep
    | shutdown =>
      obtain ⟨_,hstep⟩ := Option.ite_none_right_eq_some.mp hstep
      exact delayRun_arrived (fun _ _ h => by cases h) hstep
    | _ => exact delayRun_arrived (fun _ _ h => by cases h) hstep
  | _ =>
    cases Blockengine.step_effect hstep with
    | _ => rfl

theorem arrived_recv {T : Type} {w : Blockengine.Wiring T} {b c : Blockengine.State T}
    {received : Nat} {x : Sent T} {rx : Receiver} (hr : recv b.inbound b.delayRx = some (x,rx))
    (hstep : Blockengine.step w b (.delay (.recv received)) = some c) :
    c.delay.arrived = b.delay.arrived ++ [(received,x)] := by
  simp only [Blockengine.step, Blockengine.delayStep, hr] at hstep
  obtain ⟨e,he,rfl⟩ := Option.map_eq_some_iff.mp hstep
  cases Blockengine.forwards_step he with
  | idle _ _ hd _ => exact absurd rfl (hd received x)
  | received t x => rfl

theorem resp_arrival (hs : Threads s) (hstep : step keyText addrText s a = some t) :
    t.packets.delay.arrived.map Prod.snd =
      s.packets.delay.arrived.map Prod.snd ++ through respAct State.respPort leftAt s a := by
  cases step_effect hstep with
  | served a b hcan hb =>
    have hkept := arrived_kept (fun received => by rintro rfl; cases hcan) hb
    simp [through, respAct, hkept]
  | respTaken h x rx p hrecv hne hp => simp [through, respAct, leftAt, hrecv]
  | respQueued received p b hleave hb =>
    cases Hooks.step_effect hleave with
    | left k hk hret =>
      obtain ⟨rx,hr⟩ := hs.taken k hk
      simp [through, respAct, leftAt, hk, arrived_recv hr hb]
  | batchCalled p hp =>
    cases h : s.batchPort.sending mirrorBankingBatch with
    | _ => simp [through, respAct, leftAt, h]
  | _ => simp [through, respAct, leftAt]

end Arrivals

section Deliveries

variable {π : Type} [PacketRef π] {keyText : Pubkey → String} {addrText : IpAddr → String}
  {s : State π} {as : List (Action π)}

def deliveredAt (ch : Nat) : State π → Action π → List Frames.Bytes :=
  through relayerAct State.relayer (Pipeline.deliveredAt ch)

def payloads : Blockengine.Out SubscribePacketsResponse → List Frames.Bytes
  | .released _ x => (mirrorReceived x).map Prod.snd
  | .inertia resp => (mirrorBePackets resp).map Prod.snd

theorem mirrorBePackets_filter (set : FilterSet) (resp : SubscribePacketsResponse) :
    (mirrorBePackets (filterBePackets set resp)).Sublist (mirrorBePackets resp) := by
  rw [filterBePackets_eq, mirrorBePackets, mirrorBePackets, retainPackets]
  cases resp.batch with
  | none => exact List.Sublist.refl _
  | some batch => exact List.filter_sublist.map _

theorem payloads_popped {b : Blockengine.State SubscribePacketsResponse}
    (hb : Blockengine.Pipeline packetWiring b) (out : Blockengine.Out SubscribePacketsResponse)
    (hout : out ∈ b.outbound) :
    (payloads out).Sublist
      (out.popped.toList.flatMap fun p => (mirrorReceived p.item).map Prod.snd) := by
  cases out with
  | released p x =>
    rw [hb.emitted.filtered p x hout]
    simpa [payloads, Blockengine.Out.popped, mirrorReceived, Blockengine.onSent, packetWiring] using
      (mirrorBePackets_filter p.env p.item.item).map Prod.snd
  | inertia resp =>
    obtain ⟨c,hc,_⟩ := Blockengine.inertia_decoded hb.linked hb.emitted hout
    cases hc

theorem outbound_arrived {b : Blockengine.State SubscribePacketsResponse}
    (hb : Blockengine.Pipeline packetWiring b) :
    (b.outbound.flatMap payloads).Sublist
      (((b.delay.arrived.map Prod.snd).flatMap mirrorReceived).map Prod.snd) := by
  have hpopped : b.outbound.flatMap (fun out =>
      out.popped.toList.flatMap fun p => (mirrorReceived p.item).map Prod.snd) =
        ((b.delay.popped.map Popped.item).flatMap mirrorReceived).map Prod.snd := by
    rw [← hb.emitted.popped, ← List.flatMap_assoc, ← List.filterMap_eq_flatMap_toList,
      List.map_flatMap, List.flatMap_map]
  have hsub := List.Sublist.flatMap_right b.outbound (payloads_popped hb)
  rw [hpopped] at hsub
  refine hsub.trans ((List.Sublist.flatMap ?_ _).map _)
  rw [hb.staged.conforms.received]
  exact List.sublist_append_left _ _

theorem stream_arrived {b : Blockengine.State SubscribePacketsResponse}
    (hb : Blockengine.Pipeline packetWiring b) (j : Nat) :
    ((b.streams j).delivered.flatMap fun d => payloads d.out).Sublist
      (((b.delay.arrived.map Prod.snd).flatMap mirrorReceived).map Prod.snd) := by
  have hsub := (Blockengine.delivered_sublist hb.followed j).flatMap payloads
  rw [List.flatMap_map] at hsub
  exact hsub.trans (outbound_arrived hb)

theorem unfiltered_sublist (popped : List (Popped FilterSet (BankingPacketBatch π))) :
    (popped.flatMap Pipeline.unfiltered).Sublist
      (((popped.map Popped.item).flatMap mirrorBankingBatch).map Prod.snd) := by
  rw [List.flatMap_map, List.map_flatMap]
  exact List.Sublist.flatMap_right _ fun _ _ => List.filter_sublist

theorem subscriber_arrived (hrun : run (step keyText addrText) init as = some s) (ch : Nat) :
    (collect (step keyText addrText) (deliveredAt ch) init as).Sublist
      (((s.relayer.delay.arrived.map Prod.snd).flatMap mirrorBankingBatch).map Prod.snd) := by
  have hrelayer := run_schedule (relayer_projects keyText addrText) threads_init hrun
  rw [deliveredAt, collect_through (relayer_projects keyText addrText) _ threads_init hrun]
  refine (Pipeline.delivered_released hrelayer ch).trans ((unfiltered_sublist _).trans ?_)
  obtain ⟨bs,hdelay⟩ := Pipeline.reachable_delay ⟨_,hrelayer⟩
  obtain ⟨_,hconforms,_⟩ := relayer_delaysThrough packetDelay discardFiltered bs _ hdelay
  rw [hconforms.arrived, hconforms.received]
  exact ((List.sublist_append_left _ _).flatMap _).map _

end Deliveries

section Leads

variable {π : Type} [PacketRef π] (keyText : Pubkey → String) (addrText : IpAddr → String)

def batchCalledAt : State π → Action π → List Call :=
  through batchAct State.batchPort (calledAt mirrorBankingBatch)

def respCalledAt : State π → Action π → List Call :=
  through respAct State.respPort (calledAt mirrorReceived)

def batchSentAt : State π → Action π → List Call := through batchAct State.batchPort sentAt

def respSentAt : State π → Action π → List Call := through respAct State.respPort sentAt

def MirrorConnected (s : State π) (a : Action π) : Prop :=
  Through batchAct State.batchPort Connected s a ∧ Through respAct State.respPort Connected s a

instance (s : State π) (a : Action π) : Decidable (MirrorConnected s a) :=
  inferInstanceAs (Decidable (_ ∧ _))

variable {keyText addrText} {s : State π} {as : List (Action π)}

theorem packets_run (hrun : run (step keyText addrText) init as = some s) :
    Blockengine.Pipeline packetWiring s.packets := by
  have hpackets : run (Blockengine.step packetWiring) Blockengine.init
      (schedule (step keyText addrText) packetsAct init as) = some s.packets :=
    run_schedule (packets_projects keyText addrText) threads_init hrun
  exact Blockengine.pipeline_run hpackets

theorem batch_run (hrun : run (step keyText addrText) init as = some s) :
    run (Hooks.step mirrorBankingBatch) Hooks.init (schedule (step keyText addrText) batchAct init as) =
      some s.batchPort :=
  run_schedule (batch_projects keyText addrText) threads_init hrun

theorem resp_run (hrun : run (step keyText addrText) init as = some s) :
    run (Hooks.step mirrorReceived) Hooks.init (schedule (step keyText addrText) respAct init as) =
      some s.respPort :=
  run_schedule (resp_projects keyText addrText) threads_init hrun

theorem batch_collect {γ : Type} (hrun : run (step keyText addrText) init as = some s)
    (observe : Port (BankingPacketBatch π) → Hooks.Action (BankingPacketBatch π) → List γ) :
    collect (step keyText addrText) (through batchAct State.batchPort observe) init as =
      collect (Hooks.step mirrorBankingBatch) observe Hooks.init
        (schedule (step keyText addrText) batchAct init as) :=
  collect_through (batch_projects keyText addrText) observe threads_init hrun

theorem resp_collect {γ : Type} (hrun : run (step keyText addrText) init as = some s)
    (observe : Port Received → Hooks.Action Received → List γ) :
    collect (step keyText addrText) (through respAct State.respPort observe) init as =
      collect (Hooks.step mirrorReceived) observe Hooks.init
        (schedule (step keyText addrText) respAct init as) :=
  collect_through (resp_projects keyText addrText) observe threads_init hrun

theorem batch_left (hrun : run (step keyText addrText) init as = some s) :
    s.relayer.delay.arrived.map Prod.snd =
      collect (step keyText addrText) (through batchAct State.batchPort leftAt) init as :=
  collect_log (fun s : State π => s.relayer.delay.arrived.map Prod.snd)
    (fun _ _ _ => batch_arrival) hrun

theorem resp_left (hrun : run (step keyText addrText) init as = some s) :
    s.packets.delay.arrived.map Prod.snd =
      collect (step keyText addrText) (through respAct State.respPort leftAt) init as := by
  have hstep : ∀ s a t, Threads s → step (π := π) keyText addrText s a = some t →
      s.packets.delay.arrived.map Prod.snd ++ through respAct State.respPort leftAt s a =
        [] ++ t.packets.delay.arrived.map Prod.snd :=
    fun _ _ _ hs hstep => (resp_arrival hs hstep).symm
  have hlog := collect_balance (fun s : State π => s.packets.delay.arrived.map Prod.snd)
    (fun _ _ _ => threads_step) hstep threads_init hrun
  rw [collect_nil] at hlog
  exact hlog.symm

theorem mirrored_before_delivery (keyText : Pubkey → String) (addrText : IpAddr → String)
    (as : List (Action π)) (s : State π) (hrun : run (step keyText addrText) init as = some s) :
    let batchCalls := collect (step keyText addrText) batchCalledAt init as
    let respCalls := collect (step keyText addrText) respCalledAt init as
    batchCalls = (s.relayer.delay.arrived.map Prod.snd).flatMap mirrorBankingBatch ++
      called mirrorBankingBatch s.batchPort ∧
    respCalls = (s.packets.delay.arrived.map Prod.snd).flatMap mirrorReceived ++
      called mirrorReceived s.respPort ∧
    (∀ ch, (collect (step keyText addrText) (deliveredAt ch) init as).Sublist
      (batchCalls.map Prod.snd)) ∧
    ∀ j, ((s.packets.streams j).delivered.flatMap fun d => payloads d.out).Sublist
      (respCalls.map Prod.snd) := by
  have hbatch := calls_of_run (batch_run hrun)
  have hresp := calls_of_run (resp_run hrun)
  rw [← batch_collect hrun, ← batch_collect hrun, ← batch_left hrun] at hbatch
  rw [← resp_collect hrun, ← resp_collect hrun, ← resp_left hrun] at hresp
  refine ⟨hbatch,hresp,fun ch => ?_,fun j => ?_⟩
  · refine (subscriber_arrived hrun ch).trans (List.Sublist.map _ ?_)
    rw [batchCalledAt, hbatch]
    exact List.sublist_append_left _ _
  · refine (stream_arrived (packets_run hrun) j).trans (List.Sublist.map _ ?_)
    rw [respCalledAt, hresp]
    exact List.sublist_append_left _ _

theorem connected_mirror_leads (keyText : Pubkey → String) (addrText : IpAddr → String)
    (as : List (Action π)) (s : State π) (hrun : run (step keyText addrText) init as = some s)
    (hc : Along (step keyText addrText) MirrorConnected init as) :
    (∀ ch, (collect (step keyText addrText) (deliveredAt ch) init as).Sublist
      ((collect (step keyText addrText) batchSentAt init as).map Prod.snd)) ∧
    ∀ j, ((s.packets.streams j).delivered.flatMap fun d => payloads d.out).Sublist
      ((collect (step keyText addrText) respSentAt init as).map Prod.snd) := by
  have hbatch := sent_of_run (batch_run hrun)
    (along_through (batch_projects keyText addrText) threads_init hrun
      (along_of_invariant (I := fun _ => True) (fun _ _ _ _ _ _ => trivial)
        (fun _ _ _ hc => hc.1) trivial hc))
  have hresp := sent_of_run (resp_run hrun)
    (along_through (resp_projects keyText addrText) threads_init hrun
      (along_of_invariant (I := fun _ => True) (fun _ _ _ _ _ _ => trivial)
        (fun _ _ _ hc => hc.2) trivial hc))
  rw [← batch_collect hrun, ← batch_collect hrun, ← batch_left hrun] at hbatch
  rw [← resp_collect hrun, ← resp_collect hrun, ← resp_left hrun] at hresp
  exact ⟨fun ch => (subscriber_arrived hrun ch).trans (hbatch.sublist.map _),
    fun j => (stream_arrived (packets_run hrun) j).trans (hresp.sublist.map _)⟩

end Leads

section Sample

open Auth (pubkeyText ipText)

def mirrorCall (h : Nat) (call : Action Packet) : List (Action Packet) :=
  [call,.mirror (.readConn h),.mirror (.frame h 5),.mirror (.sendDatagram h .ok),
    .mirror (.fetchAdd h)]

def mirroredBatch : List (Action Packet) :=
  Pipeline.subscribed.map .relayer ++ [.relayer (.delay (.wait 0)),.mirror (.set (some 0)),
    .recvBatch bankingBatch] ++
    mirrorCall relayerThread .mirrorBatch ++ mirrorCall relayerThread .mirrorBatch ++
    mirrorCall relayerThread .mirrorBatch ++ [.queueBatch 0] ++
    (Pipeline.forwardedBatch.drop 2).map .relayer

def mirroredPackets : List (Action Packet) :=
  [.packets .subscribe,.packets (.task 0 .upstreamOk),
    .packets (.pumpItem 0 ⟨none,some ⟨[blockedPacket,otherPacket]⟩⟩),.recvPackets 3] ++
    mirrorCall 3 .mirrorPackets ++ mirrorCall 3 .mirrorPackets ++
    [.queuePackets 0,.packets (.delay (.releaseDue packetDelay)),.packets (.delay (.send oneFilter)),
      .packets (.delay .drained),.packets (.poll 0 packetDelay)]

def mirroredPaths : List (Action Packet) := mirroredBatch ++ mirroredPackets

theorem both_paths_mirrored_first :
    ∃ s, run (step pubkeyText.text ipText.text) init mirroredPaths = some s ∧
      collect (step pubkeyText.text ipText.text) (deliveredAt 0) init mirroredPaths =
        [otherPacket.data,[1,2,3]] ∧
      ((s.packets.streams 0).delivered.flatMap fun d => payloads d.out) = [otherPacket.data] ∧
      ([otherPacket.data,[1,2,3]]).Sublist
        ((collect (step pubkeyText.text ipText.text) batchCalledAt init mirroredPaths).map Prod.snd) ∧
      [otherPacket.data].Sublist
        ((collect (step pubkeyText.text ipText.text) respCalledAt init mirroredPaths).map
          Prod.snd) := by
  obtain ⟨s,hs,hstream⟩ := exists_run_of_map (step pubkeyText.text ipText.text) init mirroredPaths
    (fun s => decide (((s.packets.streams 0).delivered.flatMap fun d => payloads d.out) =
      [otherPacket.data])) (by decide +kernel)
  have hstream := of_decide_eq_true hstream
  have hdelivered : collect (step pubkeyText.text ipText.text) (deliveredAt 0) init mirroredPaths =
      [otherPacket.data,[1,2,3]] := by decide +kernel
  obtain ⟨_,_,hbatch,hresp⟩ :=
    mirrored_before_delivery pubkeyText.text ipText.text mirroredPaths s hs
  refine ⟨s,hs,hdelivered,hstream,?_,?_⟩
  · rw [← hdelivered]
    exact hbatch 0
  · rw [← hstream]
    exact hresp 0

theorem connected_paths_lead :
    ∃ s, run (step pubkeyText.text ipText.text) init mirroredPaths = some s ∧
      Along (step pubkeyText.text ipText.text) MirrorConnected init mirroredPaths ∧
      (collect (step pubkeyText.text ipText.text) (deliveredAt 0) init mirroredPaths).Sublist
        ((collect (step pubkeyText.text ipText.text) batchSentAt init mirroredPaths).map Prod.snd) := by
  have hconnected : Along (step pubkeyText.text ipText.text) MirrorConnected init mirroredPaths := by
    decide +kernel
  obtain ⟨s,hs,_⟩ := exists_run_of_map (step pubkeyText.text ipText.text) init mirroredPaths
    (fun _ => true) (by decide +kernel)
  exact ⟨s,hs,hconnected,
    (connected_mirror_leads pubkeyText.text ipText.text mirroredPaths s hs hconnected).1 0⟩

end Sample

end InertiaRelayer.Mirroring
