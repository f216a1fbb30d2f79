import InertiaRelayer.Proxy.RelayerPath
import InertiaRelayer.Relayer.Delivery

namespace InertiaRelayer.Pipeline
open Machine Proxy Forwarder

def tpuQueueCapacity : Nat := 100000

structure State (π : Type) where
  exit : Bool
  delay : DelayState FilterSet (BankingPacketBatch π)
  channel : List (BankingPacketBatch π)
  forwarder : Forwarder.State
  failed : Bool

inductive Action (π : Type) where
  | signal
  | delay (a : RelayerDelay.Action FilterSet (BankingPacketBatch π))
  | receive
  | forwarder (a : Forwarder.Action π)
  | storeExit

section Step

variable {π : Type} [PacketRef π]

def init : State π := ⟨false,RelayerDelay.init,[],Forwarder.init,false⟩

namespace State

def canDelay (s : State π) : RelayerDelay.Action FilterSet (BankingPacketBatch π) → Bool
  | .exit => s.exit
  | .wait _ => !s.exit
  | .send _ false => decide (s.channel.length < tpuQueueCapacity)
  | .send _ true => decide (s.forwarder.loop = .stopped)
  | _ => true

def pushed (s : State π) :
    RelayerDelay.Action FilterSet (BankingPacketBatch π) → List (BankingPacketBatch π)
  | .send env false => (s.delay.queue.head?.map fun x => discardFiltered env x.2).toList
  | _ => []

def canForward (s : State π) : Forwarder.Action π → Bool
  | .receive _ => false
  | .disconnect => s.channel.isEmpty && decide (s.delay.phase = .ended)
  | .select => !s.exit
  | .exit => s.exit
  | _ => true

def failedBy (s : State π) : Forwarder.Action π → Bool
  | .disconnect => true
  | _ => s.failed

end State

variable (keyText : Pubkey → String) (addrText : IpAddr → String)

def step (s : State π) : Action π → Option (State π)
  | .signal => some { s with exit := true }
  | .delay a =>
      if s.canDelay a then
        (RelayerDelay.step packetDelay discardFiltered s.delay a).map fun d =>
          { s with delay := d, channel := s.channel ++ s.pushed a }
      else none
  | .receive =>
      match s.channel with
      | [] => none
      | batches :: rest =>
          (Forwarder.step keyText addrText s.forwarder (.receive batches)).map fun f =>
            { s with forwarder := f, channel := rest }
  | .forwarder a =>
      if s.canForward a then
        (Forwarder.step keyText addrText s.forwarder a).map fun f =>
          { s with forwarder := f, failed := s.failedBy a }
      else none
  | .storeExit => if s.failed then some { s with exit := true } else none

end Step

section Effects

variable {π : Type} [PacketRef π] (keyText : Pubkey → String) (addrText : IpAddr → String)

inductive Effect (s : State π) : Action π → State π → Prop
  | flagged (a : Action π) (ha : a = .signal ∨ a = .storeExit) : Effect s a { s with exit := true }
  | delayed (a : RelayerDelay.Action FilterSet (BankingPacketBatch π))
      (d : DelayState FilterSet (BankingPacketBatch π)) (hcan : s.canDelay a = true)
      (hstep : RelayerDelay.step packetDelay discardFiltered s.delay a = some d) :
      Effect s (.delay a) { s with delay := d, channel := s.channel ++ s.pushed a }
  | received (batches : BankingPacketBatch π) (rest : List (BankingPacketBatch π))
      (f : Forwarder.State) (hchannel : s.channel = batches :: rest)
      (hstep : Forwarder.step keyText addrText s.forwarder (.receive batches) = some f) :
      Effect s .receive { s with forwarder := f, channel := rest }
  | forwarded (a : Forwarder.Action π) (f : Forwarder.State) (hcan : s.canForward a = true)
      (hstep : Forwarder.step keyText addrText s.forwarder a = some f) :
      Effect s (.forwarder a) { s with forwarder := f, failed := s.failedBy a }

variable {keyText addrText} {s t : State π} {a : Action π}

theorem step_effect (h : step keyText addrText s a = some t) : Effect keyText addrText s a t := by
  cases a with
  | signal =>
    cases h
    exact .flagged _ (.inl rfl)
  | delay a =>
    simp only [step] at h
    split at h
    · rename_i hcan
      obtain ⟨d,hd,rfl⟩ := Option.map_eq_some_iff.mp h
      exact .delayed a d hcan hd
    · cases h
  | receive =>
    simp only [step] at h
    split at h
    · cases h
    · rename_i batches rest hchannel
      obtain ⟨f,hf,rfl⟩ := Option.map_eq_some_iff.mp h
      exact .received batches rest f hchannel hf
  | forwarder a =>
    simp only [step] at h
    split at h
    · rename_i hcan
      obtain ⟨f,hf,rfl⟩ := Option.map_eq_some_iff.mp h
      exact .forwarded a f hcan hf
    · cases h
  | storeExit =>
    simp only [step] at h
    split at h
    · cases h
      exact .flagged _ (.inr rfl)
    · cases h

theorem reachable_delay (h : Reachable (step keyText addrText) init s) :
    Reachable (RelayerDelay.step packetDelay discardFiltered) RelayerDelay.init s.delay := by
  refine reachable_simulation (I := fun _ => True) State.delay trivial (fun _ _ _ _ _ => trivial)
    (fun s a t _ hstep => ?_) h
  cases step_effect hstep with
  | delayed a d hcan hd => exact ⟨[a],by simp [run, hd]⟩
  | _ => exact ⟨[],rfl⟩

theorem reachable_forwarder (h : Reachable (step keyText addrText) init s) :
    Reachable (Forwarder.step (π := π) keyText addrText) Forwarder.init s.forwarder := by
  refine reachable_simulation (I := fun _ => True) State.forwarder trivial
    (fun _ _ _ _ _ => trivial) (fun s a t _ hstep => ?_) h
  cases step_effect hstep with
  | received batches rest f hchannel hf => exact ⟨[.receive batches],by simp [run, hf]⟩
  | forwarded a f hcan hf => exact ⟨[a],by simp [run, hf]⟩
  | _ => exact ⟨[],rfl⟩

end Effects

section Release

variable {E T : Type} {delay : Nat} {onRelease : E → T → T} {s t : DelayState E T}

variable (delay onRelease) in
inductive Relays (s : DelayState E T) : RelayerDelay.Action E T → DelayState E T → Prop
  | exited (hs : s.phase = .receiving) : Relays s .exit (s.enter .ended)
  | waited (asked deadline : Nat) (hs : s.phase = .receiving) :
      Relays s (.wait asked) ({ s with clock := asked }.enter (.waiting deadline))
  | received (t : Nat) (batch : T) (deadline : Nat) (hs : s.phase = .waiting deadline) :
      Relays s (.recvOk t batch) (({ s with clock := t }.receive delay t batch).enter .sweeping)
  | timedOut (t deadline : Nat) (hs : s.phase = .waiting deadline) (hle : deadline ≤ t) :
      Relays s (.recvTimeout t) ({ s with clock := t }.enter .sweeping)
  | disconnected (deadline : Nat) (hs : s.phase = .waiting deadline) :
      Relays s .recvDisconnected (s.enter .ended)
  | swept (hs : s.phase = .sweeping) : Relays s .sweep (s.enter .reading)
  | read (now : Nat) (hs : s.phase = .reading) :
      Relays s (.readNow now) ({ s with clock := now }.enter (.draining now))
  | released (env : E) (isErr : Bool) (now due : Nat) (x : T) (rest : List (Nat × T))
      (hs : s.phase = .draining now) (hq : s.queue = (due,x) :: rest) :
      Relays s (.send env isErr) (({ s with
        queue := rest
        popped := s.popped ++ [⟨due,now,env,x⟩]
        sends := s.sends ++ [onRelease env x] } : DelayState E T).enter
          (if isErr then .ended else .draining now))
  | drained (now : Nat) (hs : s.phase = .draining now) : Relays s .drained (s.enter .receiving)

theorem relays_step {a : RelayerDelay.Action E T}
    (h : RelayerDelay.step delay onRelease s a = some t) : Relays delay onRelease s a t := by
  unfold RelayerDelay.step at h
  split at h
  · rename_i hs
    cases a with
    | exit =>
      cases h
      exact .exited hs
    | wait asked =>
      obtain ⟨u,hu,h⟩ := Option.bind_eq_some_iff.mp h
      obtain ⟨_,rfl⟩ := read_some hu
      cases h
      exact .waited asked _ hs
    | _ => cases h
  · rename_i deadline hs
    cases a with
    | recvOk received batch =>
      obtain ⟨u,hu,h⟩ := Option.bind_eq_some_iff.mp h
      obtain ⟨_,rfl⟩ := read_some hu
      cases h
      exact .received received batch deadline hs
    | recvTimeout returned =>
      simp only [RelayerDelay.receive] at h
      split at h
      · rename_i hle
        obtain ⟨u,hu,h⟩ := Option.bind_eq_some_iff.mp h
        obtain ⟨_,rfl⟩ := read_some hu
        cases h
        exact .timedOut returned deadline hs hle
      · cases h
    | recvDisconnected =>
      cases h
      exact .disconnected deadline hs
    | _ => cases h
  · rename_i hs
    split at h
    · cases h
      exact .swept hs
    · cases h
  · rename_i hs
    split at h
    · rename_i now
      obtain ⟨u,hu,h⟩ := Option.bind_eq_some_iff.mp h
      obtain ⟨_,rfl⟩ := read_some hu
      cases h
      exact .read now hs
    · cases h
  · rename_i now hs
    cases a with
    | send env isErr =>
      obtain ⟨u,hu,h⟩ := Option.bind_eq_some_iff.mp h
      obtain ⟨due,x,rest,hq,_,rfl⟩ := release_some hu
      cases h
      exact .released env isErr now due x rest hs hq
    | drained =>
      obtain ⟨_,heq⟩ := Option.ite_none_left_eq_some.mp h
      cases heq
      exact .drained now hs
    | _ => cases h
  · cases h

def releasedBy (s : DelayState E T) (a : RelayerDelay.Action E T) : List (Popped E T) :=
  match s.phase, a, s.queue with
  | .draining now, .send env _, (due,x) :: _ => [⟨due,now,env,x⟩]
  | _, _, _ => []

theorem releasedBy_nil {a : RelayerDelay.Action E T} (h : ∀ env isErr, a ≠ .send env isErr) :
    releasedBy s a = [] := by
  unfold releasedBy
  split
  · exact absurd rfl (h _ _)
  · rfl

theorem relayer_popped {a : RelayerDelay.Action E T}
    (h : RelayerDelay.step delay onRelease s a = some t) : t.popped = s.popped ++ releasedBy s a := by
  cases relays_step h with
  | released env isErr now due x rest hs hq => simp [releasedBy, hs, hq, Loop.enter]
  | _ =>
    rw [releasedBy_nil (fun env isErr h => by cases h), List.append_nil]
    rfl

end Release

section Flow

variable {π : Type} [PacketRef π]

def payloads : Msg → List (List UInt8)
  | .batch batch => batch.packets.map ProtoPacket.data
  | .heartbeat _ => []

def deliveredAt (ch : Nat) (s : State π) : Action π → List (List UInt8)
  | .forwarder a => (Forwarder.deliveredAt ch s.forwarder a).flatMap payloads
  | _ => []

def releasedAt (s : State π) : Action π → List (Popped FilterSet (BankingPacketBatch π))
  | .delay a => releasedBy s.delay a
  | _ => []

def unfiltered (p : Popped FilterSet (BankingPacketBatch π)) : List (List UInt8) :=
  ((mirrorBankingBatch p.item).map Prod.snd).filter (passes p.env)

def inFlight (addrText : IpAddr → String) (ch : Nat) (s : State π) : List (List UInt8) :=
  (Forwarder.inFlight ch s.forwarder).flatMap payloads ++
    s.channel.flatMap (forwardedPayloads addrText)

def Healthy (identity : Pubkey) (ch : Nat) (s : State π) : Action π → Prop
  | .forwarder a => Forwarder.Healthy identity ch s.forwarder a
  | .delay (.send _ isErr) => isErr = false
  | _ => True

instance (identity : Pubkey) (ch : Nat) (s : State π) :
    ∀ a : Action π, Decidable (Healthy identity ch s a)
  | .forwarder a => inferInstanceAs (Decidable (Forwarder.Healthy identity ch s.forwarder a))
  | .delay (.send _ isErr) => inferInstanceAs (Decidable (isErr = false))
  | .delay .exit | .delay (.wait _) | .delay (.recvOk ..) | .delay (.recvTimeout _)
  | .delay .recvDisconnected | .delay .sweep | .delay (.readNow _) | .delay .drained | .signal
  | .receive | .storeExit => .isTrue trivial

variable {keyText : Pubkey → String} {addrText : IpAddr → String} {s t : State π} {a : Action π}
  {identity : Pubkey} {ch : Nat}

theorem payloads_produced (batches : BankingPacketBatch π) :
    ((protoPacketBatches addrText batches).map Msg.batch).flatMap payloads =
      forwardedPayloads addrText batches :=
  List.flatMap_map ..

theorem payloads_producedAt {a : Forwarder.Action π} (hcan : s.canForward a = true) :
    (producedAt addrText s.forwarder a).flatMap payloads = [] := by
  cases a with
  | receive => cases hcan
  | _ => rfl

theorem front_of_send {delay : Nat} {E T : Type} {onRelease : E → T → T} {s t : DelayState E T}
    {env : E} {isErr : Bool} (h : RelayerDelay.step delay onRelease s (.send env isErr) = some t) :
    ∃ now due x rest, s.phase = .draining now ∧ s.queue = (due,x) :: rest := by
  cases relays_step h with
  | released env isErr now due x rest hs hq => exact ⟨now,due,x,rest,hs,hq⟩

theorem pushed_payloads (addrText : IpAddr → String) {d : DelayState FilterSet (BankingPacketBatch π)}
    {a : RelayerDelay.Action FilterSet (BankingPacketBatch π)}
    (h : RelayerDelay.step packetDelay discardFiltered s.delay a = some d) :
    ((s.pushed a).flatMap (forwardedPayloads addrText)).Sublist
        ((releasedBy s.delay a).flatMap unfiltered) ∧
      ((∀ env, a ≠ .send env true) →
        (s.pushed a).flatMap (forwardedPayloads addrText) =
          (releasedBy s.delay a).flatMap unfiltered) := by
  cases a with
  | send env isErr =>
    obtain ⟨now,due,x,rest,hphase,hqueue⟩ := front_of_send h
    cases isErr with
    | false =>
      simp [State.pushed, releasedBy, hphase, hqueue, unfiltered, forwarded_discardFiltered]
    | true => exact ⟨List.nil_sublist _,fun hne => absurd rfl (hne env)⟩
  | _ =>
    rw [releasedBy_nil (fun env isErr h => by cases h)]
    exact ⟨List.Sublist.refl _,fun _ => rfl⟩

theorem step_flow (hsize : s.forwarder.subscriptions.size ≤ 1)
    (h : step keyText addrText s a = some t) :
    (deliveredAt ch s a ++ inFlight addrText ch t).Sublist
      (inFlight addrText ch s ++ (releasedAt s a).flatMap unfiltered) := by
  cases step_effect h with
  | flagged a ha => rcases ha with rfl | rfl <;> simp [deliveredAt, releasedAt, inFlight]
  | delayed a d hcan hd =>
    have hpush := (pushed_payloads addrText hd).1
    simp only [deliveredAt, releasedAt, inFlight, List.nil_append, List.flatMap_append,
      ← List.append_assoc]
    exact hpush.append_left _
  | received batches rest f hchannel hf =>
    have hflow := (Forwarder.step_flow ch hsize hf).1.flatMap payloads
    simp only [Forwarder.deliveredAt, producedAt, List.nil_append, List.flatMap_append,
      payloads_produced] at hflow
    simpa [deliveredAt, releasedAt, inFlight, hchannel] using
      hflow.append_right (rest.flatMap (forwardedPayloads addrText))
  | forwarded a f hcan hf =>
    have hflow := (Forwarder.step_flow ch hsize hf).1.flatMap payloads
    rw [List.flatMap_append, List.flatMap_append, payloads_producedAt hcan, List.append_nil] at hflow
    simpa [deliveredAt, releasedAt, inFlight] using
      hflow.append_right (s.channel.flatMap (forwardedPayloads addrText))

theorem step_flow_eq (hs : Holds identity ch s.forwarder) (hh : Healthy identity ch s a)
    (h : step keyText addrText s a = some t) :
    deliveredAt ch s a ++ inFlight addrText ch t =
      inFlight addrText ch s ++ (releasedAt s a).flatMap unfiltered := by
  cases step_effect h with
  | flagged a ha => rcases ha with rfl | rfl <;> simp [deliveredAt, releasedAt, inFlight]
  | delayed a d hcan hd =>
    have hpush := (pushed_payloads addrText hd).2 (by
      rintro env rfl
      cases hh)
    simp only [deliveredAt, releasedAt, inFlight, List.nil_append, List.flatMap_append,
      ← List.append_assoc, hpush]
  | received batches rest f hchannel hf =>
    have hsteady := steady_of_holds (a := (.receive batches : Forwarder.Action π)) hs trivial
    have hflow := congrArg (List.flatMap payloads) ((Forwarder.step_flow ch hs.single hf).2 hsteady)
    simp only [Forwarder.deliveredAt, producedAt, List.nil_append, List.flatMap_append,
      payloads_produced] at hflow
    simp [deliveredAt, releasedAt, inFlight, hchannel, hflow]
  | forwarded a f hcan hf =>
    have hflow := congrArg (List.flatMap payloads)
      ((Forwarder.step_flow ch hs.single hf).2 (steady_of_holds hs hh))
    rw [List.flatMap_append, List.flatMap_append, payloads_producedAt hcan, List.append_nil] at hflow
    simp only [deliveredAt, releasedAt, inFlight, List.flatMap_nil, List.append_nil,
      ← List.append_assoc, hflow]

theorem size_step (hs : s.forwarder.subscriptions.size ≤ 1)
    (h : step keyText addrText s a = some t) : t.forwarder.subscriptions.size ≤ 1 := by
  cases step_effect h with
  | received batches rest f hchannel hf => exact Forwarder.size_step hs hf
  | forwarded a f hcan hf => exact Forwarder.size_step hs hf
  | _ => exact hs

theorem holds_step (hs : Holds identity ch s.forwarder) (hh : Healthy identity ch s a)
    (h : step keyText addrText s a = some t) : Holds identity ch t.forwarder := by
  cases step_effect h with
  | received batches rest f hchannel hf => exact Forwarder.holds_step (a := .receive batches) hs trivial hf
  | forwarded a f hcan hf => exact Forwarder.holds_step hs hh hf
  | _ => exact hs

theorem popped_step (h : step keyText addrText s a = some t) :
    t.delay.popped = s.delay.popped ++ releasedAt s a := by
  cases step_effect h with
  | flagged a ha => rcases ha with rfl | rfl <;> exact (List.append_nil _).symm
  | delayed a d hcan hd => exact relayer_popped hd
  | received | forwarded => exact (List.append_nil _).symm

def arrivedAt : Action π → List (Nat × BankingPacketBatch π)
  | .delay a => RelayerDelay.arrivedBy a
  | _ => []

theorem arrived_step (h : step keyText addrText s a = some t) :
    t.delay.arrived = s.delay.arrived ++ arrivedAt a := by
  cases step_effect h with
  | flagged a ha => rcases ha with rfl | rfl <;> exact (List.append_nil _).symm
  | delayed a d hcan hd => exact effect_arrived (relayer_effect hd)
  | received | forwarded => exact (List.append_nil _).symm

theorem released_popped {as : List (Action π)} (hrun : run (step keyText addrText) init as = some s) :
    s.delay.popped = collect (step keyText addrText) releasedAt init as :=
  collect_log (fun s => s.delay.popped) (fun _ _ _ => popped_step) hrun

theorem delivered_released {as : List (Action π)} (hrun : run (step keyText addrText) init as = some s)
    (ch : Nat) :
    (collect (step keyText addrText) (deliveredAt ch) init as).Sublist
      (s.delay.popped.flatMap unfiltered) := by
  have hpopped := released_popped hrun
  have hinit : (init : State π).forwarder.subscriptions.size ≤ 1 := Nat.zero_le 1
  have hflow := collect_sublist (inFlight addrText ch) (fun _ _ _ => size_step)
    (fun _ _ _ => step_flow) hinit hrun
  rw [collect_flatMap, ← hpopped] at hflow
  exact (List.sublist_append_left _ _).trans hflow

end Flow

section EndToEnd

variable {π : Type} [PacketRef π] (keyText : Pubkey → String) (addrText : IpAddr → String)

theorem relayer_popped_past {E T : Type} {delay : Nat} {onRelease : E → T → T} {s : DelayState E T}
    (h : Reachable (RelayerDelay.step delay onRelease) RelayerDelay.init s) :
    ∀ p ∈ s.popped, p.time ≤ s.clock := by
  have hinit : Hooked onRelease (RelayerDelay.init : DelayState E T) := ⟨nofun,rfl,rfl⟩
  refine (reachable_invariant (I := fun s => Hooked onRelease s ∧ ∀ p ∈ s.popped, p.time ≤ s.clock)
    ⟨hinit,fun p hmem => by cases hmem⟩ ?_ h).2
  rintro s a t ⟨hs,hp⟩ hstep
  exact ⟨hooked_effect hs (relayer_effect hstep),popped_past_effect hs hp (relayer_effect hstep)⟩

theorem relayer_path_in_order (as : List (Action π)) (s : State π)
    (hrun : run (step keyText addrText) init as = some s) (ch : Nat) :
    let released := collect (step keyText addrText) releasedAt init as
    (collect (step keyText addrText) (deliveredAt ch) init as).Sublist
      (released.flatMap unfiltered) ∧
    released.map (fun p => (p.due,p.item)) <+:
      (as.flatMap arrivedAt).map (fun a => (a.1 + packetDelay,a.2)) ∧
    ∀ p ∈ released, p.due ≤ p.time ∧ p.time ≤ s.delay.clock := by
  intro released
  have hreach := reachable_delay ⟨as,hrun⟩
  obtain ⟨ds,hds⟩ := hreach
  obtain ⟨_,hconforms,_⟩ := relayer_delaysThrough packetDelay discardFiltered ds s.delay hds
  have hpopped : s.delay.popped = released := released_popped hrun
  have harrived : s.delay.arrived = as.flatMap arrivedAt :=
    log_of_actions (fun s : State π => s.delay.arrived) (fun _ _ _ => arrived_step) hrun
  refine ⟨hpopped ▸ delivered_released hrun ch,?_,fun p hp => ?_⟩
  · rw [← harrived, hconforms.arrived, hconforms.delayed, hpopped]
    exact List.prefix_append _ _
  · rw [← hpopped] at hp
    exact ⟨hconforms.timely p hp,relayer_popped_past ⟨ds,hds⟩ p hp⟩

theorem healthy_subscriber_loses_nothing (as : List (Action π)) (s : State π)
    (hrun : run (step keyText addrText) init as = some s) (identity : Pubkey) (ch : Nat)
    (hidle : s.forwarder.loop.idle = true)
    (hsub : s.forwarder.subscriptions.lookup identity = some ch)
    (hopen : (s.forwarder.channels ch).isOpen = true) (bs : List (Action π)) (t : State π)
    (hbs : run (step keyText addrText) s bs = some t)
    (hh : Along (step keyText addrText) (Healthy identity ch) s bs) :
    ∃ released, t.delay.popped = s.delay.popped ++ released ∧
      collect (step keyText addrText) (deliveredAt ch) s bs ++ inFlight addrText ch t =
        inFlight addrText ch s ++ released.flatMap unfiltered := by
  obtain ⟨fs,hfs⟩ := reachable_forwarder ⟨as,hrun⟩
  have hflow := collect_balance_along (inFlight addrText ch) (fun _ _ _ => holds_step)
    (fun _ _ _ => step_flow_eq) (holds_of_idle hfs hidle hsub hopen) hh hbs
  rw [collect_flatMap] at hflow
  exact ⟨_,collect_log (fun s => s.delay.popped) (fun _ _ _ => popped_step) hbs,hflow⟩

end EndToEnd

section Sample

open Auth (pubkeyText ipText)

def subscribed : List (Action Packet) := [.forwarder (.subscribePackets identity)]

def forwardedBatch : List (Action Packet) :=
  delayedBatch.map .delay ++ [.forwarder .select,.receive,
    .forwarder (.snapshot [(identity,0)] ⟨0,0⟩),.forwarder .offer,.forwarder .endRound,
    .forwarder .dropConnections,.forwarder (.deliver 0)]

theorem forwarded_batch_delivered :
    ∃ s, run (step pubkeyText.text ipText.text) init (subscribed ++ forwardedBatch) = some s ∧
      collect (step pubkeyText.text ipText.text) (deliveredAt 0) init
        (subscribed ++ forwardedBatch) = [otherPacket.data,[1,2,3]] ∧
      (collect (step pubkeyText.text ipText.text) (deliveredAt 0) init
        (subscribed ++ forwardedBatch)).Sublist
          ((collect (step pubkeyText.text ipText.text) releasedAt init
            (subscribed ++ forwardedBatch)).flatMap unfiltered) ∧
      (collect (step pubkeyText.text ipText.text) releasedAt init
        (subscribed ++ forwardedBatch)).map (fun p => (p.due,p.item)) <+:
          [(packetDelay,bankingBatch)] := by
  obtain ⟨s,hs,_⟩ := exists_run_of_map (step pubkeyText.text ipText.text) init
    (subscribed ++ forwardedBatch) (fun _ => true) (by decide +kernel)
  obtain ⟨hdelivered,hreleased,_⟩ := relayer_path_in_order pubkeyText.text ipText.text _ s hs 0
  have harrived : ((subscribed ++ forwardedBatch).flatMap arrivedAt).map
      (fun a => (a.1 + packetDelay,a.2)) = [(packetDelay,bankingBatch)] := by decide +kernel
  rw [harrived] at hreleased
  exact ⟨s,hs,by decide +kernel,hdelivered,hreleased⟩

theorem forwarded_batch_complete :
    ∃ s t, run (step pubkeyText.text ipText.text) init subscribed = some s ∧
      run (step pubkeyText.text ipText.text) s forwardedBatch = some t ∧
      ∃ released, t.delay.popped = s.delay.popped ++ released ∧
        collect (step pubkeyText.text ipText.text) (deliveredAt 0) s forwardedBatch ++
          inFlight ipText.text 0 t = inFlight ipText.text 0 s ++ released.flatMap unfiltered := by
  obtain ⟨s,hs,hready⟩ := exists_run_of_map (step pubkeyText.text ipText.text) init subscribed
    (fun s => decide (s.forwarder.loop.idle = true ∧
      s.forwarder.subscriptions.lookup identity = some 0 ∧
      (s.forwarder.channels 0).isOpen = true ∧
      Along (step pubkeyText.text ipText.text) (Healthy identity 0) s forwardedBatch ∧
      ((run (step pubkeyText.text ipText.text) s forwardedBatch).map fun _ => true) = some true))
    (by decide +kernel)
  obtain ⟨hidle,hsub,hopen,hh,hmore⟩ := of_decide_eq_true hready
  obtain ⟨t,ht,_⟩ := Option.map_eq_some_iff.mp hmore
  exact ⟨s,t,hs,ht,healthy_subscriber_loses_nothing pubkeyText.text ipText.text subscribed s hs
    identity 0 hidle hsub hopen forwardedBatch t ht hh⟩

end Sample

end InertiaRelayer.Pipeline
