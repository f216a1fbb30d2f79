import InertiaRelayer.Relayer.Pipeline

namespace InertiaRelayer.Forwarder
open Machine

def Winding {π : Type} : Action π → Prop
  | .disconnect | .snapshot .. | .heartbeatTick _ | .offer | .endRound | .dropConnections
  | .dropLogTick | .exit => True
  | _ => False

def Loop.remaining (backlog : Nat) : Loop → Nat
  | .stopped => 0
  | .checking => 1
  | .dropping _ => 2
  | .forwarding round | .heartbeating round => round.pending.length + 3
  | .snapshotting batches => batches.length + 4
  | .waiting => backlog + 5

section Winding

variable {π : Type} [PacketRef π] {keyText : Pubkey → String} {addrText : IpAddr → String}
  {s t : State}

theorem length_forwardOffers {subscriptions : PacketSubscriptions} (hsize : subscriptions.size ≤ 1)
    {order : List (Pubkey × Nat)} (horder : order.Perm (subscribers subscriptions))
    (ts : Timestamp) (batches : List ProtoPacketBatch) :
    (forwardOffers order ts batches).length ≤ batches.length := by
  rcases subscribers_of_size_le_one hsize horder with ⟨rfl,_⟩ | ⟨one,rfl,_⟩
  · rw [forwardOffers_nil]
    exact Nat.zero_le _
  · rw [forwardOffers_single, Sending.offersTo, List.length_map]
    exact List.length_filter_le _ _

theorem offerStep_remaining {enter : Round → Loop} {round : Round} (backlog : Nat)
    (hpending : ∀ r, (enter r).pending = r.pending)
    (hremaining : ∀ r, (enter r).remaining backlog = r.pending.length + 3)
    (hs : s.loop = enter round) (h : offerStep s enter round = some t) :
    t.loop.remaining backlog < s.loop.remaining backlog := by
  obtain ⟨hp,next,hnext⟩ := offerStep_pending hpending hs h
  have hlength := congrArg List.length hp
  have hne : round.pending ≠ [] := by
    intro hnil
    simp [offerStep, hnil] at h
  have hpos := List.length_pos_iff.mpr hne
  rw [hs, hnext, hpending, hpending, List.length_append, List.length_take] at hlength
  rw [hs, hnext, hremaining, hremaining]
  omega

theorem endRound_remaining (backlog : Nat)
    (h : step keyText addrText s (.endRound : Action π) = some t) :
    t.loop.remaining backlog < s.loop.remaining backlog := by
  obtain ⟨failed,dropped,⟨hs,rfl⟩ | ⟨hs,rfl⟩⟩ := endRound_some h
  · rw [hs]
    exact Nat.lt_succ_self 2
  · rw [hs]
    exact Nat.lt_succ_self 2

theorem loop_remaining {a : Action π} (backlog : Nat) (hsize : s.subscriptions.size ≤ 1)
    (ha : Winding a) (h : step keyText addrText s a = some t) :
    t.loop.remaining backlog < s.loop.remaining backlog := by
  cases step_transition h with
  | subscribed | closed | delivered | received | selected => cases ha
  | forwarded round hs hoffer | beaten round hs hoffer =>
    exact offerStep_remaining backlog (fun _ => rfl) (fun _ => rfl) hs hoffer
  | ended => exact endRound_remaining backlog h
  | snapshot order ts batches hs horder =>
    have hle := length_forwardOffers hsize horder ts batches
    rw [hs]
    simp only [State.enter, Loop.remaining]
    omega
  | heartbeat order hs horder =>
    have hle : order.length ≤ 1 := by
      rcases subscribers_of_size_le_one hsize horder with ⟨rfl,_⟩ | ⟨one,rfl,_⟩
      · exact Nat.zero_le 1
      · exact Nat.le_refl 1
    rw [hs]
    simp only [State.enter, Loop.remaining, List.length_map]
    omega
  | skipped ts batches hs horder =>
    rw [hs]
    simp only [State.enter, Loop.remaining]
    omega
  | dropped failed hs =>
    rw [hs]
    exact Nat.lt_succ_self 1
  | exited hs =>
    rw [hs]
    exact Nat.lt_succ_self 0
  | disconnected hs | logged hs =>
    rw [hs]
    simp only [State.enter, Loop.remaining]
    omega

-- Blocked in `select!` the loop is woken by its own tick.
theorem loop_progress (π : Type) [PacketRef π] (keyText : Pubkey → String)
    (addrText : IpAddr → String) (s : State) (hs : s.loop ≠ .stopped) :
    ∃ a, Winding (π := π) a ∧ a ≠ .disconnect ∧ (step keyText addrText s a).isSome = true := by
  cases hloop : s.loop with
  | stopped => exact absurd hloop hs
  | checking => exact ⟨.exit,trivial,by simp,by simp [step, hloop]⟩
  | waiting =>
    exact ⟨.heartbeatTick (subscribers s.subscriptions),trivial,by simp,by simp [step, hloop]⟩
  | dropping failed => exact ⟨.dropConnections,trivial,by simp,by simp [step, hloop]⟩
  | snapshotting batches =>
    refine ⟨.snapshot (subscribers s.subscriptions) ⟨0,0⟩,trivial,by simp,?_⟩
    simp only [step, hloop, List.Perm.refl, if_true]
    split <;> rfl
  | forwarding round | heartbeating round =>
    obtain ⟨pending,failed,dropped⟩ := round
    cases pending with
    | nil => exact ⟨.endRound,trivial,by simp,by simp [step, hloop]⟩
    | cons o pending => exact ⟨.offer,trivial,by simp,by simp [step, hloop, offerStep]⟩

end Winding

end InertiaRelayer.Forwarder

namespace InertiaRelayer.Pipeline
open Machine Proxy Forwarder

def DelayWinding {E T : Type} : RelayerDelay.Action E T → Prop
  | .exit | .recvTimeout _ | .sweep | .readNow _ | .send _ _ | .drained => True
  | _ => False

def Winding {π : Type} : Action π → Prop
  | .delay a => DelayWinding a
  | .receive => True
  | .forwarder a => Forwarder.Winding a
  | _ => False

section Delay

variable {E T : Type} {delay : Nat} {onRelease : E → T → T} {s t : DelayState E T}

def delayRemaining (s : DelayState E T) : Nat :=
  match s.phase with
  | .ended => 0
  | .receiving => 1
  | .draining _ => s.queue.length + 2
  | .reading => s.queue.length + 3
  | .sweeping => s.queue.length + 4
  | .waiting _ => s.queue.length + 5

theorem delay_remaining {a : RelayerDelay.Action E T} (ha : DelayWinding a)
    (h : RelayerDelay.step delay onRelease s a = some t) :
    delayRemaining t < delayRemaining s := by
  cases relays_step h with
  | waited | received | disconnected => cases ha
  | exited hs | timedOut t deadline hs hle | swept hs | read now hs | drained now hs =>
    simp [delayRemaining, hs, Loop.enter]
  | released env isErr now due x rest hs hq =>
    cases isErr with
    | true => simp [delayRemaining, hs, hq, Loop.enter]
    | false => simp [delayRemaining, hs, hq, Loop.enter]

-- A due batch is sent with an error here: the other end of the channel is gone.
theorem delay_progress (delay : Nat) (onRelease : E → T → T) (env : E) (s : DelayState E T)
    (hs : s.phase ≠ .ended) :
    ∃ a, DelayWinding a ∧ (∀ env, a ≠ .send env false) ∧
      (RelayerDelay.step delay onRelease s a).isSome = true := by
  cases hphase : s.phase with
  | ended => exact absurd hphase hs
  | receiving =>
    exact ⟨.exit,trivial,by simp,by simp [RelayerDelay.step, hphase, RelayerDelay.loopHead]⟩
  | waiting deadline =>
    refine ⟨.recvTimeout (max deadline s.clock),trivial,by simp,?_⟩
    simp [RelayerDelay.step, hphase, RelayerDelay.receive, Loop.read]
  | sweeping => exact ⟨.sweep,trivial,by simp,by simp [RelayerDelay.step, hphase]⟩
  | reading =>
    exact ⟨.readNow s.clock,trivial,by simp,by simp [RelayerDelay.step, hphase, Loop.read]⟩
  | draining now =>
    cases hdue : s.due now with
    | false =>
      exact ⟨.drained,trivial,by simp,by simp [RelayerDelay.step, hphase, RelayerDelay.drain, hdue]⟩
    | true =>
      unfold Loop.due at hdue
      split at hdue
      · cases hdue
      · rename_i due x rest hq
        have hle := of_decide_eq_true hdue
        exact ⟨.send env true,trivial,by simp,
          by simp [RelayerDelay.step, hphase, RelayerDelay.drain, Loop.release, hq, hle]⟩

end Delay

section Shutdown

variable {π : Type} [PacketRef π] {keyText : Pubkey → String} {addrText : IpAddr → String}
  {s t : State π} {a : Action π}

def load (batches : BankingPacketBatch π) : Nat := batches.flatten.length

def backlog (s : State π) : Nat :=
  (s.channel.map load).sum + (s.delay.queue.map fun x => load x.2).sum

def remaining (s : State π) : Nat :=
  delayRemaining s.delay + s.forwarder.loop.remaining (backlog s)

theorem length_protoPacketBatches (addrText : IpAddr → String) (batches : BankingPacketBatch π) :
    (protoPacketBatches addrText batches).length ≤ load batches := by
  have hsize : 0 < validatorPacketBatchSize := by decide
  have hchunks := Chunks.length_chunks_le hsize (protoPackets addrText batches)
  rw [protoPackets_eq] at hchunks
  rw [protoPacketBatches, List.length_map, protoPackets_eq]
  exact hchunks.trans ((List.length_filterMap_le _ _).trans (List.length_filter_le _ _))

theorem load_discardFiltered (env : FilterSet) (batches : BankingPacketBatch π) :
    load (discardFiltered env batches) = load batches := by
  rw [discardFiltered_eq, discardBlocked]
  simp [load, List.length_flatten, Function.comp_def]

theorem remaining_mono (loop : Loop) {m n : Nat} (h : m ≤ n) :
    loop.remaining m ≤ loop.remaining n := by
  cases loop with
  | waiting => exact Nat.add_le_add_right h 5
  | _ => exact Nat.le_refl _

theorem delayed_backlog {a : RelayerDelay.Action FilterSet (BankingPacketBatch π)}
    {d : DelayState FilterSet (BankingPacketBatch π)} (ha : DelayWinding a)
    (h : RelayerDelay.step packetDelay discardFiltered s.delay a = some d) :
    backlog { s with delay := d, channel := s.channel ++ s.pushed a } ≤ backlog s := by
  unfold backlog
  cases relays_step h with
  | waited | received | disconnected => cases ha
  | exited | timedOut | swept | read | drained => simp [State.pushed, Loop.enter]
  | released env isErr now due x rest hs hq =>
    cases isErr with
    | true => simp [State.pushed, Loop.enter, hq]
    | false =>
      simp [State.pushed, Loop.enter, hq, load_discardFiltered]
      omega

theorem remaining_step (hsize : s.forwarder.subscriptions.size ≤ 1) (ha : Winding a)
    (h : step keyText addrText s a = some t) : remaining t < remaining s := by
  cases step_effect h with
  | flagged a hflag =>
    rcases hflag with rfl | rfl
    · cases ha
    · cases ha
  | delayed a d hcan hd =>
    have hdelay := delay_remaining ha hd
    have hloop := remaining_mono s.forwarder.loop (delayed_backlog ha hd)
    exact Nat.add_lt_add_of_lt_of_le hdelay hloop
  | received batches rest f hchannel hf =>
    cases step_transition hf with
    | received batches hs =>
      have hle := length_protoPacketBatches addrText batches
      have hbacklog : load batches ≤ backlog s := by
        simp only [backlog, hchannel, List.map_cons, List.sum_cons]
        omega
      simp only [remaining, Forwarder.State.enter, hs, Loop.remaining]
      omega
  | forwarded a f hcan hf => exact Nat.add_lt_add_left (loop_remaining (backlog s) hsize ha hf) _

def Over (s : State π) : Prop := s.delay.phase = .ended ∧ s.forwarder.loop = .stopped

theorem progress (hexit : s.exit = true) :
    Over s ∨ ∃ a t, Winding a ∧ step keyText addrText s a = some t := by
  by_cases hstop : s.forwarder.loop = .stopped
  · by_cases hended : s.delay.phase = .ended
    · exact .inl ⟨hended,hstop⟩
    · obtain ⟨a,ha,hsend,hsome⟩ :=
        delay_progress packetDelay discardFiltered ⟨∅,0,rfl⟩ s.delay hended
      obtain ⟨d,hd⟩ := Option.isSome_iff_exists.mp hsome
      refine .inr ⟨.delay a,{ s with delay := d, channel := s.channel ++ s.pushed a },ha,?_⟩
      have hcan : s.canDelay a = true := by
        cases a with
        | exit => exact hexit
        | wait | recvOk | recvDisconnected => cases ha
        | send env isErr =>
          cases isErr with
          | true => exact decide_eq_true hstop
          | false => exact absurd rfl (hsend env)
        | _ => rfl
      simp [step, hcan, hd]
  · obtain ⟨a,ha,hne,hsome⟩ := loop_progress π keyText addrText s.forwarder hstop
    obtain ⟨f,hf⟩ := Option.isSome_iff_exists.mp hsome
    refine .inr ⟨.forwarder a,{ s with forwarder := f, failed := s.failedBy a },ha,?_⟩
    have hcan : s.canForward a = true := by
      cases a with
      | exit => exact hexit
      | disconnect => exact absurd rfl hne
      | receive | select => cases ha
      | _ => rfl
    simp [step, hcan, hf]

structure Stopping (s : State π) : Prop where
  exit : s.exit = true
  single : s.forwarder.subscriptions.size ≤ 1

theorem stopping_step (ha : Winding a) (hs : Stopping s)
    (h : step keyText addrText s a = some t) : Stopping t := by
  refine ⟨?_,size_step hs.single h⟩
  cases step_effect h with
  | flagged a hflag => rfl
  | _ => exact hs.exit

theorem size_run {as : List (Action π)} (hrun : run (step keyText addrText) init as = some s) :
    s.forwarder.subscriptions.size ≤ 1 := by
  have hinit : (init : State π).forwarder.subscriptions.size ≤ 1 := Nat.zero_le 1
  exact run_invariant (fun _ _ _ => size_step) hinit hrun

theorem relayer_within (hs : Stopping s) :
    ∃ t, Within (step keyText addrText) Winding (remaining s) s t ∧ Stopping t ∧ Over t :=
  within_of_measure remaining (fun _ _ _ => stopping_step)
    (fun _ _ _ ha hs => remaining_step hs.single ha) (fun _ hs => progress hs.exit) hs

theorem shutdown_cannot_deadlock (keyText : Pubkey → String) (addrText : IpAddr → String)
    (as : List (Action π)) (s : State π) (hrun : run (step keyText addrText) init as = some s)
    (hexit : s.exit = true) :
    (∀ bs t, (∀ a ∈ bs, Winding a) → run (step keyText addrText) s bs = some t →
      bs.length + remaining t ≤ remaining s ∧
        (t.delay.phase = .ended ∧ t.forwarder.loop = .stopped ∨
          ∃ a u, Winding a ∧ step keyText addrText t a = some u)) ∧
    ∃ t, Within (step keyText addrText) Winding (remaining s) s t ∧
      t.delay.phase = .ended ∧ t.forwarder.loop = .stopped := by
  have hs : Stopping s := ⟨hexit,size_run hrun⟩
  refine ⟨fun bs t hall hbs => ⟨?_,?_⟩,?_⟩
  · exact length_le_measure remaining (fun _ _ _ => stopping_step)
      (fun _ _ _ ha hs => remaining_step hs.single ha) hs hall hbs
  · have ht : Stopping t :=
      within_invariant (fun _ _ _ => stopping_step) hs ⟨bs,Nat.le_refl _,hall,hbs⟩
    exact progress ht.exit
  · obtain ⟨t,hwithin,_,hover⟩ := relayer_within hs
    exact ⟨t,hwithin,hover⟩

structure Caused (s : State π) : Prop where
  stopped : s.forwarder.loop = .stopped → s.exit = true ∨ s.failed = true
  failed : s.failed = true →
    s.channel = [] ∧ s.delay.phase = .ended ∧ s.forwarder.loop = .stopped

theorem stopped_step {f g : Forwarder.State} {a : Forwarder.Action π} (hf : f.loop = .stopped)
    (h : Forwarder.step keyText addrText f a = some g) : g.loop = .stopped := by
  cases a with
  | subscribePackets identity =>
    simp only [Forwarder.step] at h
    split at h
    · cases h
    · cases h
      rw [subscribeStep_loop, hf]
  | closeStream ch =>
    simp only [Forwarder.step] at h
    split at h
    · cases h
      exact hf
    · cases h
  | deliver ch =>
    simp only [Forwarder.step] at h
    split at h
    · cases h
    · cases h
      exact hf
  | dropLogTick => simp [Forwarder.step, hf] at h
  | _ => simp [Forwarder.step, hf] at h

theorem stops_only {f g : Forwarder.State} {a : Forwarder.Action π}
    (h : Forwarder.step keyText addrText f a = some g) (hg : g.loop = .stopped) :
    f.loop = .stopped ∨ a = .disconnect ∨ a = .exit := by
  cases step_transition h with
  | disconnected => exact .inr (.inl rfl)
  | exited => exact .inr (.inr rfl)
  | subscribed identity hlock =>
    rw [subscribeStep_loop] at hg
    exact .inl hg
  | closed | delivered => exact .inl hg
  | forwarded round hs hoffer | beaten round hs hoffer =>
    obtain ⟨_,next,hnext⟩ := offerStep_pending (fun _ => rfl) hs hoffer
    rw [hnext] at hg
    cases hg
  | received | skipped | snapshot | heartbeat | ended | dropped | logged | selected => cases hg

theorem caused_step (hs : Caused s) (h : step keyText addrText s a = some t) : Caused t := by
  cases step_effect h with
  | flagged a ha => exact ⟨fun _ => .inl rfl,hs.failed⟩
  | delayed a d hcan hd =>
    refine ⟨hs.stopped,fun hfailed => ?_⟩
    have hended := (hs.failed hfailed).2.1
    simp [RelayerDelay.step, hended] at hd
  | received batches rest f hchannel hf =>
    refine ⟨fun hstop => ?_,fun hfailed => ?_⟩
    · rcases stops_only hf hstop with hold | habsurd | habsurd
      · exact hs.stopped hold
      · cases habsurd
      · cases habsurd
    · rw [(hs.failed hfailed).1] at hchannel
      cases hchannel
  | forwarded a f hcan hf =>
    by_cases hdisconnect : a = .disconnect
    · subst hdisconnect
      have hempty : s.channel = [] ∧ s.delay.phase = .ended := by
        simpa [State.canForward] using hcan
      refine ⟨fun _ => .inr rfl,fun _ => ⟨hempty.1,hempty.2,?_⟩⟩
      cases step_transition hf with
      | disconnected => rfl
    · have hkept : s.failedBy a = s.failed := by
        cases a with
        | disconnect => exact absurd rfl hdisconnect
        | _ => rfl
      refine ⟨fun hstop => ?_,fun hfailed => ?_⟩
      · rcases stops_only hf hstop with hold | habsurd | rfl
        · rw [hkept]
          exact hs.stopped hold
        · exact absurd habsurd hdisconnect
        · exact .inl hcan
      · rw [hkept] at hfailed
        obtain ⟨hchannel,hended,hstopped⟩ := hs.failed hfailed
        exact ⟨hchannel,hended,stopped_step hstopped hf⟩

theorem event_loop_stops_for_cause (keyText : Pubkey → String) (addrText : IpAddr → String)
    (as : List (Action π)) (s : State π) (hrun : run (step keyText addrText) init as = some s) :
    (s.forwarder.loop = .stopped → s.exit = true ∨ s.failed = true) ∧
      (s.failed = true → s.channel = [] ∧ s.delay.phase = .ended ∧ s.forwarder.loop = .stopped) := by
  have hcaused : Caused s := run_invariant (fun _ _ _ => caused_step)
    ⟨fun hstop => (by cases hstop),fun hfailed => (by cases hfailed)⟩ hrun
  exact ⟨hcaused.stopped,hcaused.failed⟩

end Shutdown

section Sample

open Auth (pubkeyText ipText)

def blockedSend : List (Action Packet) :=
  [.forwarder (.subscribePackets identity),.forwarder .select,.delay (.wait 0),
    .delay (.recvOk 0 bankingBatch),.delay .sweep,.delay (.readNow 0),.delay .drained,
    .delay (.wait 0),.delay (.recvTimeout 100000000),.delay .sweep,.delay (.readNow 100000000),
    .signal]

theorem blocked_send_winds_down :
    ∃ s t, run (step pubkeyText.text ipText.text) init blockedSend = some s ∧
      s.delay.phase = .draining 100000000 ∧ s.forwarder.loop = .waiting ∧
      Within (step pubkeyText.text ipText.text) Winding 12 s t ∧
      t.delay.phase = .ended ∧ t.forwarder.loop = .stopped := by
  obtain ⟨s,hs,hstate⟩ := exists_run_of_map (step pubkeyText.text ipText.text) init blockedSend
    (fun s => decide (s.exit = true ∧ s.delay.phase = .draining 100000000 ∧
      s.forwarder.loop = .waiting ∧ remaining s = 12)) (by decide +kernel)
  obtain ⟨hexit,hphase,hloop,hremaining⟩ := of_decide_eq_true hstate
  obtain ⟨_,t,ht,hended,hstop⟩ := shutdown_cannot_deadlock pubkeyText.text ipText.text _ s hs hexit
  rw [hremaining] at ht
  exact ⟨s,t,hs,hphase,hloop,ht,hended,hstop⟩

def upstreamGone : List (Action Packet) :=
  delayedBatch.map .delay ++ [.delay (.wait 100000000),.delay .recvDisconnected,
    .forwarder .select,.receive,.forwarder (.snapshot [] ⟨0,0⟩),.forwarder .dropConnections,
    .forwarder .select,.forwarder .disconnect]

theorem upstream_gone_drains_channel :
    ∃ s, run (step pubkeyText.text ipText.text) init upstreamGone = some s ∧ s.exit = false ∧
      s.failed = true ∧ s.channel = [] := by
  obtain ⟨s,hs,hstate⟩ := exists_run_of_map (step pubkeyText.text ipText.text) init upstreamGone
    (fun s => decide (s.exit = false ∧ s.failed = true)) (by decide +kernel)
  obtain ⟨hexit,hfailed⟩ := of_decide_eq_true hstate
  obtain ⟨_,hdrained⟩ := event_loop_stops_for_cause pubkeyText.text ipText.text _ s hs
  exact ⟨s,hs,hexit,hfailed,(hdrained hfailed).1⟩

end Sample

end InertiaRelayer.Pipeline
