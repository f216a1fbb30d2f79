import InertiaRelayer.Relayer.EventLoop

namespace InertiaRelayer.Forwarder

section Effects

variable {π : Type} (keyText : Pubkey → String)

inductive Effect (s : State) : Action π → State → Prop
  | subscribed (identity : Pubkey) (subscriptions : PacketSubscriptions)
      (hlock : s.loop.readLocked = false)
      (hok : subscribePackets keyText s.subscriptions (some identity) s.nextChannel =
        .ok subscriptions) :
      Effect s (.subscribePackets identity)
        { s.openChannel true with subscriptions := subscriptions }
  | refused (identity : Pubkey) (failure : Failure)
      (herr : subscribePackets keyText s.subscriptions (some identity) s.nextChannel =
        .error failure) :
      Effect s (.subscribePackets identity) (s.openChannel false)
  | channel (a : Action π) (ch : Nat) (c : Channel)
      (hc : c.isOpen = true → (s.channels ch).isOpen = true) : Effect s a (s.setChannel ch c)
  | moved (a : Action π) (loop : Loop)
      (hp : ∀ o ∈ loop.pending, (o.pubkey,o.sender) ∈ subscribers s.subscriptions)
      (hf : loop.failed = []) : Effect s a (s.enter loop)
  | sent (o : Offer) (loop : Loop) (c : Channel) (hp : s.loop.pending = o :: loop.pending)
      (hf : loop.failed = s.loop.failed)
      (hc : (s.channels o.sender).trySend o.response = .sent c) :
      Effect s .offer ((s.setChannel o.sender c).enter loop)
  | full (o : Offer) (loop : Loop) (hp : s.loop.pending = o :: loop.pending)
      (hf : loop.failed = s.loop.failed) : Effect s .offer (s.enter loop)
  | closed (o : Offer) (loop : Loop) (hp : s.loop.pending = o :: loop.pending)
      (hf : loop.failed = s.loop.failed ++ [(o.pubkey,o.sender)])
      (hc : (s.channels o.sender).isOpen = false) : Effect s .offer (s.enter loop)
  | ended (failed : List (Pubkey × Nat)) (count dropped : UInt64) (hp : s.loop.pending = [])
      (hf : s.loop.failed = failed) :
      Effect s .endRound { s.enter (.dropping failed) with
        heartbeatCount := count
        droppedSends := dropped }
  | dropped (failed : List (Pubkey × Nat)) (hs : s.loop = .dropping failed) :
      Effect s .dropConnections { s.enter .checking with
        subscriptions := dropConnections s.subscriptions (failed.map Prod.fst) }
  | logged : Effect s .dropLogTick { s.enter .checking with droppedSends := 0 }

variable {keyText} {addrText : IpAddr → String} {s t : State}

def Loop.unsent : Loop → List ProtoPacketBatch
  | .snapshotting batches => batches
  | _ => []

variable (keyText addrText) in
inductive Transition [PacketRef π] (s : State) : Action π → State → Prop
  | subscribed (identity : Pubkey) (hlock : s.loop.readLocked = false) :
      Transition s (.subscribePackets identity) (subscribeStep keyText s identity)
  | closed (ch : Nat) : Transition s (.closeStream ch) (s.setChannel ch ⟨false,[]⟩)
  | delivered (ch : Nat) (queue : List SubscribePacketsResponse) :
      Transition s (.deliver ch) (s.setChannel ch { s.channels ch with queue := queue })
  | received (batches : BankingPacketBatch π) (hs : s.loop = .waiting) :
      Transition s (.receive batches)
        (s.enter (.snapshotting (protoPacketBatches addrText batches)))
  | disconnected (hs : s.loop = .waiting) : Transition s .disconnect (s.enter .stopped)
  | skipped (ts : Timestamp) (batches : List ProtoPacketBatch) (hs : s.loop = .snapshotting batches)
      (horder : [].Perm (subscribers s.subscriptions)) :
      Transition s (.snapshot [] ts) (s.enter (.dropping []))
  | snapshot (order : List (Pubkey × Nat)) (ts : Timestamp) (batches : List ProtoPacketBatch)
      (hs : s.loop = .snapshotting batches) (horder : order.Perm (subscribers s.subscriptions)) :
      Transition s (.snapshot order ts)
        (s.enter (.forwarding ⟨forwardOffers order ts batches,[],0⟩))
  | heartbeat (order : List (Pubkey × Nat)) (hs : s.loop = .waiting)
      (horder : order.Perm (subscribers s.subscriptions)) :
      Transition s (.heartbeatTick order)
        (s.enter (.heartbeating ⟨order.map (heartbeatOffer s.heartbeatCount),[],0⟩))
  | forwarded (round : Round) (hs : s.loop = .forwarding round) {t : State}
      (hoffer : offerStep s .forwarding round = some t) : Transition s .offer t
  | beaten (round : Round) (hs : s.loop = .heartbeating round) {t : State}
      (hoffer : offerStep s .heartbeating round = some t) : Transition s .offer t
  | ended (failed : List (Pubkey × Nat)) (count dropped : UInt64) (hp : s.loop.pending = [])
      (hf : s.loop.failed = failed) (hu : s.loop.unsent = []) :
      Transition s .endRound { s.enter (.dropping failed) with
        heartbeatCount := count
        droppedSends := dropped }
  | dropped (failed : List (Pubkey × Nat)) (hs : s.loop = .dropping failed) :
      Transition s .dropConnections { s.enter .checking with
        subscriptions := dropConnections s.subscriptions (failed.map Prod.fst) }
  | logged (hs : s.loop = .waiting) :
      Transition s .dropLogTick { s.enter .checking with droppedSends := 0 }
  | selected (hs : s.loop = .checking) : Transition s .select (s.enter .waiting)
  | exited (hs : s.loop = .checking) : Transition s .exit (s.enter .stopped)

theorem endRound_some [PacketRef π]
    (h : step keyText addrText s (.endRound : Action π) = some t) :
    ∃ failed dropped,
      s.loop = .forwarding ⟨[],failed,dropped⟩ ∧ t = { s.enter (.dropping failed) with
        droppedSends := s.droppedSends + dropped } ∨
      s.loop = .heartbeating ⟨[],failed,dropped⟩ ∧ t = { s.enter (.dropping failed) with
        heartbeatCount := s.heartbeatCount + 1
        droppedSends := s.droppedSends + dropped } := by
  simp only [step] at h
  split at h
  · rename_i failed dropped hs
    exact ⟨failed,dropped,.inl ⟨hs,(Option.some.inj h).symm⟩⟩
  · rename_i failed dropped hs
    exact ⟨failed,dropped,.inr ⟨hs,(Option.some.inj h).symm⟩⟩
  · cases h

theorem step_transition [PacketRef π] {a : Action π} (h : step keyText addrText s a = some t) :
    Transition keyText addrText s a t := by
  cases a with
  | subscribePackets identity =>
    simp only [step] at h
    split at h
    · cases h
    · rename_i hlock
      cases h
      exact .subscribed identity (by simpa using hlock)
  | closeStream ch =>
    simp only [step] at h
    split at h
    · cases h
      exact .closed ch
    · cases h
  | deliver ch =>
    simp only [step] at h
    split at h
    · cases h
    · cases h
      exact .delivered ch _
  | receive batches =>
    simp only [step] at h
    split at h
    · rename_i hs
      cases h
      exact .received batches hs
    · cases h
  | disconnect =>
    simp only [step] at h
    split at h
    · rename_i hs
      cases h
      exact .disconnected hs
    · cases h
  | snapshot order ts =>
    simp only [step] at h
    split at h
    · rename_i batches hs
      split at h
      · rename_i horder
        split at h
        · rename_i hempty
          obtain rfl := List.isEmpty_iff.mp hempty
          cases h
          exact .skipped ts batches hs horder
        · cases h
          exact .snapshot order ts batches hs horder
      · cases h
    · cases h
  | heartbeatTick order =>
    simp only [step] at h
    split at h
    · rename_i hs
      split at h
      · rename_i horder
        cases h
        exact .heartbeat order hs horder
      · cases h
    · cases h
  | offer =>
    simp only [step] at h
    split at h
    · rename_i round hs
      exact .forwarded round hs h
    · rename_i round hs
      exact .beaten round hs h
    · cases h
  | endRound =>
    obtain ⟨failed,dropped,⟨hs,rfl⟩ | ⟨hs,rfl⟩⟩ := endRound_some h
    · exact .ended failed _ _ (by rw [hs]; rfl) (by rw [hs]; rfl) (by rw [hs]; rfl)
    · exact .ended failed _ _ (by rw [hs]; rfl) (by rw [hs]; rfl) (by rw [hs]; rfl)
  | dropConnections =>
    simp only [step] at h
    split at h
    · rename_i failed hs
      cases h
      exact .dropped failed hs
    · cases h
  | dropLogTick =>
    simp only [step] at h
    split at h
    · rename_i hs
      cases h
      exact .logged hs
    · cases h
  | select =>
    simp only [step] at h
    split at h
    · rename_i hs
      cases h
      exact .selected hs
    · cases h
  | exit =>
    simp only [step] at h
    split at h
    · rename_i hs
      cases h
      exact .exited hs
    · cases h

theorem subscribeStep_effect (identity : Pubkey) (hlock : s.loop.readLocked = false) :
    Effect keyText s (.subscribePackets identity : Action π)
      (subscribeStep keyText s identity) := by
  unfold subscribeStep
  split
  · rename_i failure herr
    exact .refused identity failure herr
  · rename_i subscriptions hok
    exact .subscribed identity subscriptions hlock hok

theorem offerStep_effect {enter : Round → Loop} {round : Round}
    (hpending : ∀ r, (enter r).pending = r.pending) (hfailed : ∀ r, (enter r).failed = r.failed)
    (hs : s.loop = enter round) (h : offerStep s enter round = some t) :
    Effect keyText s (.offer : Action π) t := by
  unfold offerStep at h
  split at h
  · cases h
  · rename_i o pending ho
    have hp : s.loop.pending = o :: pending := by rw [hs, hpending, ho]
    have hf : s.loop.failed = round.failed := by rw [hs, hfailed]
    cases h
    cases hc : (s.channels o.sender).trySend o.response with
    | sent c => exact .sent o _ c (by rw [hp, hpending]) (by rw [hf, hfailed]) hc
    | full => exact .full o _ (by rw [hp, hpending]) (by rw [hf, hfailed])
    | closed =>
      exact .closed o _ (by rw [hp, hpending]) (by rw [hf, hfailed])
        (Channel.trySend_closed.mp hc)

theorem moved_idle {a : Action π} {loop : Loop} (hp : loop.pending = []) (hf : loop.failed = []) :
    Effect keyText s a (s.enter loop) :=
  .moved a loop (fun o ho => by rw [hp] at ho; cases ho) hf

theorem Transition.effect [PacketRef π] {a : Action π} (h : Transition keyText addrText s a t) :
    Effect keyText s a t := by
  cases h with
  | subscribed identity hlock => exact subscribeStep_effect identity hlock
  | closed ch => exact .channel _ ch _ (fun hopen => by cases hopen)
  | delivered ch queue => exact .channel _ ch _ id
  | received batches hs => exact moved_idle rfl rfl
  | disconnected hs => exact moved_idle rfl rfl
  | skipped ts batches hs horder => exact moved_idle rfl rfl
  | snapshot order ts batches hs horder =>
    exact .moved _ _ (fun o ho => horder.subset (forwardOffers_subscriber ho)) rfl
  | heartbeat order hs horder =>
    refine .moved _ _ (fun o ho => ?_) rfl
    obtain ⟨subscriber,hm,rfl⟩ := List.mem_map.mp ho
    exact horder.subset hm
  | forwarded round hs hoffer => exact offerStep_effect (fun _ => rfl) (fun _ => rfl) hs hoffer
  | beaten round hs hoffer => exact offerStep_effect (fun _ => rfl) (fun _ => rfl) hs hoffer
  | ended failed count dropped hp hf hu => exact .ended failed count dropped hp hf
  | dropped failed hs => exact .dropped failed hs
  | logged hs => exact .logged
  | selected hs => exact moved_idle rfl rfl
  | exited hs => exact moved_idle rfl rfl

theorem step_effect [PacketRef π] {a : Action π} (h : step keyText addrText s a = some t) :
    Effect keyText s a t :=
  (step_transition h).effect

end Effects

end InertiaRelayer.Forwarder
