import InertiaRelayer.Relayer.Subscription

namespace InertiaRelayer.Forwarder
open Machine

def connectedValidator (subscriptions : PacketSubscriptions) : Option Pubkey :=
  match subscriptions.size with
  | 1 => subscriptions.keys.head?
  | _ => none

inductive Sending where
  | forward (ts : Timestamp) (batches : List ProtoPacketBatch)
  | heartbeat (count : UInt64)

namespace Sending

def batches : Sending → List ProtoPacketBatch
  | .forward _ batches => batches
  | .heartbeat _ => []

def offersTo (subscriber : Pubkey × Nat) : Sending → List Offer
  | .forward ts batches => (batches.filter (fun batch => !batch.packets.isEmpty)).map
      (fun batch => batchOffer ts batch subscriber)
  | .heartbeat count => [heartbeatOffer count subscriber]

theorem offersTo_subscriber {subscriber : Pubkey × Nat} {sending : Sending} {o : Offer}
    (h : o ∈ sending.offersTo subscriber) : (o.pubkey,o.sender) = subscriber := by
  cases sending with
  | forward ts batches =>
    obtain ⟨batch,_,rfl⟩ := List.mem_map.mp h
    rfl
  | heartbeat count =>
    rw [List.mem_singleton.mp h]
    rfl

end Sending

structure Snapshot where
  subscriptions : PacketSubscriptions
  sending : Sending

def Snapshot.offers (snapshot : Snapshot) : List Offer :=
  match (subscribers snapshot.subscriptions).head? with
  | none => []
  | some subscriber => snapshot.sending.offersTo subscriber

theorem Snapshot.offers_registered {snapshot : Snapshot} {o : Offer} (h : o ∈ snapshot.offers) :
    snapshot.subscriptions.lookup o.pubkey = some o.sender := by
  unfold Snapshot.offers at h
  split at h
  · cases h
  · rename_i subscriber hhead
    refine lookup_of_subscriber ?_
    rw [Sending.offersTo_subscriber h]
    exact List.mem_of_head? hhead

section Observations

variable {π : Type} [PacketRef π] (addrText : IpAddr → String)

def receivedAt (_ : State) : Action π → List ProtoPacketBatch
  | .receive batches => protoPacketBatches addrText batches
  | _ => []

def snapshotsAt (s : State) : Action π → List Snapshot
  | .snapshot _ ts => [⟨s.subscriptions,.forward ts s.loop.unsent⟩]
  | .heartbeatTick _ => [⟨s.subscriptions,.heartbeat s.heartbeatCount⟩]
  | _ => []

def offeredAt (s : State) : Action π → List Offer
  | .offer => s.loop.pending.take 1
  | _ => []

end Observations

section Single

variable {π : Type} {keyText : Pubkey → String} {addrText : IpAddr → String} {s t : State}
  {subscriptions : PacketSubscriptions}

theorem size_dropConnections_le (subscriptions : PacketSubscriptions) (failed : List Pubkey) :
    (dropConnections subscriptions failed).size ≤ subscriptions.size := by
  induction failed generalizing subscriptions with
  | nil => exact Nat.le_refl _
  | cons x failed ih => exact (ih _).trans (KeyMap.size_erase_le subscriptions x)

theorem size_subscribed {t : PacketSubscriptions} {pubkey : Pubkey} {sender : Nat}
    (hs : subscriptions.size ≤ 1)
    (h : subscribePackets keyText subscriptions (some pubkey) sender = .ok t) : t.size ≤ 1 := by
  obtain ⟨rfl,hempty⟩ := subscribePackets_ok keyText h
  cases hl : subscriptions.lookup pubkey with
  | none =>
    rw [KeyMap.size_insert_of_lookup_none hl, hempty hl]
  | some old =>
    rw [KeyMap.size_insert_of_lookup_some hl]
    exact hs

theorem size_effect {a : Action π} (hs : s.subscriptions.size ≤ 1) (h : Effect keyText s a t) :
    t.subscriptions.size ≤ 1 := by
  cases h with
  | subscribed identity subscriptions hlock hok => exact size_subscribed hs hok
  | dropped failed hloop => exact (size_dropConnections_le _ _).trans hs
  | _ => exact hs

theorem refused_keeps {identity : Pubkey} {err : String}
    (herr : addSubscription keyText s.subscriptions identity s.nextChannel = .error err) :
    (subscribeStep keyText s identity).subscriptions = s.subscriptions := by
  simp only [subscribeStep, subscribePackets, herr]
  rfl

theorem connectedValidator_iff (hs : subscriptions.size ≤ 1) (pubkey : Pubkey) :
    connectedValidator subscriptions = some pubkey ↔
      ∃ ch, subscriptions.lookup pubkey = some ch := by
  simp only [KeyMap.lookup_iff_entry]
  obtain ⟨entries,hnodup⟩ := subscriptions
  match entries, hnodup, hs with
  | [], _, _ => simp [connectedValidator, KeyMap.size]
  | [⟨key,ch⟩], _, _ => simp [connectedValidator, KeyMap.size, AList.keys, List.keys, eq_comm]

theorem subscribers_of_size_le_one (hs : subscriptions.size ≤ 1) {order : List (Pubkey × Nat)}
    (h : order.Perm (subscribers subscriptions)) :
    order = [] ∧ subscribers subscriptions = [] ∨
      ∃ subscriber, order = [subscriber] ∧ subscribers subscriptions = [subscriber] := by
  have hlen : (subscribers subscriptions).length ≤ 1 := by
    rw [subscribers, List.length_map]
    exact hs
  match hsub : subscribers subscriptions, hlen with
  | [], _ => exact .inl ⟨List.perm_nil.mp (hsub ▸ h),rfl⟩
  | [subscriber], _ => exact .inr ⟨subscriber,List.perm_singleton.mp (hsub ▸ h),rfl⟩

theorem forwardOffers_single (subscriber : Pubkey × Nat) (ts : Timestamp)
    (batches : List ProtoPacketBatch) :
    forwardOffers [subscriber] ts batches = (Sending.forward ts batches).offersTo subscriber := by
  induction batches with
  | nil => rfl
  | cons batch batches ih =>
    rw [forwardOffers, List.flatMap_cons, ← forwardOffers, ih]
    cases hempty : batch.packets.isEmpty with
    | true => simp [batchOffers, Sending.offersTo, hempty]
    | false => simp [batchOffers, Sending.offersTo, hempty]

theorem tryForward_pending (s : State) (o : Offer) (round : Round) :
    (s.tryForward o round).2.pending = round.pending := by
  unfold State.tryForward
  split <;> rfl

theorem offerStep_pending {enter : Round → Loop} {round : Round}
    (hpending : ∀ r, (enter r).pending = r.pending)
    (hs : s.loop = enter round) (h : offerStep s enter round = some t) :
    s.loop.pending = s.loop.pending.take 1 ++ t.loop.pending ∧ ∃ next, t.loop = enter next := by
  unfold offerStep at h
  split at h
  · cases h
  · rename_i o pending ho
    have hnext := tryForward_pending s o { round with pending := pending }
    generalize s.tryForward o { round with pending := pending } = outcome at h hnext
    obtain ⟨u,next⟩ := outcome
    cases h
    refine ⟨?_,next,rfl⟩
    rw [hs, hpending, ho, State.enter, hpending, hnext]
    rfl

theorem snapshotsAt_size {a : Action π} (hs : s.subscriptions.size ≤ 1) {snapshot : Snapshot}
    (h : snapshot ∈ snapshotsAt s a) : snapshot.subscriptions.size ≤ 1 := by
  cases a with
  | snapshot order ts => rwa [List.mem_singleton.mp h]
  | heartbeatTick order => rwa [List.mem_singleton.mp h]
  | _ => cases h

theorem forwardOffers_nil (ts : Timestamp) (batches : List ProtoPacketBatch) :
    forwardOffers [] ts batches = [] :=
  List.flatMap_eq_nil_iff.mpr (fun _ _ => rfl)

end Single

section Rounds

variable {π : Type} [PacketRef π] {keyText : Pubkey → String} {addrText : IpAddr → String}
  {s t : State} {a : Action π}

def Silent : Action π → Prop
  | .receive .. | .snapshot .. | .heartbeatTick .. | .offer => False
  | _ => True

variable (addrText) in
inductive LoopEffect (s : State) : Action π → Loop → Prop
  | kept (a : Action π) (ha : Silent a) : LoopEffect s a s.loop
  | idle (a : Action π) (ha : Silent a) (loop : Loop) (hp : s.loop.pending = [])
      (hu : s.loop.unsent = []) (hp' : loop.pending = []) (hu' : loop.unsent = []) :
      LoopEffect s a loop
  | received (batches : BankingPacketBatch π) (hs : s.loop = .waiting) :
      LoopEffect s (.receive batches) (.snapshotting (protoPacketBatches addrText batches))
  | snapshot (order : List (Pubkey × Nat)) (ts : Timestamp) (batches : List ProtoPacketBatch)
      (loop : Loop) (hs : s.loop = .snapshotting batches)
      (horder : order.Perm (subscribers s.subscriptions))
      (hp : loop.pending = forwardOffers order ts batches) (hu : loop.unsent = []) :
      LoopEffect s (.snapshot order ts) loop
  | heartbeat (order : List (Pubkey × Nat)) (hs : s.loop = .waiting)
      (horder : order.Perm (subscribers s.subscriptions)) :
      LoopEffect s (.heartbeatTick order)
        (.heartbeating ⟨order.map (heartbeatOffer s.heartbeatCount),[],0⟩)
  | offered (loop : Loop) (hp : s.loop.pending = s.loop.pending.take 1 ++ loop.pending)
      (hu : s.loop.unsent = []) (hu' : loop.unsent = []) : LoopEffect s .offer loop

theorem subscribeStep_loop (s : State) (identity : Pubkey) :
    (subscribeStep keyText s identity).loop = s.loop := by
  unfold subscribeStep
  split <;> rfl

theorem idle_of_loop (ha : Silent a) {old loop : Loop} (hs : s.loop = old) (hp : old.pending = [])
    (hu : old.unsent = []) (hp' : loop.pending = []) (hu' : loop.unsent = []) :
    LoopEffect addrText s a loop :=
  .idle a ha loop (hs ▸ hp) (hs ▸ hu) hp' hu'

theorem offered_of_offerStep {enter : Round → Loop} {round : Round}
    (hpending : ∀ r, (enter r).pending = r.pending) (hunsent : ∀ r, (enter r).unsent = [])
    (hs : s.loop = enter round) (h : offerStep s enter round = some t) :
    LoopEffect addrText s (.offer : Action π) t.loop := by
  obtain ⟨hp,next,hnext⟩ := offerStep_pending hpending hs h
  refine .offered _ hp ?_ ?_
  · rw [hs]
    exact hunsent round
  · rw [hnext]
    exact hunsent next

theorem Transition.loopEffect (h : Transition keyText addrText s a t) :
    LoopEffect addrText s a t.loop := by
  cases h with
  | subscribed identity hlock =>
    rw [subscribeStep_loop]
    exact .kept _ trivial
  | closed ch => exact .kept _ trivial
  | delivered ch queue => exact .kept _ trivial
  | received batches hs => exact .received batches hs
  | disconnected hs => exact idle_of_loop (a := .disconnect) trivial hs rfl rfl rfl rfl
  | skipped ts batches hs horder =>
    exact .snapshot [] ts batches _ hs horder (forwardOffers_nil ts batches).symm rfl
  | snapshot order ts batches hs horder => exact .snapshot order ts batches _ hs horder rfl rfl
  | heartbeat order hs horder => exact .heartbeat order hs horder
  | forwarded round hs hoffer =>
    exact offered_of_offerStep (fun _ => rfl) (fun _ => rfl) hs hoffer
  | beaten round hs hoffer => exact offered_of_offerStep (fun _ => rfl) (fun _ => rfl) hs hoffer
  | ended failed count dropped hp hf hu => exact .idle .endRound trivial _ hp hu rfl rfl
  | dropped failed hs => exact idle_of_loop (a := .dropConnections) trivial hs rfl rfl rfl rfl
  | logged hs => exact idle_of_loop (a := .dropLogTick) trivial hs rfl rfl rfl rfl
  | selected hs => exact idle_of_loop (a := .select) trivial hs rfl rfl rfl rfl
  | exited hs => exact idle_of_loop (a := .exit) trivial hs rfl rfl rfl rfl

theorem step_loopEffect (h : step keyText addrText s a = some t) :
    LoopEffect addrText s a t.loop :=
  (step_transition h).loopEffect

theorem silent_observations (addrText : IpAddr → String) (s : State) (ha : Silent a) :
    receivedAt addrText s a = [] ∧ snapshotsAt s a = [] ∧ offeredAt s a = [] := by
  cases a with
  | receive | snapshot | heartbeatTick | offer => cases ha
  | _ => exact ⟨rfl,rfl,rfl⟩

theorem received_balance {loop : Loop} (h : LoopEffect addrText s a loop) :
    s.loop.unsent ++ receivedAt addrText s a =
      (snapshotsAt s a).flatMap (fun snapshot => snapshot.sending.batches) ++ loop.unsent := by
  cases h with
  | kept a ha =>
    obtain ⟨hr,hsnap,_⟩ := silent_observations addrText s ha
    simp [hr, hsnap]
  | idle a ha loop hp hu hp' hu' =>
    obtain ⟨hr,hsnap,_⟩ := silent_observations addrText s ha
    simp [hr, hsnap, hu, hu']
  | received batches hs => simp [hs, Loop.unsent, receivedAt, snapshotsAt]
  | snapshot order ts batches loop hs horder hp hu =>
    rw [hu]
    simp [hs, Loop.unsent, receivedAt, snapshotsAt, Sending.batches]
  | heartbeat order hs horder =>
    simp [hs, Loop.unsent, receivedAt, snapshotsAt, Sending.batches]
  | offered loop hp hu hu' => simp [hu, hu', receivedAt, snapshotsAt]

theorem offered_balance {loop : Loop} (hs : s.subscriptions.size ≤ 1)
    (h : LoopEffect addrText s a loop) :
    s.loop.pending ++ (snapshotsAt s a).flatMap Snapshot.offers =
      offeredAt s a ++ loop.pending := by
  cases h with
  | kept a ha =>
    obtain ⟨_,hsnap,ho⟩ := silent_observations addrText s ha
    simp [hsnap, ho]
  | idle a ha loop hp hu hp' hu' =>
    obtain ⟨_,hsnap,ho⟩ := silent_observations addrText s ha
    simp [hsnap, ho, hp, hp']
  | received batches hloop => simp [hloop, Loop.pending, snapshotsAt, offeredAt]
  | snapshot order ts batches loop hloop horder hp hu =>
    have hunsent : s.loop.unsent = batches := by rw [hloop]; rfl
    rw [hp]
    rcases subscribers_of_size_le_one hs horder with ⟨rfl,hsub⟩ | ⟨subscriber,rfl,hsub⟩
    · simp [hloop, Loop.pending, snapshotsAt, offeredAt, Snapshot.offers, hsub, forwardOffers_nil]
    · rw [forwardOffers_single, ← hunsent]
      simp [hloop, Loop.pending, snapshotsAt, offeredAt, Snapshot.offers, hsub]
  | heartbeat order hloop horder =>
    rcases subscribers_of_size_le_one hs horder with ⟨rfl,hsub⟩ | ⟨subscriber,rfl,hsub⟩
    · simp [hloop, Loop.pending, snapshotsAt, offeredAt, Snapshot.offers, hsub]
    · simp [hloop, Loop.pending, snapshotsAt, offeredAt, Snapshot.offers, hsub, Sending.offersTo]
  | offered loop hp hu hu' => simpa [snapshotsAt, offeredAt] using hp

theorem size_step (hs : s.subscriptions.size ≤ 1) (h : step keyText addrText s a = some t) :
    t.subscriptions.size ≤ 1 :=
  size_effect hs (step_effect h)

theorem single_validator (keyText : Pubkey → String) (addrText : IpAddr → String)
    (as : List (Action π)) (s : State) (hrun : run (step keyText addrText) init as = some s) :
    let snapshots := collect (step keyText addrText) snapshotsAt init as
    s.subscriptions.size ≤ 1 ∧
    (∀ identity err t, addSubscription keyText s.subscriptions identity s.nextChannel = .error err →
      step keyText addrText s (.subscribePackets identity : Action π) = some t →
      t.subscriptions = s.subscriptions) ∧
    (∀ pubkey, connectedValidator s.subscriptions = some pubkey ↔
      ∃ ch, s.subscriptions.lookup pubkey = some ch) ∧
    collect (step keyText addrText) (receivedAt addrText) init as =
      snapshots.flatMap (fun snapshot => snapshot.sending.batches) ++ s.loop.unsent ∧
    collect (step keyText addrText) offeredAt init as ++ s.loop.pending =
      snapshots.flatMap Snapshot.offers ∧
    ∀ snapshot ∈ snapshots, snapshot.subscriptions.size ≤ 1 ∧
      ∀ o ∈ snapshot.offers, snapshot.subscriptions.lookup o.pubkey = some o.sender := by
  have hinit : init.subscriptions.size ≤ 1 := Nat.zero_le 1
  have hsize : s.subscriptions.size ≤ 1 := run_invariant (fun _ _ _ => size_step) hinit hrun
  have hreceived := collect_balance (fun s => s.loop.unsent) (fun _ _ _ => size_step)
    (fun _ _ _ _ h => received_balance (step_loopEffect h)) hinit hrun
  have hoffered := collect_balance (fun s => s.loop.pending) (fun _ _ _ => size_step)
    (fun _ _ _ hs h => offered_balance hs (step_loopEffect h)) hinit hrun
  rw [collect_flatMap] at hreceived hoffered
  refine ⟨hsize,?_,connectedValidator_iff hsize,hreceived,hoffered.symm,?_⟩
  · intro identity err t herr hstep
    simp only [step] at hstep
    split at hstep
    · cases hstep
    · rw [← Option.some.inj hstep, refused_keeps herr]
  · intro snapshot hsnap
    have hle := collect_forall (fun _ _ _ => size_step) (fun _ _ hs _ => snapshotsAt_size hs) as
      hinit snapshot hsnap
    exact ⟨hle,fun o ho => Snapshot.offers_registered ho⟩

end Rounds

section SecondIdentity

open Auth (pubkeyText ipText)

def rejectedIdentity : Pubkey := ⟨List.replicate 32 2,by decide⟩

def secondIdentity : List (Action Packet) :=
  [.subscribePackets identity,.subscribePackets rejectedIdentity,.select,
    .heartbeatTick [(identity,0)],.offer]

theorem rejected_identity_not_connected :
    ∃ s, run (step pubkeyText.text ipText.text) init secondIdentity = some s ∧
      s.subscriptions.lookup identity = some 0 ∧
      connectedValidator s.subscriptions = some identity ∧
      s.subscriptions.lookup rejectedIdentity = none := by
  obtain ⟨s,hs,hl⟩ := exists_run_of_map (step pubkeyText.text ipText.text) init secondIdentity
    (fun s => decide (s.subscriptions.lookup identity = some 0 ∧
      s.subscriptions.lookup rejectedIdentity = none)) (by decide)
  obtain ⟨hl,hnone⟩ := of_decide_eq_true hl
  obtain ⟨_,_,hconnected,_⟩ := single_validator pubkeyText.text ipText.text secondIdentity s hs
  exact ⟨s,hs,hl,(hconnected identity).mpr ⟨0,hl⟩,hnone⟩

end SecondIdentity

end InertiaRelayer.Forwarder
