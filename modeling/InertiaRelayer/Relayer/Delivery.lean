import InertiaRelayer.Relayer.SingleValidator
import InertiaRelayer.Relayer.FanOut

namespace InertiaRelayer.Forwarder
open Machine

def messages (responses : List SubscribePacketsResponse) : List Msg :=
  responses.filterMap SubscribePacketsResponse.msg

def pendingTo (ch : Nat) (offers : List Offer) : List SubscribePacketsResponse :=
  (offers.filter (fun o => o.sender = ch)).map Offer.response

def flight (ch : Nat) (c : Channel) (loop : Loop) : List Msg :=
  messages c.queue ++ messages (pendingTo ch loop.pending) ++ loop.unsent.map Msg.batch

def inFlight (ch : Nat) (s : State) : List Msg := flight ch (s.channels ch) s.loop

section Observations

variable {π : Type} [PacketRef π] (addrText : IpAddr → String)

def producedAt (s : State) : Action π → List Msg
  | .receive batches => (protoPacketBatches addrText batches).map Msg.batch
  | .heartbeatTick _ => [.heartbeat s.heartbeatCount]
  | _ => []

def deliveredAt (ch : Nat) (s : State) : Action π → List Msg
  | .deliver c => if c = ch then messages ((s.channels ch).queue.take 1) else []
  | _ => []

end Observations

section Queues

variable {π : Type} [PacketRef π] {keyText : Pubkey → String} {addrText : IpAddr → String}
  {s t : State} {a : Action π} {ch : Nat}

def Channel.hasRoom (c : Channel) : Bool :=
  c.isOpen && decide (c.queue.length < subscriberQueueCapacity)

theorem Channel.trySend_of_hasRoom {c : Channel} (response : SubscribePacketsResponse)
    (h : c.hasRoom = true) : c.trySend response = .sent { c with queue := c.queue ++ [response] } := by
  have hroom : c.isOpen = true ∧ c.queue.length < subscriberQueueCapacity := by
    simpa [Channel.hasRoom] using h
  simp [Channel.trySend, hroom]

theorem Channel.trySend_of_not_hasRoom {c : Channel} (response : SubscribePacketsResponse)
    (h : c.hasRoom = false) : c.trySend response = .full ∨ c.trySend response = .closed := by
  cases hopen : c.isOpen with
  | false => exact .inr (Channel.trySend_closed.mpr hopen)
  | true =>
    have hlen : ¬ c.queue.length < subscriberQueueCapacity := by
      simpa [Channel.hasRoom, hopen] using h
    exact .inl (by simp [Channel.trySend, hopen, hlen])

inductive QueueEffect (ch : Nat) (s : State) : Action π → Channel → Prop
  | kept (a : Action π) (ha : ∀ o, a = .offer → s.loop.pending.head? = some o → o.sender ≠ ch)
      (hd : a ≠ .deliver ch) : QueueEffect ch s a (s.channels ch)
  | delivered (r : SubscribePacketsResponse) (queue : List SubscribePacketsResponse)
      (hq : (s.channels ch).queue = r :: queue) :
      QueueEffect ch s (.deliver ch) { s.channels ch with queue := queue }
  | accepted (o : Offer) (ho : s.loop.pending.head? = some o) (hsender : o.sender = ch)
      (hroom : (s.channels ch).hasRoom = true) :
      QueueEffect ch s .offer { s.channels ch with queue := (s.channels ch).queue ++ [o.response] }
  | refused (o : Offer) (ho : s.loop.pending.head? = some o) (hsender : o.sender = ch)
      (hroom : (s.channels ch).hasRoom = false) : QueueEffect ch s .offer (s.channels ch)
  | opened (identity : Pubkey) (isOpen : Bool) (hch : ch = s.nextChannel) :
      QueueEffect ch s (.subscribePackets identity) ⟨isOpen,[]⟩
  | closed : QueueEffect ch s (.closeStream ch) ⟨false,[]⟩

omit [PacketRef π] in
theorem queueEffect_kept (ha : a ≠ .offer) (hd : a ≠ .deliver ch)
    (hc : t.channels ch = s.channels ch) : QueueEffect ch s a (t.channels ch) := by
  rw [hc]
  exact .kept a (fun _ h => absurd h ha) hd

theorem subscribeStep_channels (keyText : Pubkey → String) (s : State) (identity : Pubkey) :
    ∃ isOpen, (subscribeStep keyText s identity).channels =
      Function.update s.channels s.nextChannel ⟨isOpen,[]⟩ := by
  unfold subscribeStep
  split
  · exact ⟨false,rfl⟩
  · exact ⟨true,rfl⟩

theorem tryForward_channels (ch : Nat) (s : State) (o : Offer) (round : Round) :
    (s.tryForward o round).1.channels ch =
      if o.sender = ch ∧ (s.channels ch).hasRoom = true then
        { s.channels ch with queue := (s.channels ch).queue ++ [o.response] }
      else s.channels ch := by
  by_cases hsender : o.sender = ch
  · subst hsender
    cases hroom : (s.channels o.sender).hasRoom with
    | true =>
      simp [State.tryForward, Channel.trySend_of_hasRoom o.response hroom, State.setChannel]
    | false =>
      rcases Channel.trySend_of_not_hasRoom o.response hroom with hsend | hsend
      · simp [State.tryForward, hsend]
      · simp [State.tryForward, hsend]
  · have hne : ch ≠ o.sender := fun h => hsender h.symm
    unfold State.tryForward
    split <;> simp [State.setChannel, hsender, hne]

omit [PacketRef π] in
theorem offerStep_queueEffect {enter : Round → Loop} {round : Round}
    (hpending : ∀ r, (enter r).pending = r.pending)
    (hs : s.loop = enter round) (h : offerStep s enter round = some t) :
    QueueEffect ch s (.offer : Action π) (t.channels ch) := by
  unfold offerStep at h
  split at h
  · cases h
  · rename_i o pending ho
    have hhead : s.loop.pending.head? = some o := by rw [hs, hpending, ho]; rfl
    have hchannels := tryForward_channels ch s o { round with pending := pending }
    have ht : t.channels ch = (s.tryForward o { round with pending := pending }).1.channels ch := by
      cases h
      rfl
    rw [ht, hchannels]
    by_cases hsender : o.sender = ch
    · cases hroom : (s.channels ch).hasRoom with
      | true => simpa [hsender] using QueueEffect.accepted o hhead hsender hroom
      | false => simpa [hsender] using QueueEffect.refused o hhead hsender hroom
    · rw [if_neg (fun hand => hsender hand.1)]
      refine .kept _ (fun o' _ ho' => ?_) nofun
      rw [hhead] at ho'
      cases ho'
      exact hsender

theorem step_queueEffect (ch : Nat) (h : step keyText addrText s a = some t) :
    QueueEffect ch s a (t.channels ch) := by
  cases a with
  | subscribePackets identity =>
    simp only [step] at h
    split at h
    · cases h
    · cases h
      obtain ⟨isOpen,hc⟩ := subscribeStep_channels keyText s identity
      rw [hc]
      by_cases heq : ch = s.nextChannel
      · subst heq
        simpa using QueueEffect.opened identity isOpen rfl
      · rw [Function.update_of_ne heq]
        exact .kept _ (by simp) (by simp)
  | closeStream c =>
    simp only [step] at h
    split at h
    · cases h
      by_cases heq : c = ch
      · subst heq
        simpa [State.setChannel] using QueueEffect.closed
      · have hne : ch ≠ c := fun he => heq he.symm
        exact queueEffect_kept (by simp) (by simp) (by simp [State.setChannel, hne])
    · cases h
  | deliver c =>
    simp only [step] at h
    split at h
    · cases h
    · rename_i r queue hq
      cases h
      by_cases heq : c = ch
      · subst heq
        simpa [State.setChannel] using QueueEffect.delivered r queue hq
      · have hne : ch ≠ c := fun he => heq he.symm
        refine queueEffect_kept (by simp) ?_ (by simp [State.setChannel, hne])
        intro hd
        cases hd
        exact heq rfl
  | offer =>
    cases step_transition h with
    | forwarded round hs hoffer => exact offerStep_queueEffect (fun _ => rfl) hs hoffer
    | beaten round hs hoffer => exact offerStep_queueEffect (fun _ => rfl) hs hoffer
  | _ =>
    refine queueEffect_kept (by simp) (by simp) ?_
    cases step_transition h with
    | _ => rfl

end Queues

section Flow

variable {π : Type} [PacketRef π] {keyText : Pubkey → String} {addrText : IpAddr → String}
  {s t : State} {a : Action π} {ch : Nat} {c : Channel} {loop : Loop}

def Sending.messages : Sending → List Msg
  | .forward _ batches => (batches.filter (fun batch => !batch.packets.isEmpty)).map Msg.batch
  | .heartbeat count => [.heartbeat count]

theorem messages_append (rs qs : List SubscribePacketsResponse) :
    messages (rs ++ qs) = messages rs ++ messages qs :=
  List.filterMap_append

theorem pendingTo_cons (o : Offer) (offers : List Offer) :
    pendingTo ch (o :: offers) =
      (if o.sender = ch then [o.response] else []) ++ pendingTo ch offers := by
  by_cases h : o.sender = ch
  · simp [pendingTo, h]
  · simp [pendingTo, h]

theorem pendingTo_of_forall {offers : List Offer} (h : ∀ o ∈ offers, o.sender = ch) :
    pendingTo ch offers = offers.map Offer.response := by
  rw [pendingTo, List.filter_eq_self.mpr (fun o ho => decide_eq_true (h o ho))]

theorem pendingTo_of_none {offers : List Offer} (h : ∀ o ∈ offers, o.sender ≠ ch) :
    pendingTo ch offers = [] := by
  rw [pendingTo, List.filter_eq_nil_iff.mpr (fun o ho => by simpa using h o ho), List.map_nil]

theorem messages_offersTo (subscriber : Pubkey × Nat) (sending : Sending) :
    messages (pendingTo ch (sending.offersTo subscriber)) =
      if subscriber.2 = ch then sending.messages else [] := by
  have hsender : ∀ o ∈ sending.offersTo subscriber, o.sender = subscriber.2 :=
    fun o ho => congrArg Prod.snd (Sending.offersTo_subscriber ho)
  split
  · rename_i heq
    rw [pendingTo_of_forall (fun o ho => (hsender o ho).trans heq)]
    cases sending with
    | forward ts batches =>
      simp [Sending.offersTo, Sending.messages, messages, batchOffer, List.filterMap_map,
        Function.comp_def]
    | heartbeat count => simp [Sending.offersTo, Sending.messages, messages, heartbeatOffer]
  · rename_i hne
    rw [pendingTo_of_none (fun o ho heq => hne ((hsender o ho).symm.trans heq))]
    rfl

theorem loopEffect_silent (ha : Silent a) (h : LoopEffect addrText s a loop) :
    loop.pending = s.loop.pending ∧ loop.unsent = s.loop.unsent := by
  cases h with
  | kept => exact ⟨rfl,rfl⟩
  | idle a ha loop hp hu hp' hu' => exact ⟨hp'.trans hp.symm,hu'.trans hu.symm⟩
  | received | snapshot | heartbeat | offered => cases ha

theorem producedAt_silent (ha : Silent a) : producedAt addrText s a = [] := by
  cases a with
  | receive | snapshot | heartbeatTick | offer => cases ha
  | _ => rfl

omit [PacketRef π] in
theorem deliveredAt_kept (hd : a ≠ .deliver ch) : deliveredAt ch s a = [] := by
  cases a with
  | deliver d =>
    rw [deliveredAt, if_neg]
    rintro rfl
    exact hd rfl
  | _ => rfl

def Resets (ch : Nat) (s : State) : Action π → Prop
  | .subscribePackets _ => ch = s.nextChannel
  | .closeStream c => c = ch
  | _ => False

omit [PacketRef π] in
theorem queue_flow (ha : Silent a) (hq : QueueEffect ch s a c) :
    deliveredAt ch s a ++ messages c.queue = messages (s.channels ch).queue ∨
      Resets ch s a ∧ deliveredAt ch s a = [] ∧ c.queue = [] := by
  cases hq with
  | kept a hoffer hd =>
    rw [deliveredAt_kept hd]
    exact .inl rfl
  | delivered r queue hqueue =>
    left
    rw [deliveredAt, if_pos rfl, ← messages_append, hqueue]
    rfl
  | accepted | refused => cases ha
  | opened identity isOpen hch => exact .inr ⟨hch,rfl,rfl⟩
  | closed => exact .inr ⟨rfl,rfl,rfl⟩

theorem silent_flow (ha : Silent a) (hq : QueueEffect ch s a c) (hl : LoopEffect addrText s a loop) :
    (deliveredAt ch s a ++ flight ch c loop).Sublist (inFlight ch s ++ producedAt addrText s a) ∧
      (¬ Resets ch s a →
        deliveredAt ch s a ++ flight ch c loop = inFlight ch s ++ producedAt addrText s a) := by
  obtain ⟨hp,hu⟩ := loopEffect_silent ha hl
  rw [producedAt_silent ha, List.append_nil, inFlight, flight, flight, hp, hu, ← List.append_assoc,
    ← List.append_assoc]
  rcases queue_flow ha hq with heq | ⟨hreset,hnone,hempty⟩
  · rw [heq]
    exact ⟨List.Sublist.refl _,fun _ => rfl⟩
  · refine ⟨List.Sublist.append_right (List.Sublist.append_right ?_ _) _,fun h => absurd hreset h⟩
    simp [hnone, hempty, messages]

theorem pending_of_offered (hp : s.loop.pending = s.loop.pending.take 1 ++ loop.pending) {o : Offer}
    (ho : s.loop.pending.head? = some o) : s.loop.pending = o :: loop.pending := by
  obtain ⟨rest,hrest⟩ := List.head?_eq_some_iff.mp ho
  rw [hrest] at hp ⊢
  exact hp

def RoomFor (ch : Nat) (s : State) : Prop :=
  ∀ o ∈ s.loop.pending.head?, o.sender = ch → (s.channels ch).hasRoom = true

theorem offer_flow (hq : QueueEffect ch s (.offer : Action π) c)
    (hl : LoopEffect addrText s (.offer : Action π) loop) :
    (flight ch c loop).Sublist (inFlight ch s) ∧
      (RoomFor ch s → flight ch c loop = inFlight ch s) := by
  cases hl with
  | kept _ ha | idle _ ha => cases ha
  | offered loop hp hu hu' =>
    rw [inFlight, flight, flight, hu, hu']
    cases hq with
    | kept _ hoffer hd =>
      cases hhead : s.loop.pending.head? with
      | none =>
        have hnil := List.head?_eq_none_iff.mp hhead
        rw [hnil] at hp ⊢
        rw [(List.nil_eq_append_iff.mp hp).2]
        exact ⟨List.Sublist.refl _,fun _ => rfl⟩
      | some o =>
        rw [pending_of_offered hp hhead, pendingTo_cons, if_neg (hoffer o rfl hhead)]
        exact ⟨List.Sublist.refl _,fun _ => rfl⟩
    | accepted o ho hsender hroom =>
      rw [pending_of_offered hp ho, pendingTo_cons, if_pos hsender, messages_append,
        messages_append, ← List.append_assoc (messages (s.channels ch).queue)]
      exact ⟨List.Sublist.refl _,fun _ => rfl⟩
    | refused o ho hsender hroom =>
      rw [pending_of_offered hp ho, pendingTo_cons, messages_append]
      refine ⟨?_,fun h => ?_⟩
      · exact (((List.sublist_append_right _ _).append_left _)).append_right _
      · rw [h o ho hsender] at hroom
        cases hroom

theorem messages_offers (snapshot : Snapshot) :
    messages (pendingTo ch snapshot.offers) =
      if (subscribers snapshot.subscriptions).head?.map Prod.snd = some ch then
        snapshot.sending.messages
      else [] := by
  unfold Snapshot.offers
  cases hhead : (subscribers snapshot.subscriptions).head? with
  | none => rfl
  | some subscriber => simp [messages_offersTo]

theorem Sending.messages_forward (ts : Timestamp) (batches : List ProtoPacketBatch) :
    ((Sending.forward ts batches).messages).Sublist (batches.map Msg.batch) :=
  List.filter_sublist.map Msg.batch

theorem Sending.messages_forward_eq (ts : Timestamp) {batches : List ProtoPacketBatch}
    (h : ∀ batch ∈ batches, batch.packets ≠ []) :
    (Sending.forward ts batches).messages = batches.map Msg.batch := by
  rw [Sending.messages, List.filter_eq_self.mpr]
  intro batch hbatch
  simpa using h batch hbatch

structure Steady (ch : Nat) (s : State) (a : Action π) : Prop where
  kept : ¬ Resets ch s a
  room : a = .offer → RoomFor ch s
  registered : (subscribers s.subscriptions).head?.map Prod.snd = some ch
  nonempty : ∀ batch ∈ s.loop.unsent, batch.packets ≠ []

theorem snapshot_flow (hsize : s.subscriptions.size ≤ 1) {order : List (Pubkey × Nat)}
    {ts : Timestamp} (hl : LoopEffect addrText s (.snapshot order ts : Action π) loop) :
    (flight ch (s.channels ch) loop).Sublist (inFlight ch s) ∧
      (Steady ch s (.snapshot order ts : Action π) →
        flight ch (s.channels ch) loop = inFlight ch s) := by
  have hoffers := offered_balance hsize hl
  cases hl with
  | kept _ ha | idle _ ha => cases ha
  | snapshot order ts batches loop hloop horder hp hu =>
    rw [hloop] at hoffers
    have hpending : loop.pending = Snapshot.offers ⟨s.subscriptions,.forward ts batches⟩ := by
      simpa [Loop.pending, Loop.unsent, snapshotsAt, offeredAt, hloop] using hoffers.symm
    have hheld : inFlight ch s = messages (s.channels ch).queue ++ batches.map Msg.batch := by
      simp [inFlight, flight, hloop, Loop.pending, Loop.unsent, pendingTo, messages]
    rw [hheld, flight, hu, hpending, messages_offers, List.map_nil, List.append_nil]
    refine ⟨List.Sublist.append_left ?_ _,fun hsteady => ?_⟩
    · split
      · exact Sending.messages_forward ts batches
      · exact List.nil_sublist _
    · have hne := hsteady.nonempty
      rw [hloop] at hne
      rw [if_pos hsteady.registered]
      exact congrArg _ (Sending.messages_forward_eq ts hne)

theorem heartbeat_flow (hsize : s.subscriptions.size ≤ 1) {order : List (Pubkey × Nat)}
    (hl : LoopEffect addrText s (.heartbeatTick order : Action π) loop) :
    (flight ch (s.channels ch) loop).Sublist (inFlight ch s ++ [.heartbeat s.heartbeatCount]) ∧
      (Steady ch s (.heartbeatTick order : Action π) →
        flight ch (s.channels ch) loop = inFlight ch s ++ [.heartbeat s.heartbeatCount]) := by
  have hoffers := offered_balance hsize hl
  cases hl with
  | kept _ ha | idle _ ha => cases ha
  | heartbeat order hloop horder =>
    have hpending : order.map (heartbeatOffer s.heartbeatCount) =
        Snapshot.offers ⟨s.subscriptions,.heartbeat s.heartbeatCount⟩ := by
      simpa [Loop.pending, snapshotsAt, offeredAt, hloop] using hoffers.symm
    simp only [inFlight, flight, hloop, Loop.pending, Loop.unsent, hpending, messages_offers]
    refine ⟨?_,fun hsteady => ?_⟩
    · split
      · simp [pendingTo, messages, Sending.messages]
      · simp [pendingTo, messages]
    · rw [if_pos hsteady.registered]
      simp [pendingTo, messages, Sending.messages]

theorem step_flow (ch : Nat) (hsize : s.subscriptions.size ≤ 1)
    (h : step keyText addrText s a = some t) :
    (deliveredAt ch s a ++ inFlight ch t).Sublist (inFlight ch s ++ producedAt addrText s a) ∧
      (Steady ch s a →
        deliveredAt ch s a ++ inFlight ch t = inFlight ch s ++ producedAt addrText s a) := by
  have hq := step_queueEffect ch h
  have hl := step_loopEffect h
  rw [inFlight]
  generalize t.channels ch = c at hq ⊢
  generalize t.loop = loop at hl ⊢
  cases a with
  | receive batches =>
    cases hq with
    | kept =>
      cases hl with
      | kept _ ha | idle _ ha => cases ha
      | received batches hloop =>
        simp [deliveredAt, producedAt, inFlight, flight, hloop, Loop.pending, Loop.unsent]
  | snapshot order ts =>
    cases hq with
    | kept => simpa [deliveredAt, producedAt] using snapshot_flow hsize hl
  | heartbeatTick order =>
    cases hq with
    | kept => simpa [deliveredAt, producedAt] using heartbeat_flow hsize hl
  | offer =>
    obtain ⟨hsub,heq⟩ := offer_flow hq hl
    simp only [deliveredAt, producedAt, List.nil_append, List.append_nil]
    exact ⟨hsub,fun hsteady => heq (hsteady.room rfl)⟩
  | _ =>
    have hsilent := silent_flow (by trivial) hq hl
    exact ⟨hsilent.1,fun hsteady => hsilent.2 hsteady.kept⟩

end Flow

section Secure

variable {π : Type} [PacketRef π] {keyText : Pubkey → String} {addrText : IpAddr → String}
  {s t : State} {a : Action π} {identity : Pubkey} {ch : Nat}

def Healthy (identity : Pubkey) (ch : Nat) (s : State) : Action π → Prop
  | .subscribePackets other => other ≠ identity
  | .closeStream c => c ≠ ch
  | .offer => ∀ o ∈ s.loop.pending.head?, o.sender = ch →
      (s.channels ch).queue.length < subscriberQueueCapacity
  | _ => True

instance (identity : Pubkey) (ch : Nat) (s : State) :
    ∀ a : Action π, Decidable (Healthy identity ch s a)
  | .subscribePackets other => inferInstanceAs (Decidable (other ≠ identity))
  | .closeStream c => inferInstanceAs (Decidable (c ≠ ch))
  | .offer => inferInstanceAs (Decidable (∀ o ∈ s.loop.pending.head?, o.sender = ch →
      (s.channels ch).queue.length < subscriberQueueCapacity))
  | .deliver _ | .receive _ | .disconnect | .snapshot _ _ | .heartbeatTick _ | .endRound
  | .dropConnections | .dropLogTick | .select | .exit => .isTrue trivial

structure Holds (identity : Pubkey) (ch : Nat) (s : State) : Prop where
  registered : s.subscriptions.lookup identity = some ch
  created : ch < s.nextChannel
  single : s.subscriptions.size ≤ 1
  opened : (s.channels ch).isOpen = true
  pending : ∀ o ∈ s.loop.pending, o.pubkey = identity → o.sender = ch
  failed : ∀ x ∈ s.loop.failed, x.1 ≠ identity
  nonempty : ∀ batch ∈ s.loop.unsent, batch.packets ≠ []

theorem opened_step (hs : Holds identity ch s) (hh : Healthy identity ch s a)
    (h : step keyText addrText s a = some t) : (t.channels ch).isOpen = true := by
  have hq := step_queueEffect ch h
  generalize t.channels ch = c at hq ⊢
  cases hq with
  | opened identity isOpen hch => exact absurd hch (Nat.ne_of_lt hs.created)
  | closed => exact absurd rfl hh
  | _ => exact hs.opened

theorem nonempty_step (hs : ∀ batch ∈ s.loop.unsent, batch.packets ≠ [])
    (h : step keyText addrText s a = some t) : ∀ batch ∈ t.loop.unsent, batch.packets ≠ [] := by
  have hl := step_loopEffect h
  generalize t.loop = loop at hl ⊢
  cases hl with
  | kept => exact hs
  | received batches hloop =>
    intro batch hbatch
    exact (packets_of_mem addrText hbatch).1
  | idle a ha loop hp hu hp' hu' => simp [hu']
  | snapshot order ts batches loop hloop horder hp hu => simp [hu]
  | heartbeat => simp [Loop.unsent]
  | offered loop hp hu hu' => simp [hu']

theorem holds_alone (hs : Holds identity ch s) {other : Pubkey} (hne : other ≠ identity)
    {subscriptions : PacketSubscriptions} :
    subscribePackets keyText s.subscriptions (some other) s.nextChannel ≠ .ok subscriptions := by
  intro hok
  have hconnected := (connectedValidator_iff hs.single identity).mpr ⟨ch,hs.registered⟩
  have hnone : s.subscriptions.lookup other = none := by
    by_contra hsome
    obtain ⟨old,hold⟩ := Option.ne_none_iff_exists'.mp hsome
    rw [(connectedValidator_iff hs.single other).mpr ⟨old,hold⟩] at hconnected
    exact hne (Option.some.inj hconnected)
  have hpos := KeyMap.size_pos_of_lookup hs.registered
  rw [(subscribePackets_ok keyText hok).2 hnone] at hpos
  cases hpos

theorem holds_offered (hs : Holds identity ch s) {o : Offer} {loop : Loop}
    (hp : s.loop.pending = o :: loop.pending) :
    ∀ o' ∈ loop.pending, o'.pubkey = identity → o'.sender = ch :=
  fun o' ho' => hs.pending o' (hp ▸ List.mem_cons_of_mem o ho')

theorem holds_closed (hs : Holds identity ch s) {o : Offer} {loop : Loop}
    (hp : s.loop.pending = o :: loop.pending)
    (hf : loop.failed = s.loop.failed ++ [(o.pubkey,o.sender)])
    (hc : (s.channels o.sender).isOpen = false) : ∀ x ∈ loop.failed, x.1 ≠ identity := by
  rw [hf]
  intro x hx
  rcases List.mem_append.mp hx with hx | hx
  · exact hs.failed x hx
  · rintro rfl
    rw [List.mem_singleton.mp hx] at hs
    have hsender := hs.pending o (hp ▸ List.mem_cons_self) rfl
    rw [hsender, hs.opened] at hc
    cases hc

theorem holds_step (hs : Holds identity ch s) (hh : Healthy identity ch s a)
    (h : step keyText addrText s a = some t) : Holds identity ch t := by
  have hopened := opened_step hs hh h
  have hnonempty := nonempty_step hs.nonempty h
  have hsingle := size_step hs.single h
  have he := step_effect h
  cases he with
  | subscribed other subscriptions hlock hok => exact absurd hok (holds_alone hs hh)
  | refused other failure herr =>
    exact { hs with created := Nat.lt_succ_of_lt hs.created, opened := hopened }
  | channel a c channel hc => exact { hs with opened := hopened }
  | moved a loop hp hf =>
    refine { hs with pending := ?_, failed := by simp [State.enter, hf], nonempty := hnonempty }
    rintro o ho rfl
    have hlookup := lookup_of_subscriber (hp o ho)
    rw [hs.registered] at hlookup
    exact (Option.some.inj hlookup).symm
  | sent o loop c hp hf hc =>
    exact { hs with
      opened := hopened
      pending := holds_offered hs hp
      failed := by rw [State.enter, hf]; exact hs.failed
      nonempty := hnonempty }
  | full o loop hp hf =>
    exact { hs with
      pending := holds_offered hs hp
      failed := by rw [State.enter, hf]; exact hs.failed
      nonempty := hnonempty }
  | closed o loop hp hf hc =>
    exact { hs with
      pending := holds_offered hs hp
      failed := holds_closed hs hp hf hc
      nonempty := hnonempty }
  | ended failed count dropped hp hf =>
    subst hf
    exact { hs with pending := by simp [State.enter, Loop.pending], nonempty := hnonempty }
  | dropped failed hloop =>
    refine { hs with
      registered := (lookup_dropConnections ?_).trans hs.registered
      single := hsingle
      pending := by simp [State.enter, Loop.pending]
      failed := by simp [State.enter, Loop.failed]
      nonempty := hnonempty }
    intro hmem
    obtain ⟨x,hx,rfl⟩ := List.mem_map.mp hmem
    have hfailed := hs.failed x
    rw [hloop] at hfailed
    exact hfailed hx rfl
  | logged =>
    exact { hs with
      pending := by simp [State.enter, Loop.pending]
      failed := by simp [State.enter, Loop.failed]
      nonempty := hnonempty }

end Secure

section Streams

variable {π : Type} [PacketRef π] {keyText : Pubkey → String} {addrText : IpAddr → String}
  {s t : State} {a : Action π} {identity : Pubkey} {ch : Nat}

omit [PacketRef π] in
theorem steady_of_holds (hs : Holds identity ch s) (hh : Healthy identity ch s a) :
    Steady ch s a where
  kept hreset := by
    cases a with
    | subscribePackets other => exact Nat.ne_of_lt hs.created hreset
    | closeStream c => exact hh hreset
    | _ => exact hreset
  room ha o ho hsender := by
    subst ha
    simp [Channel.hasRoom, hs.opened, hh o ho hsender]
  registered := by
    have hentry := KeyMap.lookup_iff_entry.mp hs.registered
    rcases subscribers_of_size_le_one hs.single (List.Perm.refl _) with ⟨hnil,_⟩ | ⟨one,hone,_⟩
    · rw [subscribers, List.map_eq_nil_iff] at hnil
      rw [hnil] at hentry
      cases hentry
    · have hmem : (identity,ch) ∈ subscribers s.subscriptions :=
        List.mem_map.mpr ⟨⟨identity,ch⟩,hentry,rfl⟩
      rw [hone] at hmem ⊢
      rw [← List.mem_singleton.mp hmem]
      rfl
  nonempty := hs.nonempty

theorem Loop.idle_empty {loop : Loop} (h : loop.idle = true) :
    loop.pending = [] ∧ loop.failed = [] ∧ loop.unsent = [] := by
  cases loop with
  | checking | waiting => exact ⟨rfl,rfl,rfl⟩
  | snapshotting | forwarding | heartbeating | dropping | stopped => cases h

theorem holds_of_idle {as : List (Action π)} (hrun : run (step keyText addrText) init as = some s)
    (hidle : s.loop.idle = true) (hsub : s.subscriptions.lookup identity = some ch)
    (hopen : (s.channels ch).isOpen = true) : Holds identity ch s where
  registered := hsub
  created := (run_invariant (fun _ _ _ hs h => tracked_effect hs (step_effect h)) tracked_init
    hrun).subscribed identity ch hsub
  single := run_invariant (I := fun s => s.subscriptions.size ≤ 1) (fun _ _ _ => size_step)
    (Nat.zero_le 1) hrun
  opened := hopen
  pending := by simp [(Loop.idle_empty hidle).1]
  failed := by simp [(Loop.idle_empty hidle).2.1]
  nonempty := by simp [(Loop.idle_empty hidle).2.2]

theorem stream_sublist {as : List (Action π)} (hrun : run (step keyText addrText) init as = some s)
    (ch : Nat) :
    (collect (step keyText addrText) (deliveredAt ch) init as ++ inFlight ch s).Sublist
      (collect (step keyText addrText) (producedAt addrText) init as) :=
  collect_sublist (I := fun s => s.subscriptions.size ≤ 1) (inFlight ch) (fun _ _ _ => size_step)
    (fun _ _ _ hs h => (step_flow ch hs h).1) (Nat.zero_le 1) hrun

theorem stream_complete {as : List (Action π)} (hs : Holds identity ch s)
    (hrun : run (step keyText addrText) s as = some t)
    (hh : Along (step keyText addrText) (Healthy identity ch) s as) :
    collect (step keyText addrText) (deliveredAt ch) s as ++ inFlight ch t =
      inFlight ch s ++ collect (step keyText addrText) (producedAt addrText) s as :=
  collect_balance_along (inFlight ch) (fun _ _ _ => holds_step)
    (fun _ _ _ hs hh h => (step_flow ch hs.single h).2 (steady_of_holds hs hh)) hs hh hrun

end Streams

end InertiaRelayer.Forwarder
