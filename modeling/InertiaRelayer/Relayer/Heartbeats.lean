import InertiaRelayer.Relayer.Delivery

namespace InertiaRelayer.Forwarder
open Machine

def Msg.beats : Msg → List UInt64
  | .heartbeat count => [count]
  | .batch _ => []

def nextBeat (s : State) : UInt64 :=
  if s.loop.readLocked then s.heartbeatCount + 1 else s.heartbeatCount

def ticks {π : Type} : List (Action π) → Nat
  | [] => 0
  | .heartbeatTick _ :: as => ticks as + 1
  | _ :: as => ticks as

section Counts

variable {π : Type} [PacketRef π] {keyText : Pubkey → String} {addrText : IpAddr → String}
  {s t : State} {a : Action π}

theorem nextBeat_enter {loop : Loop} (h : loop.readLocked = s.loop.readLocked) :
    nextBeat (s.enter loop) = nextBeat s := by
  rw [nextBeat, State.enter, h]
  rfl

theorem tryForward_heartbeatCount (s : State) (o : Offer) (round : Round) :
    (s.tryForward o round).1.heartbeatCount = s.heartbeatCount := by
  unfold State.tryForward
  split <;> rfl

theorem subscribeStep_heartbeatCount (s : State) (identity : Pubkey) :
    (subscribeStep keyText s identity).heartbeatCount = s.heartbeatCount := by
  unfold subscribeStep
  split <;> rfl

theorem offerStep_nextBeat {enter : Round → Loop} {round : Round} (locked : Bool)
    (hlocked : ∀ r, (enter r).readLocked = locked)
    (hs : s.loop = enter round) (h : offerStep s enter round = some t) :
    nextBeat t = nextBeat s := by
  unfold offerStep at h
  split at h
  · cases h
  · rename_i o pending ho
    have hcount := tryForward_heartbeatCount s o { round with pending := pending }
    generalize s.tryForward o { round with pending := pending } = outcome at h hcount
    cases h
    rw [nextBeat, nextBeat, State.enter, hs, hlocked, hlocked, hcount]

theorem endRound_nextBeat (h : step keyText addrText s (.endRound : Action π) = some t) :
    nextBeat t = nextBeat s := by
  obtain ⟨failed,dropped,⟨hs,rfl⟩ | ⟨hs,rfl⟩⟩ := endRound_some h
  · simp [nextBeat, State.enter, hs, Loop.readLocked]
  · simp [nextBeat, State.enter, hs, Loop.readLocked]

theorem nextBeat_step (h : step keyText addrText s a = some t) :
    (∃ order, a = .heartbeatTick order ∧ s.heartbeatCount = nextBeat s ∧
        nextBeat t = nextBeat s + 1) ∨
      (∀ as, ticks (a :: as) = ticks as) ∧ (producedAt addrText s a).flatMap Msg.beats = [] ∧
        nextBeat t = nextBeat s := by
  cases step_transition h with
  | heartbeat order hs horder =>
    exact .inl ⟨order,rfl,by simp [nextBeat, hs, Loop.readLocked],
      by simp [nextBeat, State.enter, hs, Loop.readLocked]⟩
  | subscribed identity hlock =>
    exact .inr ⟨fun _ => rfl,rfl,
      by simp [nextBeat, subscribeStep_loop, subscribeStep_heartbeatCount]⟩
  | received batches hs =>
    exact .inr ⟨fun _ => rfl,by simp [producedAt, Msg.beats],nextBeat_enter (by rw [hs]; rfl)⟩
  | forwarded round hs hoffer =>
    exact .inr ⟨fun _ => rfl,rfl,offerStep_nextBeat false (fun _ => rfl) hs hoffer⟩
  | beaten round hs hoffer =>
    exact .inr ⟨fun _ => rfl,rfl,offerStep_nextBeat true (fun _ => rfl) hs hoffer⟩
  | ended => exact .inr ⟨fun _ => rfl,rfl,endRound_nextBeat h⟩
  | skipped ts batches hs horder | snapshot order ts batches hs horder | disconnected hs
  | selected hs | exited hs =>
    exact .inr ⟨fun _ => rfl,rfl,nextBeat_enter (by rw [hs]; rfl)⟩
  | dropped failed hs | logged hs =>
    exact .inr ⟨fun _ => rfl,rfl,by simp [nextBeat, State.enter, hs, Loop.readLocked]⟩
  | closed | delivered => exact .inr ⟨fun _ => rfl,rfl,rfl⟩

theorem beats_run {as : List (Action π)} (hrun : run (step keyText addrText) s as = some t) :
    (collect (step keyText addrText) (producedAt addrText) s as).flatMap Msg.beats =
        (List.range (ticks as)).map (fun i => nextBeat s + UInt64.ofNat i) ∧
      nextBeat t = nextBeat s + UInt64.ofNat (ticks as) := by
  induction as generalizing s with
  | nil =>
    obtain rfl := Option.some.inj hrun
    exact ⟨rfl,(UInt64.add_zero _).symm⟩
  | cons a as ih =>
    obtain ⟨u,hu,hrest⟩ := run_cons hrun
    obtain ⟨hbeats,hlast⟩ := ih hrest
    rw [collect_cons _ hu, List.flatMap_append, hbeats, hlast]
    rcases nextBeat_step hu with ⟨order,rfl,hcount,hnext⟩ | ⟨hticks,hnone,hnext⟩
    · have hsucc : ∀ i, nextBeat u + UInt64.ofNat i = nextBeat s + UInt64.ofNat (i + 1) := by
        intro i
        rw [hnext, UInt64.add_assoc, Nat.add_comm i 1, UInt64.ofNat_add]
        rfl
      refine ⟨?_,hsucc _⟩
      rw [ticks, List.range_succ_eq_map]
      simp [producedAt, Msg.beats, hcount, hsucc, Function.comp_def]
    · rw [hticks, hnone, hnext]
      exact ⟨rfl,rfl⟩

theorem nextBeat_init : nextBeat init = 0 := rfl

theorem beats_from (n k : Nat) :
    (List.range k).map (fun i => UInt64.ofNat n + UInt64.ofNat i) =
      (List.range' n k).map UInt64.ofNat := by
  rw [List.range'_eq_map_range, List.map_map]
  exact List.map_congr_left fun i _ => (UInt64.ofNat_add n i).symm

theorem beats_increasing {n : Nat} (h : n ≤ 2 ^ 64) :
    ((List.range n).map UInt64.ofNat).Pairwise (· < ·) := by
  rw [List.pairwise_map]
  refine List.pairwise_lt_range.imp_of_mem fun {i j} hi hj hlt => ?_
  have hi : i < UInt64.size := (List.mem_range.mp hi).trans_le h
  have hj : j < UInt64.size := (List.mem_range.mp hj).trans_le h
  exact (UInt64.ofNat_lt_iff_lt hi hj).mpr hlt

end Counts

section Streams

variable {π : Type} [PacketRef π]

theorem heartbeats_in_order (keyText : Pubkey → String) (addrText : IpAddr → String)
    (as : List (Action π)) (s : State) (hrun : run (step keyText addrText) init as = some s)
    (ch : Nat) :
    let delivered := (collect (step keyText addrText) (deliveredAt ch) init as).flatMap Msg.beats
    delivered.Sublist ((List.range (ticks as)).map UInt64.ofNat) ∧
    (ticks as ≤ 2 ^ 64 → delivered.Pairwise (· < ·)) ∧
    ∀ identity (bs : List (Action π)) t, s.loop.idle = true →
      s.subscriptions.lookup identity = some ch →
      (s.channels ch).isOpen = true → run (step keyText addrText) s bs = some t →
      Along (step keyText addrText) (Healthy identity ch) s bs →
      (collect (step keyText addrText) (deliveredAt ch) s bs ++ inFlight ch t).flatMap Msg.beats =
        (inFlight ch s).flatMap Msg.beats ++
          (List.range' (ticks as) (ticks bs)).map UInt64.ofNat := by
  intro delivered
  obtain ⟨hbeats,hnext⟩ := beats_run hrun
  simp only [nextBeat_init, UInt64.zero_add] at hbeats hnext
  have hsublist : delivered.Sublist ((List.range (ticks as)).map UInt64.ofNat) := by
    have hstream := (stream_sublist hrun ch).flatMap Msg.beats
    rw [List.flatMap_append, hbeats] at hstream
    exact (List.sublist_append_left _ _).trans hstream
  refine ⟨hsublist,fun hle => (beats_increasing hle).sublist hsublist,?_⟩
  intro identity bs t hidle hsub hopen hbs hh
  have hstream := stream_complete (holds_of_idle hrun hidle hsub hopen) hbs hh
  rw [hstream, List.flatMap_append, (beats_run hbs).1, hnext, beats_from]

end Streams

section Beating

open Auth (pubkeyText ipText)

def beat : List (Action Packet) :=
  [.select,.heartbeatTick [(identity,0)],.offer,.endRound,.dropConnections,.deliver 0]

theorem second_heartbeat_follows_first :
    ∃ s t, run (step pubkeyText.text ipText.text) init (.subscribePackets identity :: beat) = some s ∧
      run (step pubkeyText.text ipText.text) s beat = some t ∧
      ((collect (step pubkeyText.text ipText.text) (deliveredAt 0) init
        (.subscribePackets identity :: beat)).flatMap Msg.beats).Sublist [0] ∧
      (collect (step pubkeyText.text ipText.text) (deliveredAt 0) s beat ++
        inFlight 0 t).flatMap Msg.beats = [1] := by
  obtain ⟨s,hs,hidle⟩ := exists_run_of_map (step pubkeyText.text ipText.text) init
    (.subscribePackets identity :: beat) (fun s => decide (s.loop.idle = true ∧
      s.subscriptions.lookup identity = some 0 ∧ (s.channels 0).isOpen = true ∧
      inFlight 0 s = [] ∧
      Along (step pubkeyText.text ipText.text) (Healthy identity 0) s beat ∧
      (run (step pubkeyText.text ipText.text) s beat).isSome = true)) (by decide)
  obtain ⟨hidle,hsub,hopen,hempty,hhealthy,hbeat⟩ := of_decide_eq_true hidle
  obtain ⟨t,ht⟩ := Option.isSome_iff_exists.mp hbeat
  obtain ⟨hfirst,_,hsecond⟩ := heartbeats_in_order pubkeyText.text ipText.text _ s hs 0
  have hone : ticks (.subscribePackets identity :: beat) = 1 := rfl
  rw [hone] at hfirst hsecond
  refine ⟨s,t,hs,ht,hfirst,?_⟩
  rw [hsecond identity beat t hidle hsub hopen ht hhealthy, hempty]
  rfl

end Beating

section Drops

variable {π : Type} [PacketRef π] {keyText : Pubkey → String} {addrText : IpAddr → String}
  {s t : State} {a : Action π}

def Loop.dropped : Loop → UInt64
  | .forwarding round => round.dropped
  | .heartbeating round => round.dropped
  | _ => 0

def Channel.isFull (c : Channel) : Bool :=
  c.isOpen && decide (subscriberQueueCapacity ≤ c.queue.length)

def fullAt (s : State) : Action π → List Offer
  | .offer => s.loop.pending.head?.toList.filter fun o => (s.channels o.sender).isFull
  | _ => []

def dropLogAt (s : State) : Action π → List UInt64
  | .dropLogTick => if 0 < s.droppedSends then [s.droppedSends] else []
  | _ => []

theorem Channel.trySend_isFull (c : Channel) (response : SubscribePacketsResponse) :
    c.trySend response = .full ↔ c.isFull = true := by
  unfold Channel.trySend Channel.isFull
  cases c.isOpen with
  | false => simp
  | true =>
    by_cases hlen : c.queue.length < subscriberQueueCapacity
    · simp [hlen]
    · simp [hlen, Nat.le_of_not_lt hlen]

theorem tryForward_dropped (s : State) (o : Offer) (round : Round) :
    (s.tryForward o round).1.droppedSends = s.droppedSends ∧
      (s.tryForward o round).2.dropped =
        round.dropped + if (s.channels o.sender).isFull then 1 else 0 := by
  have hfull := (s.channels o.sender).trySend_isFull o.response
  unfold State.tryForward
  cases hsend : (s.channels o.sender).trySend o.response with
  | full => simp [hfull.mp hsend]
  | sent c =>
    have hnot : (s.channels o.sender).isFull = false := by
      simpa [hsend] using mt hfull.mpr
    simp [hnot, State.setChannel]
  | closed =>
    have hnot : (s.channels o.sender).isFull = false := by
      simpa [hsend] using mt hfull.mpr
    simp [hnot]

theorem subscribeStep_droppedSends (s : State) (identity : Pubkey) :
    (subscribeStep keyText s identity).droppedSends = s.droppedSends := by
  unfold subscribeStep
  split <;> rfl

inductive Counted (s t : State) : List Offer → List UInt64 → Prop
  | kept (hsends : t.droppedSends = s.droppedSends) (hround : t.loop.dropped = s.loop.dropped) :
      Counted s t [] []
  | full (o : Offer) (hsends : t.droppedSends = s.droppedSends)
      (hround : t.loop.dropped = s.loop.dropped + 1) : Counted s t [o] []
  | ended (hsends : t.droppedSends = s.droppedSends + s.loop.dropped)
      (hround : t.loop.dropped = 0) : Counted s t [] []
  | logged (hpos : 0 < s.droppedSends) (hsends : t.droppedSends = 0)
      (hround : t.loop.dropped = s.loop.dropped) : Counted s t [] [s.droppedSends]

omit [PacketRef π] in
theorem offerStep_counted {enter : Round → Loop} {round : Round}
    (hpending : ∀ r, (enter r).pending = r.pending) (hdropped : ∀ r, (enter r).dropped = r.dropped)
    (hs : s.loop = enter round) (h : offerStep s enter round = some t) :
    Counted s t (fullAt s (.offer : Action π)) [] := by
  unfold offerStep at h
  split at h
  · cases h
  · rename_i o pending ho
    have hround := tryForward_dropped s o { round with pending := pending }
    generalize s.tryForward o { round with pending := pending } = outcome at h hround
    obtain ⟨hsends,hnext⟩ := hround
    cases h
    have hold : s.loop.dropped = round.dropped := by rw [hs, hdropped]
    have hnew : (outcome.1.enter (enter outcome.2)).loop.dropped = outcome.2.dropped := hdropped _
    have hhead : s.loop.pending.head? = some o := by rw [hs, hpending, ho]; rfl
    cases hfull : (s.channels o.sender).isFull with
    | true =>
      have hone : fullAt s (.offer : Action π) = [o] := by simp [fullAt, hhead, hfull]
      rw [hone]
      exact .full o hsends (by rw [hnew, hnext, hold, hfull]; rfl)
    | false =>
      have hnone : fullAt s (.offer : Action π) = [] := by simp [fullAt, hhead, hfull]
      rw [hnone]
      exact .kept hsends (by rw [hnew, hnext, hold, hfull]; exact UInt64.add_zero _)

theorem endRound_counted (h : step keyText addrText s (.endRound : Action π) = some t) :
    Counted s t [] [] := by
  obtain ⟨failed,dropped,⟨hs,rfl⟩ | ⟨hs,rfl⟩⟩ := endRound_some h
  · exact .ended (by simp [hs, Loop.dropped]) rfl
  · exact .ended (by simp [hs, Loop.dropped]) rfl

theorem counted_step (h : step keyText addrText s a = some t) :
    Counted s t (fullAt s a) (dropLogAt s a) := by
  cases step_transition h with
  | subscribed identity hlock =>
    exact .kept (subscribeStep_droppedSends s identity) (by rw [subscribeStep_loop])
  | forwarded round hs hoffer | beaten round hs hoffer =>
    exact offerStep_counted (fun _ => rfl) (fun _ => rfl) hs hoffer
  | ended => exact endRound_counted h
  | logged hs =>
    have hround : s.loop.dropped = 0 := by rw [hs]; rfl
    by_cases hpos : 0 < s.droppedSends
    · rw [dropLogAt, if_pos hpos]
      exact .logged hpos rfl hround.symm
    · have hzero : s.droppedSends = 0 := by
        by_contra hne
        exact hpos (UInt64.pos_iff_ne_zero.mpr hne)
      rw [dropLogAt, if_neg hpos]
      exact .kept hzero.symm hround.symm
  | closed | delivered => exact .kept rfl rfl
  | received batches hs | skipped ts batches hs horder | snapshot order ts batches hs horder
  | heartbeat order hs horder | dropped failed hs | disconnected hs | selected hs | exited hs =>
    exact .kept rfl (by rw [hs]; rfl)

variable {full : List Offer} {logged : List UInt64}

def unreported (s : State) : Nat := s.droppedSends.toNat + s.loop.dropped.toNat

theorem counted_mod (h : Counted s t full logged) :
    Nat.ModEq (2 ^ 64) (unreported s + (full.map fun _ => 1).sum)
      ((logged.map UInt64.toNat).sum + unreported t) := by
  unfold unreported
  cases h with
  | kept hsends hround => simp [hsends, hround, Nat.ModEq]
  | full o hsends hround =>
    simp only [hsends, hround, UInt64.toNat_add, UInt64.toNat_one, List.map_cons, List.map_nil,
      List.sum_cons, List.sum_nil, Nat.ModEq]
    omega
  | ended hsends hround =>
    simp only [hsends, hround, UInt64.toNat_add, UInt64.toNat_zero, List.map_nil, List.sum_nil,
      Nat.ModEq]
    omega
  | logged hpos hsends hround => simp [hsends, hround, Nat.ModEq]

theorem counted_exact (h : Counted s t full logged)
    (hlt : unreported s + (full.map fun _ => 1).sum < 2 ^ 64) :
    unreported s + (full.map fun _ => 1).sum =
      (logged.map UInt64.toNat).sum + unreported t := by
  unfold unreported at hlt ⊢
  cases h with
  | kept hsends hround => simp [hsends, hround]
  | full o hsends hround =>
    simp only [List.map_cons, List.map_nil, List.sum_cons, List.sum_nil] at hlt ⊢
    rw [hsends, hround, UInt64.toNat_add, UInt64.toNat_one]
    omega
  | ended hsends hround =>
    simp only [List.map_nil, List.sum_nil] at hlt ⊢
    rw [hsends, hround, UInt64.toNat_add, UInt64.toNat_zero]
    omega
  | logged hpos hsends hround => simp [hsends, hround]

omit [PacketRef π] in
theorem logged_pos (s : State) (a : Action π) : ∀ n ∈ dropLogAt s a, 0 < n := by
  intro n hn
  cases a with
  | dropLogTick =>
    rw [dropLogAt] at hn
    split at hn
    · rename_i hpos
      rwa [List.mem_singleton.mp hn]
    · cases hn
  | _ => cases hn

theorem dropped_sends_reported (keyText : Pubkey → String) (addrText : IpAddr → String)
    (as : List (Action π)) (s : State) (hrun : run (step keyText addrText) init as = some s) :
    let full := collect (step keyText addrText) fullAt init as
    let logged := collect (step keyText addrText) dropLogAt init as
    Nat.ModEq (2 ^ 64) full.length
      ((logged.map UInt64.toNat).sum + (s.droppedSends.toNat + s.loop.dropped.toNat)) ∧
    (full.length < 2 ^ 64 → full.length =
      (logged.map UInt64.toNat).sum + (s.droppedSends.toNat + s.loop.dropped.toNat)) ∧
    ∀ n ∈ logged, 0 < n := by
  intro full logged
  have hlength : unreported init + (full.map fun _ => 1).sum = full.length := by
    simp [unreported, init, Loop.dropped]
  refine ⟨?_,?_,?_⟩
  · rw [← hlength]
    exact collect_tally_mod (I := fun _ => True) (2 ^ 64) (fun _ => 1) UInt64.toNat unreported
      (fun _ _ _ _ _ => trivial) (fun _ _ _ _ h => counted_mod (counted_step h)) trivial hrun
  · rw [← hlength]
    exact collect_tally_lt (I := fun _ => True) (2 ^ 64) (fun _ => 1) UInt64.toNat unreported
      (fun _ _ _ _ _ => trivial) (fun _ _ _ _ h => counted_exact (counted_step h)) trivial hrun
  · exact collect_forall (I := fun _ => True) (fun _ _ _ _ _ => trivial)
      (fun s a _ => logged_pos s a) as trivial

end Drops

section Reported

open Auth (pubkeyText ipText)

def beatRound : List (Action Packet) :=
  [.heartbeatTick [(identity,0)],.offer,.endRound,.dropConnections,.select]

def queuedBeats (k : Nat) : List SubscribePacketsResponse :=
  (List.range k).map fun i => ⟨none,some (.heartbeat (UInt64.ofNat i))⟩

def connected : PacketSubscriptions := (∅ : PacketSubscriptions).insert identity 0

theorem subscribers_connected : subscribers connected = [(identity,0)] := rfl

def undelivered (k : Nat) : State where
  subscriptions := connected
  channels := Function.update (fun _ => ⟨false,[]⟩) 0 ⟨true,queuedBeats k⟩
  nextChannel := 1
  loop := .waiting
  heartbeatCount := UInt64.ofNat k
  droppedSends := 0

theorem length_queuedBeats (k : Nat) : (queuedBeats k).length = k := by simp [queuedBeats]

theorem queuedBeats_succ (k : Nat) : queuedBeats (k + 1) =
    queuedBeats k ++ [⟨none,some (.heartbeat (UInt64.ofNat k))⟩] := by
  simp [queuedBeats, List.range_succ]

theorem beatRound_queues {k : Nat} (hk : k < subscriberQueueCapacity) :
    run (step pubkeyText.text ipText.text) (undelivered k) beatRound = some (undelivered (k + 1)) ∧
      collect (step pubkeyText.text ipText.text) fullAt (undelivered k) beatRound = [] := by
  have hroom : (queuedBeats k).length < subscriberQueueCapacity := by rwa [length_queuedBeats]
  constructor
  · simp [run, step, beatRound, undelivered, subscribers_connected, offerStep, State.tryForward,
      heartbeatOffer, Channel.trySend, hroom, State.enter, State.setChannel, dropConnections,
      queuedBeats_succ]
  · simp [collect, step, beatRound, undelivered, subscribers_connected, offerStep,
      State.tryForward, heartbeatOffer, Channel.trySend, hroom, State.enter, State.setChannel,
      dropConnections, fullAt, Channel.isFull, Loop.pending]

theorem beatRounds_queue {k : Nat} (hk : k ≤ subscriberQueueCapacity) :
    run (step pubkeyText.text ipText.text) (undelivered 0) (List.replicate k beatRound).flatten =
        some (undelivered k) ∧
      collect (step pubkeyText.text ipText.text) fullAt (undelivered 0)
        (List.replicate k beatRound).flatten = [] := by
  induction k with
  | zero => exact ⟨rfl,rfl⟩
  | succ k ih =>
    obtain ⟨hrun,hfull⟩ := ih (Nat.le_of_succ_le hk)
    obtain ⟨hround,hlast⟩ := beatRound_queues hk
    rw [List.replicate_succ', List.flatten_append, List.flatten_singleton, run_append,
      collect_append _ hrun, hrun, hfull, hlast]
    exact ⟨hround,rfl⟩

def dropRound : List (Action Packet) := beatRound ++ [.dropLogTick]

theorem dropRound_drops {k : Nat} (hk : subscriberQueueCapacity ≤ k) :
    (∃ s, run (step pubkeyText.text ipText.text) (undelivered k) dropRound = some s ∧
        s.droppedSends = 0 ∧ s.loop.dropped = 0) ∧
      (collect (step pubkeyText.text ipText.text) fullAt (undelivered k) dropRound).length = 1 := by
  have hfull : ¬ (queuedBeats k).length < subscriberQueueCapacity := by
    rw [length_queuedBeats]
    exact Nat.not_lt.mpr hk
  constructor
  · simp [run, step, dropRound, beatRound, undelivered, subscribers_connected, offerStep,
      State.tryForward, heartbeatOffer, Channel.trySend, hfull, State.enter, dropConnections,
      Loop.dropped]
  · simp [collect, step, dropRound, beatRound, undelivered, subscribers_connected, offerStep,
      State.tryForward, heartbeatOffer, Channel.trySend, hfull, State.enter, dropConnections,
      fullAt, Channel.isFull, Loop.pending, Nat.le_of_not_lt hfull]

def overflow (k : Nat) : List (Action Packet) :=
  [.subscribePackets identity,.select] ++ ((List.replicate k beatRound).flatten ++ dropRound)

theorem overflow_drops {k : Nat} (hk : k = subscriberQueueCapacity) :
    ∃ s, run (step pubkeyText.text ipText.text) init (overflow k) = some s ∧
      (collect (step pubkeyText.text ipText.text) fullAt init (overflow k)).length = 1 ∧
      s.droppedSends = 0 ∧ s.loop.dropped = 0 := by
  have hopen : run (step pubkeyText.text ipText.text) init
      ([.subscribePackets identity,.select] : List (Action Packet)) = some (undelivered 0) := rfl
  have hsubscribed : collect (step pubkeyText.text ipText.text) fullAt init
      ([.subscribePackets identity,.select] : List (Action Packet)) = [] := rfl
  obtain ⟨hfill,hroom⟩ := beatRounds_queue (Nat.le_of_eq hk)
  obtain ⟨⟨s,hdrop,hzero⟩,hfull⟩ := dropRound_drops (Nat.le_of_eq hk.symm)
  refine ⟨s,?_,?_,hzero⟩
  · rw [overflow, run_append, hopen, Option.bind_some, run_append, hfill, Option.bind_some, hdrop]
  · rw [overflow, collect_append _ hopen, collect_append _ hfill, hsubscribed, hroom,
      List.nil_append, List.nil_append, hfull]

theorem full_channel_drop_logged :
    ∃ k s, k = subscriberQueueCapacity ∧
      run (step pubkeyText.text ipText.text) init (overflow k) = some s ∧
      (collect (step pubkeyText.text ipText.text) fullAt init (overflow k)).length = 1 ∧
      ((collect (step pubkeyText.text ipText.text) dropLogAt init (overflow k)).map
        UInt64.toNat).sum = 1 := by
  obtain ⟨k,hk⟩ : ∃ k, k = subscriberQueueCapacity := ⟨_,rfl⟩
  obtain ⟨s,hrun,hone,hsends,hround⟩ := overflow_drops hk
  obtain ⟨_,hexact,_⟩ := dropped_sends_reported pubkeyText.text ipText.text (overflow k) s hrun
  have hsum := hexact (by rw [hone]; decide)
  rw [hone, hsends, hround] at hsum
  exact ⟨k,s,hk,hrun,hone,hsum.symm⟩

end Reported

end InertiaRelayer.Forwarder
