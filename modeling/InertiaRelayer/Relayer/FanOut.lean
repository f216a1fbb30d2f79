import InertiaRelayer.Relayer.EventLoop

namespace InertiaRelayer.Forwarder

inductive Answer where
  | accepted
  | full
  | closed
deriving DecidableEq

abbrev Senders (σ : Type) := σ → Nat → SubscribePacketsResponse → Answer × σ

structure Forwarding (σ : Type) where
  senders : σ
  offers : List (Offer × Answer)
  failedForwards : List Pubkey
  dropped : UInt64

section Forward

variable {σ : Type} (trySend : Senders σ)

def Forwarding.start (senders : σ) : Forwarding σ := ⟨senders,[],[],0⟩

def Forwarding.tryForward (f : Forwarding σ) (o : Offer) : Forwarding σ :=
  match trySend f.senders o.sender o.response with
  | (.accepted,senders) => ⟨senders,f.offers ++ [(o,.accepted)],f.failedForwards,f.dropped⟩
  | (.full,senders) => ⟨senders,f.offers ++ [(o,.full)],f.failedForwards,f.dropped + 1⟩
  | (.closed,senders) =>
      ⟨senders,f.offers ++ [(o,.closed)],f.failedForwards ++ [o.pubkey],f.dropped⟩

def forwardBatch (others : List (Pubkey × Nat)) (last : Pubkey × Nat) (ts : Timestamp)
    (f : Forwarding σ) (batch : ProtoPacketBatch) : Forwarding σ :=
  if batch.packets.isEmpty then f
  else
    let f := others.foldl (fun f s => f.tryForward trySend (batchOffer ts batch s)) f
    f.tryForward trySend (batchOffer ts batch last)

variable {π : Type} [PacketRef π] (addrText : IpAddr → String)

def recvError : String := "receiving on an empty and disconnected channel"

def forwardPackets (senders : σ) (maybePacketBatches : Option (BankingPacketBatch π))
    (subscribers : List (Pubkey × Nat)) (ts : Timestamp) : Except String (Forwarding σ) :=
  match maybePacketBatches with
  | none => .error recvError
  | some batches =>
      match subscribers.getLast? with
      | none => .ok (.start senders)
      | some last =>
          .ok ((protoPacketBatches addrText batches).foldl
            (forwardBatch trySend subscribers.dropLast last ts) (.start senders))

end Forward

def answers {σ : Type} (trySend : Senders σ) : σ → List Offer → List Answer × σ
  | senders, [] => ([],senders)
  | senders, o :: offers =>
      let (answer,next) := trySend senders o.sender o.response
      let (rest,last) := answers trySend next offers
      (answer :: rest,last)

structure Tallied {σ : Type} (f : Forwarding σ) : Prop where
  dropped : f.dropped = UInt64.ofNat (f.offers.countP (fun e => e.2 = .full))
  failed : f.failedForwards =
    (f.offers.filter (fun e => e.2 = .closed)).map (fun e => e.1.pubkey)

section Facts

variable {σ : Type} (trySend : Senders σ)

theorem tallied_start (senders : σ) : Tallied (Forwarding.start senders) := ⟨rfl,rfl⟩

theorem tallied_tryForward {f : Forwarding σ} (h : Tallied f) (o : Offer) :
    Tallied (f.tryForward trySend o) := by
  unfold Forwarding.tryForward
  split
  case h_1 => exact ⟨by simp [h.dropped],by simp [h.failed]⟩
  case h_2 => exact ⟨by simp [h.dropped],by simp [h.failed]⟩
  case h_3 => exact ⟨by simp [h.dropped],by simp [h.failed]⟩

theorem offers_tryForward (f : Forwarding σ) (o : Offer) :
    (f.tryForward trySend o).offers.map Prod.fst = f.offers.map Prod.fst ++ [o] := by
  unfold Forwarding.tryForward
  split <;> simp

theorem tallied_foldl {f : Forwarding σ} (h : Tallied f) (os : List Offer) :
    Tallied (os.foldl (Forwarding.tryForward trySend) f) := by
  induction os generalizing f with
  | nil => exact h
  | cons o os ih => exact ih (tallied_tryForward trySend h o)

theorem offers_foldl (f : Forwarding σ) (os : List Offer) :
    (os.foldl (Forwarding.tryForward trySend) f).offers.map Prod.fst =
      f.offers.map Prod.fst ++ os := by
  induction os generalizing f with
  | nil => simp
  | cons o os ih =>
    rw [List.foldl_cons, ih, offers_tryForward, List.append_assoc, List.singleton_append]

theorem tryForward_answer (f : Forwarding σ) (o : Offer) :
    (f.tryForward trySend o).offers.map Prod.snd =
        f.offers.map Prod.snd ++ [(trySend f.senders o.sender o.response).1] ∧
      (f.tryForward trySend o).senders = (trySend f.senders o.sender o.response).2 := by
  unfold Forwarding.tryForward
  split
  case h_1 senders hsend => simp [hsend]
  case h_2 senders hsend => simp [hsend]
  case h_3 senders hsend => simp [hsend]

theorem answers_foldl (f : Forwarding σ) (os : List Offer) :
    (os.foldl (Forwarding.tryForward trySend) f).offers.map Prod.snd =
        f.offers.map Prod.snd ++ (answers trySend f.senders os).1 ∧
      (os.foldl (Forwarding.tryForward trySend) f).senders = (answers trySend f.senders os).2 := by
  induction os generalizing f with
  | nil => exact ⟨(List.append_nil _).symm,rfl⟩
  | cons o os ih =>
    obtain ⟨hanswer,hsenders⟩ := tryForward_answer trySend f o
    obtain ⟨hrest,hlast⟩ := ih (f.tryForward trySend o)
    rw [hanswer, List.append_assoc] at hrest
    rw [hsenders] at hrest hlast
    exact ⟨hrest,hlast⟩

theorem tally_sum {f : Forwarding σ} (h : Tallied f) :
    f.offers.countP (fun e => e.2 = .accepted) + f.offers.countP (fun e => e.2 = .full) +
      f.failedForwards.length = f.offers.length := by
  rw [h.failed, List.length_map, ← List.countP_eq_length_filter]
  induction f.offers with
  | nil => rfl
  | cons e offers ih =>
    obtain ⟨o,answer⟩ := e
    cases answer with
    | accepted => simp; omega
    | full => simp; omega
    | closed => simp; omega

theorem forwardBatch_eq {subscribers : List (Pubkey × Nat)} {last : Pubkey × Nat}
    (hlast : subscribers.getLast? = some last) (ts : Timestamp) (f : Forwarding σ)
    (batch : ProtoPacketBatch) :
    forwardBatch trySend subscribers.dropLast last ts f batch =
      (batchOffers subscribers ts batch).foldl (Forwarding.tryForward trySend) f := by
  unfold forwardBatch batchOffers
  rw [hlast]
  simp only
  split
  case isTrue => rfl
  case isFalse =>
    rw [List.foldl_append, List.foldl_map]
    rfl

theorem forwardBatches_eq {subscribers : List (Pubkey × Nat)} {last : Pubkey × Nat}
    (hlast : subscribers.getLast? = some last) (ts : Timestamp) (f : Forwarding σ)
    (batches : List ProtoPacketBatch) :
    batches.foldl (forwardBatch trySend subscribers.dropLast last ts) f =
      (forwardOffers subscribers ts batches).foldl (Forwarding.tryForward trySend) f := by
  induction batches generalizing f with
  | nil => rfl
  | cons batch batches ih =>
    rw [List.foldl_cons, ih, forwardBatch_eq trySend hlast, forwardOffers, forwardOffers,
      List.flatMap_cons, List.foldl_append]

theorem batchOffers_eq {subscribers : List (Pubkey × Nat)} {ts : Timestamp}
    {batch : ProtoPacketBatch} (h : batch.packets ≠ []) :
    batchOffers subscribers ts batch = subscribers.map (batchOffer ts batch) := by
  unfold batchOffers
  cases hlast : subscribers.getLast? with
  | none =>
    rw [List.getLast?_eq_none_iff.mp hlast]
    rfl
  | some last =>
    obtain ⟨init,rfl⟩ := List.getLast?_eq_some_iff.mp hlast
    have hne : batch.packets.isEmpty = false := by simpa using h
    simp [hne]

theorem forwardOffers_eq {subscribers : List (Pubkey × Nat)} {ts : Timestamp}
    {batches : List ProtoPacketBatch} (h : ∀ batch ∈ batches, batch.packets ≠ []) :
    forwardOffers subscribers ts batches =
      batches.flatMap (fun batch => subscribers.map (batchOffer ts batch)) := by
  induction batches with
  | nil => rfl
  | cons batch batches ih =>
    rw [forwardOffers, List.flatMap_cons, List.flatMap_cons,
      batchOffers_eq (h batch List.mem_cons_self)]
    exact congrArg _ (ih (fun b hb => h b (List.mem_cons_of_mem batch hb)))

theorem length_flatMap_offers (subscribers : List (Pubkey × Nat)) (ts : Timestamp)
    (batches : List ProtoPacketBatch) :
    (batches.flatMap (fun batch => subscribers.map (batchOffer ts batch))).length =
      batches.length * subscribers.length :=
  Chunks.length_flatMap_of_length (fun _ => List.length_map _) batches

end Facts

section Batches

variable {π : Type} [PacketRef π] (addrText : IpAddr → String)

theorem protoPackets_eq (batches : BankingPacketBatch π) :
    protoPackets addrText batches =
      (batches.flatten.filter (fun x => !(PacketRef.packetMeta x).discard)).filterMap
        (packetToProtoPacket addrText) := by
  unfold protoPackets
  induction batches with
  | nil => rfl
  | cons batch batches ih =>
    rw [List.flatMap_cons, ih, List.flatten_cons, List.filter_append, List.filterMap_append]

theorem packets_of_mem {batches : BankingPacketBatch π} {batch : ProtoPacketBatch}
    (h : batch ∈ protoPacketBatches addrText batches) :
    batch.packets ≠ [] ∧ batch.packets.length ≤ validatorPacketBatchSize := by
  obtain ⟨chunk,hchunk,rfl⟩ := List.mem_map.mp h
  exact Chunks.length_of_mem_chunks (by decide) hchunk

theorem packets_of_mem_dropLast {batches : BankingPacketBatch π} {batch : ProtoPacketBatch}
    (h : batch ∈ (protoPacketBatches addrText batches).dropLast) :
    batch.packets.length = validatorPacketBatchSize := by
  rw [protoPacketBatches, ← List.map_dropLast] at h
  obtain ⟨chunk,hchunk,rfl⟩ := List.mem_map.mp h
  exact Chunks.length_of_mem_dropLast_chunks (by decide) hchunk

theorem forwardPackets_eq {σ : Type} (trySend : Senders σ) (senders : σ)
    (batches : BankingPacketBatch π) (subscribers : List (Pubkey × Nat)) (ts : Timestamp) :
    forwardPackets trySend addrText senders (some batches) subscribers ts =
      .ok ((forwardOffers subscribers ts (protoPacketBatches addrText batches)).foldl
        (Forwarding.tryForward trySend) (.start senders)) := by
  unfold forwardPackets
  cases hlast : subscribers.getLast? with
  | none =>
    have hnone : forwardOffers subscribers ts (protoPacketBatches addrText batches) = [] := by
      simp [forwardOffers, batchOffers, hlast]
    rw [hnone]
    rfl
  | some last =>
    simp only
    rw [forwardBatches_eq trySend hlast]

theorem forward_packets_fan_out {σ : Type} (trySend : Senders σ) (senders : σ)
    (batches : BankingPacketBatch π) (subscribers : List (Pubkey × Nat)) (ts : Timestamp) :
    (protoPacketBatches addrText batches).flatMap ProtoPacketBatch.packets =
      (batches.flatten.filter (fun x => !(PacketRef.packetMeta x).discard)).filterMap
        (packetToProtoPacket addrText) ∧
    (∀ batch ∈ protoPacketBatches addrText batches,
      batch.packets ≠ [] ∧ batch.packets.length ≤ validatorPacketBatchSize) ∧
    (∀ batch ∈ (protoPacketBatches addrText batches).dropLast,
      batch.packets.length = validatorPacketBatchSize) ∧
    ∃ f, forwardPackets trySend addrText senders (some batches) subscribers ts = .ok f ∧
      f.offers.map Prod.fst = (protoPacketBatches addrText batches).flatMap
        (fun batch => subscribers.map (batchOffer ts batch)) ∧
      (f.offers.map Prod.snd,f.senders) = answers trySend senders (f.offers.map Prod.fst) ∧
      f.dropped = UInt64.ofNat (f.offers.countP (fun e => e.2 = .full)) ∧
      f.failedForwards =
        (f.offers.filter (fun e => e.2 = .closed)).map (fun e => e.1.pubkey) ∧
      f.offers.countP (fun e => e.2 = .accepted) + f.offers.countP (fun e => e.2 = .full) +
          f.failedForwards.length =
        (protoPacketBatches addrText batches).length * subscribers.length ∧
      -- The count is a `u64`: it is the number itself below 2 ^ 64 offers.
      ((protoPacketBatches addrText batches).length * subscribers.length < 2 ^ 64 →
        f.dropped.toNat = f.offers.countP (fun e => e.2 = .full)) := by
  refine ⟨?_,fun batch => packets_of_mem addrText,fun batch => packets_of_mem_dropLast addrText,
    _,forwardPackets_eq addrText trySend senders batches subscribers ts,?_⟩
  · rw [packets_protoPacketBatches, protoPackets_eq]
  · rw [forwardOffers_eq (fun batch hmem => (packets_of_mem addrText hmem).1)]
    have hlength := length_flatMap_offers subscribers ts (protoPacketBatches addrText batches)
    generalize (protoPacketBatches addrText batches).flatMap
      (fun batch => subscribers.map (batchOffer ts batch)) = offers at hlength ⊢
    have hoffers : (offers.foldl (Forwarding.tryForward trySend) (.start senders)).offers.map
        Prod.fst = offers := offers_foldl trySend (.start senders) offers
    have htally := tallied_foldl trySend (tallied_start senders) offers
    have hanswers := answers_foldl trySend (.start senders) offers
    have hsum := tally_sum htally
    rw [← hlength, ← congrArg List.length hoffers, List.length_map]
    rw [hoffers]
    refine ⟨rfl,Prod.ext hanswers.1 hanswers.2,htally.dropped,htally.failed,hsum,?_⟩
    intro hlt
    rw [htally.dropped]
    exact UInt64.toNat_ofNat_of_lt' (Nat.lt_of_le_of_lt List.countP_le_length hlt)

end Batches

section Mixed

def fixedAnswers : Senders (List Nat) := fun accepted sender _ =>
  match sender with
  | 0 => (.accepted,accepted ++ [sender])
  | 1 => (.full,accepted)
  | _ => (.closed,accepted)

def plainPacket (discard : Bool) : Packet :=
  ⟨[1,2,3],⟨3,.v4 10 0 0 2,8000,discard,false,false,false,false,false⟩⟩

def repeatedKey (byte : UInt8) : Pubkey := ⟨List.replicate 32 byte,List.length_replicate⟩

def mixedSubscribers : List (Pubkey × Nat) :=
  [(repeatedKey 1,0),(repeatedKey 2,1),(repeatedKey 3,2)]

def longBatch : BankingPacketBatch Packet :=
  [[plainPacket true],List.replicate 65 (plainPacket false)]

def noAddr : IpAddr → String := fun _ => ""

theorem mixed_answers_tallied :
    ∃ f, forwardPackets fixedAnswers noAddr [] (some longBatch) mixedSubscribers ⟨0,0⟩ = .ok f ∧
      f.offers.map Prod.snd = [.accepted,.full,.closed,.accepted,.full,.closed] ∧
      f.senders = [0,0] ∧ f.dropped = 2 ∧
      f.failedForwards = [repeatedKey 3,repeatedKey 3] := by
  obtain ⟨_,_,_,f,hf,hoffers,hanswers,hdropped,hfailed,_⟩ :=
    forward_packets_fan_out noAddr fixedAnswers [] longBatch mixedSubscribers ⟨0,0⟩
  have hmixed : answers fixedAnswers [] ((protoPacketBatches noAddr longBatch).flatMap
      (fun batch => mixedSubscribers.map (batchOffer ⟨0,0⟩ batch))) =
      ([.accepted,.full,.closed,.accepted,.full,.closed],[0,0]) := by decide +kernel
  rw [hoffers, hmixed] at hanswers
  obtain ⟨hsnd,hsenders⟩ := Prod.mk.inj hanswers
  refine ⟨f,hf,hsnd,hsenders,?_,?_⟩
  · have hcount : f.offers.countP (fun e => e.2 = .full) =
        (f.offers.map Prod.snd).countP (· = .full) := by
      rw [List.countP_map]
      rfl
    rw [hdropped, hcount, hsnd]
    rfl
  · rw [hfailed, List.zip_of_prod hoffers hsnd]
    decide +kernel

end Mixed

def State.trySend : Senders State := fun s sender response =>
  match (s.channels sender).trySend response with
  | .sent c => (.accepted,s.setChannel sender c)
  | .full => (.full,s)
  | .closed => (.closed,s)

section Connection

variable {π : Type} [PacketRef π] (keyText : Pubkey → String) (addrText : IpAddr → String)

theorem offer_step (s : State) (o : Offer) (pending : List Offer) (f : Forwarding State)
    (hs : f.senders = s) {failed : List (Pubkey × Nat)}
    (hfailed : failed.map Prod.fst = f.failedForwards) :
    ∃ failed', failed'.map Prod.fst = (f.tryForward State.trySend o).failedForwards ∧
      step keyText addrText (s.enter (.forwarding ⟨o :: pending,failed,f.dropped⟩))
          (.offer : Action π) =
        some ((f.tryForward State.trySend o).senders.enter
          (.forwarding ⟨pending,failed',(f.tryForward State.trySend o).dropped⟩)) := by
  subst hs
  cases hsend : (f.senders.channels o.sender).trySend o.response with
  | sent c =>
    refine ⟨failed,?_,?_⟩
    · simp only [Forwarding.tryForward, State.trySend, hsend]
      exact hfailed
    · simp only [step, offerStep, State.tryForward, State.enter, Forwarding.tryForward,
        State.trySend, hsend]
      rfl
  | full =>
    refine ⟨failed,?_,?_⟩
    · simp only [Forwarding.tryForward, State.trySend, hsend]
      exact hfailed
    · simp only [step, offerStep, State.tryForward, State.enter, Forwarding.tryForward,
        State.trySend, hsend]
  | closed =>
    refine ⟨failed ++ [(o.pubkey,o.sender)],?_,?_⟩
    · simp only [Forwarding.tryForward, State.trySend, hsend, List.map_append, hfailed,
        List.map_cons, List.map_nil]
    · simp only [step, offerStep, State.tryForward, State.enter, Forwarding.tryForward,
        State.trySend, hsend]

theorem offers_run (pending : List Offer) : ∀ (f : Forwarding State)
    (failed : List (Pubkey × Nat)), failed.map Prod.fst = f.failedForwards →
      ∃ failed', failed'.map Prod.fst =
          (pending.foldl (Forwarding.tryForward State.trySend) f).failedForwards ∧
        Machine.run (step keyText addrText)
            (f.senders.enter (.forwarding ⟨pending,failed,f.dropped⟩))
            (List.replicate pending.length (.offer : Action π)) =
          some ((pending.foldl (Forwarding.tryForward State.trySend) f).senders.enter
            (.forwarding ⟨[],failed',
              (pending.foldl (Forwarding.tryForward State.trySend) f).dropped⟩)) := by
  induction pending with
  | nil => exact fun f failed hfailed => ⟨failed,hfailed,rfl⟩
  | cons o pending ih =>
    intro f failed hfailed
    obtain ⟨next,hnext,hstep⟩ := offer_step keyText addrText (π := π) f.senders o pending f rfl
      hfailed
    obtain ⟨failed',hfailed',hrun⟩ := ih (f.tryForward State.trySend o) next hnext
    refine ⟨failed',hfailed',?_⟩
    rw [List.length_cons, List.replicate_succ]
    simp only [Machine.run, hstep]
    exact hrun

theorem forwardPackets_runs (s : State) (batches : BankingPacketBatch π)
    (subscribers : List (Pubkey × Nat)) (ts : Timestamp) {f : Forwarding State}
    (h : forwardPackets State.trySend addrText s (some batches) subscribers ts = .ok f) :
    ∃ failed, failed.map Prod.fst = f.failedForwards ∧
      Machine.run (step keyText addrText)
          (s.enter (.forwarding
            ⟨forwardOffers subscribers ts (protoPacketBatches addrText batches),[],0⟩))
          (List.replicate
            (forwardOffers subscribers ts (protoPacketBatches addrText batches)).length
            (.offer : Action π)) =
        some (f.senders.enter (.forwarding ⟨[],failed,f.dropped⟩)) := by
  rw [forwardPackets_eq] at h
  cases h
  exact offers_run keyText addrText _ (.start s) [] rfl

end Connection

end InertiaRelayer.Forwarder
