import InertiaRelayer.Relayer.Effects
import InertiaRelayer.Auth.Reference

namespace InertiaRelayer.Forwarder
open Machine

structure Tracked (s : State) : Prop where
  subscribed : ∀ k ch, s.subscriptions.lookup k = some ch → ch < s.nextChannel
  pending : ∀ o ∈ s.loop.pending, o.sender < s.nextChannel
  failed : ∀ x ∈ s.loop.failed, x.2 < s.nextChannel ∧ (s.channels x.2).isOpen = false

section Invariant

variable {π : Type} {keyText : Pubkey → String} {addrText : IpAddr → String} {s t : State}

theorem lookup_of_subscriber {subscriptions : PacketSubscriptions} {k : Pubkey} {ch : Nat}
    (h : (k,ch) ∈ subscribers subscriptions) : subscriptions.lookup k = some ch := by
  obtain ⟨e,he,heq⟩ := List.mem_map.mp h
  cases heq
  exact KeyMap.lookup_iff_entry.mpr he

theorem tracked_setChannel (hs : Tracked s) {ch : Nat} {c : Channel}
    (hc : c.isOpen = true → (s.channels ch).isOpen = true) : Tracked (s.setChannel ch c) where
  subscribed := hs.subscribed
  pending := hs.pending
  failed x hx := by
    obtain ⟨hlt,hclosed⟩ := hs.failed x hx
    refine ⟨hlt,?_⟩
    by_cases heq : x.2 = ch
    · subst heq
      simpa [State.setChannel, hclosed] using hc
    · simpa [State.setChannel, Function.update_of_ne heq] using hclosed

theorem tracked_openChannel (hs : Tracked s) (isOpen : Bool) : Tracked (s.openChannel isOpen) where
  subscribed k ch h := Nat.lt_succ_of_lt (hs.subscribed k ch h)
  pending o ho := Nat.lt_succ_of_lt (hs.pending o ho)
  failed x hx := by
    obtain ⟨hlt,hclosed⟩ := hs.failed x hx
    refine ⟨Nat.lt_succ_of_lt hlt,?_⟩
    simpa [State.openChannel, State.setChannel, Function.update_of_ne (Nat.ne_of_lt hlt)]
      using hclosed

theorem tracked_enter (hs : Tracked s) {loop : Loop}
    (hp : ∀ o ∈ loop.pending, o.sender < s.nextChannel)
    (hf : ∀ x ∈ loop.failed, x.2 < s.nextChannel ∧ (s.channels x.2).isOpen = false) :
    Tracked (s.enter loop) :=
  ⟨hs.subscribed,hp,hf⟩

theorem pending_of_cons (hs : Tracked s) {o : Offer} {loop : Loop}
    (hp : s.loop.pending = o :: loop.pending) :
    o.sender < s.nextChannel ∧ ∀ o ∈ loop.pending, o.sender < s.nextChannel := by
  have h := hs.pending
  rw [hp] at h
  exact ⟨h o List.mem_cons_self,fun o' ho => h o' (List.mem_cons_of_mem o ho)⟩

theorem tracked_init : Tracked init where
  subscribed k ch h := by simp [init] at h
  pending o ho := by cases ho
  failed x hx := by cases hx

theorem lookup_effect {a : Action π} (h : Effect keyText s a t) {k : Pubkey} {ch : Nat}
    (hk : t.subscriptions.lookup k = some ch) :
    a = .subscribePackets k ∨ s.subscriptions.lookup k = some ch := by
  cases h with
  | subscribed identity subscriptions hlock hok =>
    obtain ⟨rfl,_⟩ := subscribePackets_ok keyText hok
    rcases KeyMap.lookup_insert_cases hk with ⟨rfl,_⟩ | ⟨_,hk⟩
    · exact .inl rfl
    · exact .inr hk
  | dropped failed hloop => exact .inr (lookup_of_dropConnections hk)
  | _ => exact .inr hk

theorem tracked_effect {a : Action π} (hs : Tracked s) (h : Effect keyText s a t) :
    Tracked t := by
  cases h with
  | subscribed identity subscriptions hlock hok =>
    obtain ⟨rfl,_⟩ := subscribePackets_ok keyText hok
    have ho := tracked_openChannel hs true
    refine ⟨?_,ho.pending,ho.failed⟩
    intro k ch hk
    rcases KeyMap.lookup_insert_cases hk with ⟨_,rfl⟩ | ⟨_,hk⟩
    · exact Nat.lt_succ_self _
    · exact ho.subscribed k ch hk
  | refused => exact tracked_openChannel hs false
  | channel a ch c hc => exact tracked_setChannel hs hc
  | moved a loop hp hf =>
    refine tracked_enter hs ?_ (by simp [hf])
    intro o ho
    exact hs.subscribed _ _ (lookup_of_subscriber (hp o ho))
  | sent o loop c hp hf hc =>
    have hset : Tracked (s.setChannel o.sender c) :=
      tracked_setChannel hs (fun hopen => by rwa [Channel.trySend_sent hc] at hopen)
    refine tracked_enter hset (pending_of_cons hs hp).2 ?_
    rw [hf]
    exact hset.failed
  | full o loop hp hf =>
    refine tracked_enter hs (pending_of_cons hs hp).2 ?_
    rw [hf]
    exact hs.failed
  | closed o loop hp hf hc =>
    obtain ⟨hlt,hrest⟩ := pending_of_cons hs hp
    refine tracked_enter hs hrest ?_
    rw [hf]
    intro x hx
    rcases List.mem_append.mp hx with hx | hx
    · exact hs.failed x hx
    · rw [List.mem_singleton.mp hx]
      exact ⟨hlt,hc⟩
  | ended failed count dropped hp hf =>
    subst hf
    exact ⟨hs.subscribed,by simp [State.enter, Loop.pending],hs.failed⟩
  | dropped failed hloop =>
    refine ⟨?_,by simp [State.enter, Loop.pending],by simp [State.enter, Loop.failed]⟩
    intro k ch hk
    exact hs.subscribed k ch (lookup_of_dropConnections hk)
  | logged =>
    exact ⟨hs.subscribed,by simp [State.enter, Loop.pending],by simp [State.enter, Loop.failed]⟩

end Invariant

section Removal

variable {π : Type} [PacketRef π] (keyText : Pubkey → String) (addrText : IpAddr → String)

def RemovesOnlyClosed (s : State) (a : Action π) : Prop :=
  ∀ t k ch, step keyText addrText s a = some t → s.subscriptions.lookup k = some ch →
    t.subscriptions.lookup k = none → (s.channels ch).isOpen = false

def NotReplaced (s : State) : Action π → Prop
  | .dropConnections => ∀ x ∈ s.loop.failed,
      s.subscriptions.lookup x.1 = none ∨ s.subscriptions.lookup x.1 = some x.2
  | _ => True

instance (s : State) : ∀ a : Action π, Decidable (NotReplaced s a)
  | .dropConnections => inferInstanceAs (Decidable (∀ x ∈ s.loop.failed,
      s.subscriptions.lookup x.1 = none ∨ s.subscriptions.lookup x.1 = some x.2))
  | .subscribePackets .. | .closeStream .. | .deliver .. | .receive .. | .disconnect
  | .snapshot .. | .heartbeatTick .. | .offer | .endRound | .dropLogTick | .select | .exit =>
      .isTrue trivial

variable {keyText addrText} {s : State} {a : Action π}

theorem removesOnlyClosed_of_notReplaced (hs : Tracked s) (hc : NotReplaced s a) :
    RemovesOnlyClosed keyText addrText s a := by
  intro t k ch hstep hk hnone
  cases step_effect hstep with
  | subscribed identity subscriptions hlock hok =>
    obtain ⟨rfl,_⟩ := subscribePackets_ok keyText hok
    by_cases heq : k = identity
    · subst heq
      simp at hnone
    · simp [AList.lookup_insert_ne heq, hk] at hnone
  | dropped failed hloop =>
    by_cases hm : k ∈ failed.map Prod.fst
    · obtain ⟨x,hx,rfl⟩ := List.mem_map.mp hm
      have hfailed : x ∈ s.loop.failed := by rwa [hloop]
      obtain ⟨_,hclosed⟩ := hs.failed x hfailed
      rcases hc x hfailed with h | h
      · rw [hk] at h
        cases h
      · rw [hk] at h
        cases h
        exact hclosed
    · rw [← lookup_dropConnections hm] at hk
      cases hk.symm.trans hnone
  | _ => cases hk.symm.trans hnone

theorem tracked_step {t : State} (hs : Tracked s) (h : step keyText addrText s a = some t) :
    Tracked t :=
  tracked_effect hs (step_effect h)

theorem removes_only_closed_of_not_replaced (keyText : Pubkey → String)
    (addrText : IpAddr → String) (as : List (Action π))
    (hcond : Along (step keyText addrText) NotReplaced init as) :
    Along (step keyText addrText) (RemovesOnlyClosed keyText addrText) init as :=
  along_of_invariant (fun _ _ _ hs _ h => tracked_step hs h)
    (fun _ _ hs hc => removesOnlyClosed_of_notReplaced hs hc) tracked_init hcond

end Removal

section Reconnect

open Auth (pubkeyText ipText)

def identity : Pubkey := ⟨List.replicate 32 1,by decide⟩

def droppedStream : List (Action Packet) :=
  [.select,.subscribePackets identity,.closeStream 0,.heartbeatTick [(identity,0)],.offer,
    .endRound]

def reconnect : List (Action Packet) := droppedStream ++ [.subscribePackets identity]

def dropsOpen (s : State) : Bool :=
  match step pubkeyText.text ipText.text s (.dropConnections : Action Packet) with
  | none => false
  | some t => (subscribers s.subscriptions).any fun x =>
      (t.subscriptions.lookup x.1).isNone && (s.channels x.2).isOpen

theorem not_removesOnlyClosed_of_dropsOpen {s : State} (h : dropsOpen s = true) :
    ¬ RemovesOnlyClosed pubkeyText.text ipText.text s (.dropConnections : Action Packet) := by
  intro hr
  unfold dropsOpen at h
  split at h
  · cases h
  · rename_i t ht
    obtain ⟨x,hx,hopen⟩ := List.any_eq_true.mp h
    obtain ⟨hnone,hopen⟩ := (Bool.and_eq_true _ _).mp hopen
    rw [hr t x.1 x.2 ht (lookup_of_subscriber hx) (Option.isNone_iff_eq_none.mp hnone)] at hopen
    cases hopen

theorem reconnected_stream_dropped :
    (∃ s, run (step pubkeyText.text ipText.text) init (reconnect ++ [.dropConnections]) = some s) ∧
      ¬ Along (step pubkeyText.text ipText.text)
        (RemovesOnlyClosed pubkeyText.text ipText.text) init (reconnect ++ [.dropConnections]) := by
  obtain ⟨s,hs,hd⟩ := exists_run_of_map (step pubkeyText.text ipText.text) init reconnect
    dropsOpen (by decide)
  obtain ⟨t,ht,_⟩ := exists_run_of_map (step pubkeyText.text ipText.text) init
    (reconnect ++ [.dropConnections]) (fun _ => true) (by decide)
  exact ⟨⟨t,ht⟩,fun hall => not_removesOnlyClosed_of_dropsOpen hd (along_append hall hs).1⟩

theorem dropped_stream_removed :
    (∃ s, run (step pubkeyText.text ipText.text) init
        (droppedStream ++ [.dropConnections]) = some s) ∧
      Along (step pubkeyText.text ipText.text) (RemovesOnlyClosed pubkeyText.text ipText.text)
        init (droppedStream ++ [.dropConnections]) := by
  obtain ⟨t,ht,_⟩ := exists_run_of_map (step pubkeyText.text ipText.text) init
    (droppedStream ++ [.dropConnections]) (fun _ => true) (by decide)
  exact ⟨⟨t,ht⟩,
    removes_only_closed_of_not_replaced pubkeyText.text ipText.text _ (by decide)⟩

end Reconnect

end InertiaRelayer.Forwarder
