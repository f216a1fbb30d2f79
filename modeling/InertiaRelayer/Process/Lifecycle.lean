import InertiaRelayer.Process.System

namespace InertiaRelayer.Process
open Machine Proxy

section Causes

variable {π : Type} [PacketRef π] {c : Config} {s t : State π} {a : Action π}

structure Caused (s : State π) : Prop where
  packets : s.packets.exit = s.exit
  bundles : s.bundles.exit = s.exit
  relayer : Pipeline.Caused s.relayer
  delay : s.relayer.delay.phase = .ended → s.exit = true ∨ s.tpu.sigverify = true
  cause : s.exit = true → s.signalled = true ∨ s.panicked = true ∨
    s.relayer.failed = true ∧ s.tpu.sigverify = true
  relayerServer : s.relayerServer ≠ .serving → s.signalled = true ∧ s.exit = true
  blockengineServer : s.blockengineServer ≠ .serving → s.signalled = true ∧ s.exit = true

theorem delay_ends {E T : Type} {delay : Nat} {onRelease : E → T → T} {d e : DelayState E T}
    {a : RelayerDelay.Action E T} (hstep : RelayerDelay.step delay onRelease d a = some e)
    (he : e.phase = .ended) :
    a = .exit ∨ a = .recvDisconnected ∨ ∃ env, a = .send env true := by
  cases Pipeline.relays_step hstep with
  | exited => exact .inl rfl
  | disconnected => exact .inr (.inl rfl)
  | released env isErr now due x rest hs hq =>
    cases isErr with
    | true => exact .inr (.inr ⟨env,rfl⟩)
    | false => cases he
  | _ => cases he

theorem delay_caused {r : Pipeline.State π} {a : Pipeline.Action π} (hs : Caused s)
    (ha : s.canRelay a = true) (hstep : Pipeline.step c.keyText c.addrText s.relayer a = some r)
    (hended : r.delay.phase = .ended) : s.exit = true ∨ s.tpu.sigverify = true := by
  cases Pipeline.step_effect hstep with
  | delayed a d hcan hd =>
    rcases delay_ends hd hended with rfl | rfl | ⟨env,rfl⟩
    · exact .inl hcan
    · exact .inr ha
    · rcases hs.relayer.stopped (of_decide_eq_true hcan) with hexit | hfailed
      · exact .inl hexit
      · simp [RelayerDelay.step, (hs.relayer.failed hfailed).2.1] at hd
  | _ => exact hs.delay hended

theorem failed_kept {r next : Pipeline.State π} {a : Pipeline.Action π}
    (hstep : Pipeline.step c.keyText c.addrText r a = some next) (hr : r.failed = true) :
    next.failed = true := by
  cases Pipeline.step_effect hstep with
  | forwarded a f hcan hf =>
    cases a with
    | disconnect => rfl
    | _ => exact hr
  | _ => exact hr

theorem sigverify_kept {exit receiverGone : Bool} {tpu next : Tpu} {a : TpuAction}
    (hstep : tpuStep c exit receiverGone tpu a = some next) (htpu : tpu.sigverify = true) :
    next.sigverify = true := by
  cases tpuStep_effect hstep with
  | sigverifyEnded => rfl
  | _ => exact htpu

theorem relayed_exit {r : Pipeline.State π} {a : Pipeline.Action π} (ha : s.canRelay a = true)
    (hstep : Pipeline.step c.keyText c.addrText s.relayer a = some r) : r.exit = s.exit := by
  cases Pipeline.step_effect hstep with
  | flagged a hflag =>
    rcases hflag with rfl | rfl
    · cases ha
    · cases ha
  | _ => rfl

omit [PacketRef π] in
theorem served_exit {T : Type} {w : Blockengine.Wiring T} {b next : Blockengine.State T}
    {a : Blockengine.Action T} (ha : s.canServe a = true)
    (hstep : Blockengine.step w b a = some next) :
    next.exit = b.exit ∧ next.shutdown = b.shutdown := by
  cases Blockengine.step_effect hstep with
  | exited | watched => cases ha
  | _ => exact ⟨rfl,rfl⟩

omit [PacketRef π] in
theorem caused_stored (hs : Caused s) (hcause : s.signalled = true ∨ s.panicked = true ∨
    s.relayer.failed = true ∧ s.tpu.sigverify = true) : Caused s.storeExit where
  packets := rfl
  bundles := rfl
  relayer := ⟨fun _ => .inl rfl,hs.relayer.failed⟩
  delay _ := .inl rfl
  cause _ := hcause
  relayerServer hne := ⟨(hs.relayerServer hne).1,rfl⟩
  blockengineServer hne := ⟨(hs.blockengineServer hne).1,rfl⟩

theorem caused_step (hs : Caused s) (hstep : step c s a = some t) : Caused t := by
  obtain ⟨heffect,_⟩ := step_effect hstep
  cases heffect with
  | signalled =>
    exact { hs with
      cause := fun _ => .inl rfl
      relayerServer := fun hne => ⟨rfl,(hs.relayerServer hne).2⟩
      blockengineServer := fun hne => ⟨rfl,(hs.blockengineServer hne).2⟩ }
  | panicked =>
    have hnext : Caused { s with panicked := true } :=
      { hs with cause := fun _ => .inr (.inl rfl) }
    exact caused_stored hnext (.inr (.inl rfl))
  | relayerShutdown hsignal hserver =>
    exact { caused_stored hs (.inl hsignal) with relayerServer := fun _ => ⟨hsignal,rfl⟩ }
  | relayerServed hserver hstreams =>
    have hdraining : s.relayerServer ≠ .serving := by simp [hserver]
    exact { hs with relayerServer := fun _ => hs.relayerServer hdraining }
  | blockengineShutdown hsignal hserver =>
    exact { caused_stored hs (.inl hsignal) with blockengineServer := fun _ => ⟨hsignal,rfl⟩ }
  | blockengineServed hserver =>
    have hdraining : s.blockengineServer ≠ .serving := by simp [hserver]
    exact { hs with blockengineServer := fun _ => hs.blockengineServer hdraining }
  | relayed a r ha hr =>
    have hexit := relayed_exit ha hr
    refine ⟨hs.packets.trans hexit.symm,hs.bundles.trans hexit.symm,
      Pipeline.caused_step hs.relayer hr,fun hended => ?_,fun he => ?_,fun hne => ?_,fun hne => ?_⟩
    · exact (delay_caused hs ha hr hended).imp_left hexit.trans
    · refine (hs.cause (hexit.symm.trans he)).imp_right (Or.imp_right fun hfailed => ?_)
      exact ⟨failed_kept hr hfailed.1,hfailed.2⟩
    · exact ⟨(hs.relayerServer hne).1,hexit.trans (hs.relayerServer hne).2⟩
    · exact ⟨(hs.blockengineServer hne).1,hexit.trans (hs.blockengineServer hne).2⟩
  | failed hf hexit =>
    have hended := hs.delay (hs.relayer.failed hf).2.1
    have hsigverify := hended.resolve_left (by simp [hexit])
    exact caused_stored hs (.inr (.inr ⟨hf,hsigverify⟩))
  | packets a b ha hb => exact { hs with packets := (served_exit ha hb).1.trans hs.packets }
  | bundles a b ha hb => exact { hs with bundles := (served_exit ha hb).1.trans hs.bundles }
  | tpu a tpu htpu =>
    exact { hs with
      delay := fun hended => (hs.delay hended).imp_right (sigverify_kept htpu)
      cause := fun he => (hs.cause he).imp_right
        (Or.imp_right fun hfailed => ⟨hfailed.1,sigverify_kept htpu hfailed.2⟩) }
  | aborted | watched | slots | joined => exact { hs with }

omit [PacketRef π] in
theorem caused_init (started : Nat) : Caused (init started : State π) where
  packets := rfl
  bundles := rfl
  relayer := ⟨fun h => (by cases h),fun h => (by cases h)⟩
  delay h := by cases h
  cause he := by cases he
  relayerServer hne := absurd rfl hne
  blockengineServer hne := absurd rfl hne

theorem caused_run {started : Nat} {as : List (Action π)}
    (hrun : run (step c) (init started) as = some s) : Caused s :=
  run_invariant (fun _ _ _ => caused_step) (caused_init started) hrun

end Causes

section Prompted

variable {π : Type} [PacketRef π] {c : Config} {s t : State π} {a : Action π}

structure TpuPrompted (exit : Bool) (tpu : Tpu) : Prop where
  cancelled : tpu.cancelled = true → exit = true
  quic : tpu.quic = true → exit = true
  quicFwd : tpu.quicFwd = true → exit = true
  sigverify : tpu.sigverify = true → exit = true

theorem tpuPrompted_step {exit receiverGone : Bool} {tpu next : Tpu} {a : TpuAction}
    (he : EndsForCause c.ends) (h : TpuPrompted exit tpu) (hgone : receiverGone = true → exit = true)
    (hstep : tpuStep c exit receiverGone tpu a = some next) : TpuPrompted exit next := by
  cases tpuStep_effect hstep with
  | left | entered | refreshed => exact ⟨h.cancelled,h.quic,h.quicFwd,h.sigverify⟩
  | cancelled hexit => exact { h with cancelled := fun _ => hexit }
  | quicEnded hends =>
    exact { h with quic := fun _ => (he.quic tpu hends).elim h.cancelled h.sigverify }
  | quicFwdEnded hends =>
    exact { h with quicFwd := fun _ => (he.quicFwd tpu hends).elim h.cancelled h.sigverify }
  | sigverifyEnded hends =>
    exact { h with
      sigverify := fun _ => (he.sigverify tpu _ hends).elim (fun hquic => h.quic hquic.1) hgone }

structure Prompted (s : State π) : Prop where
  caused : Caused s
  cause : s.exit = true → s.signalled = true ∨ s.panicked = true
  tpu : TpuPrompted s.exit s.tpu

omit [PacketRef π] in
theorem Prompted.ended (hs : Prompted s) (hended : s.relayer.delay.phase = .ended) :
    s.exit = true :=
  (hs.caused.delay hended).elim id hs.tpu.sigverify

omit [PacketRef π] in
theorem Prompted.failed (hs : Prompted s) (hfailed : s.relayer.failed = true) : s.exit = true :=
  hs.ended (hs.caused.relayer.failed hfailed).2.1

theorem prompted_step (he : EndsForCause c.ends) (hs : Prompted s) (hstep : step c s a = some t) :
    Prompted t := by
  have hcaused := caused_step hs.caused hstep
  obtain ⟨heffect,_⟩ := step_effect hstep
  have hraised : TpuPrompted true s.tpu := ⟨fun _ => rfl,fun _ => rfl,fun _ => rfl,fun _ => rfl⟩
  cases heffect with
  | signalled => exact ⟨hcaused,fun _ => .inl rfl,hs.tpu⟩
  | panicked => exact ⟨hcaused,fun _ => .inr rfl,hraised⟩
  | relayerShutdown hsignal => exact ⟨hcaused,fun _ => .inl hsignal,hraised⟩
  | blockengineShutdown hsignal => exact ⟨hcaused,fun _ => .inl hsignal,hraised⟩
  | relayed a r ha hr =>
    have hexit : r.exit = s.exit := relayed_exit ha hr
    refine ⟨hcaused,fun he => hs.cause (hexit.symm.trans he),?_⟩
    have htpu : TpuPrompted r.exit s.tpu := hexit ▸ hs.tpu
    exact htpu
  | failed hf hexit => cases hexit.symm.trans (hs.failed hf)
  | tpu a tpu htpu =>
    have hgone : s.receiverGone = true → s.exit = true := fun h => hs.ended (of_decide_eq_true h)
    exact ⟨hcaused,hs.cause,tpuPrompted_step he hs.tpu hgone htpu⟩
  | _ => exact ⟨hcaused,hs.cause,hs.tpu⟩

theorem prompted_run {started : Nat} {as : List (Action π)} (he : EndsForCause c.ends)
    (hrun : run (step c) (init started) as = some s) : Prompted s := by
  have hinit : Prompted (init started : State π) := ⟨caused_init started,fun h => (by cases h),
    ⟨fun h => (by cases h),fun h => (by cases h),fun h => (by cases h),fun h => (by cases h)⟩⟩
  exact run_invariant (fun _ _ _ => prompted_step he) hinit hrun

theorem exit_raised_by_signal_or_panic (c : Config) (started : Nat) (as : List (Action π))
    (s : State π) (hrun : run (step c) (init started) as = some s) :
    (s.exit = true → s.signalled = true ∨ s.panicked = true ∨
      s.relayer.failed = true ∧ s.tpu.sigverify = true) ∧
    (EndsForCause c.ends →
      (s.exit = true → s.signalled = true ∨ s.panicked = true) ∧
      (s.relayer.forwarder.loop = .stopped ∨ s.relayer.delay.phase = .ended ∨
        s.tpu.sigverify = true → s.exit = true) ∧
      step c s .storeExit = none) := by
  refine ⟨(caused_run hrun).cause,fun he => ?_⟩
  have hs := prompted_run he hrun
  refine ⟨hs.cause,?_,?_⟩
  · rintro (hstopped | hended | hsigverify)
    · exact (hs.caused.relayer.stopped hstopped).elim id hs.failed
    · exact hs.ended hended
    · exact hs.tpu.sigverify hsigverify
  · cases hstep : step c s .storeExit with
    | none => rfl
    | some t =>
      cases (step_effect hstep).1 with
      | failed hf hexit => cases hexit.symm.trans (hs.failed hf)

end Prompted

section Joins

variable {π : Type} [PacketRef π] {c : Config} {s t u : State π} {a : Action π}

structure Settled (s t : State π) : Prop where
  relayerServer : s.relayerServer = .returned → t.relayerServer = .returned
  blockengineServer : s.blockengineServer = .returned → t.blockengineServer = .returned
  mirror : s.bundles.mirror.phase = .stopped → t.bundles.mirror.phase = .stopped
  packets : s.packets.delay.phase = .ended → t.packets.delay.phase = .ended
  bundles : s.bundles.delay.phase = .ended → t.bundles.delay.phase = .ended
  slots : s.slots = .ended → t.slots = .ended
  tpu : s.tpu.ended = true → t.tpu.ended = true
  loop : s.relayer.forwarder.loop = .stopped → t.relayer.forwarder.loop = .stopped
  delay : s.relayer.delay.phase = .ended → t.relayer.delay.phase = .ended

omit [PacketRef π] in
theorem settled_refl (s : State π) : Settled s s := ⟨id,id,id,id,id,id,id,id,id⟩

theorem relayer_settles {r next : Pipeline.State π} {a : Pipeline.Action π}
    (hstep : Pipeline.step c.keyText c.addrText r a = some next) :
    (r.forwarder.loop = .stopped → next.forwarder.loop = .stopped) ∧
      (r.delay.phase = .ended → next.delay.phase = .ended) := by
  cases Pipeline.step_effect hstep with
  | flagged => exact ⟨id,id⟩
  | delayed a d hcan hd =>
    refine ⟨id,fun hended => ?_⟩
    simp [RelayerDelay.step, hended] at hd
  | received batches rest f hchannel hf => exact ⟨fun hstop => Pipeline.stopped_step hstop hf,id⟩
  | forwarded a f hcan hf => exact ⟨fun hstop => Pipeline.stopped_step hstop hf,id⟩

theorem mirror_settles {T : Type} {codec : Mirror.Codec T} {shutdown : Bool} {contents : List T}
    {m n : Mirror.State T} {a : Mirror.Action} {out : List T}
    (hstep : Mirror.step codec shutdown contents m a = some (n,out)) (hm : m.phase = .stopped) :
    n.phase = .stopped := by
  rcases Mirror.step_cases hstep with ⟨b,rfl,_,_⟩ | ⟨hwriter,_⟩ | hread
  · obtain ⟨u,hu,_⟩ := Option.map_eq_some_iff.mp hstep
    cases b <;> simp [Mirror.runStep, hm] at hu
  · rw [hwriter.writerOnly.phase, hm]
  · rw [hread.readersOnly.phase, hm]

theorem blockengine_settles {T : Type} {w : Blockengine.Wiring T} {b next : Blockengine.State T}
    {a : Blockengine.Action T} (hstep : Blockengine.step w b a = some next) :
    (b.mirror.phase = .stopped → next.mirror.phase = .stopped) ∧
      (b.delay.phase = .ended → next.delay.phase = .ended) := by
  cases Blockengine.step_effect hstep with
  | delayed a fed rx d hfed hd =>
    refine ⟨id,fun hended => ?_⟩
    simp [DelayForward.step, hended] at hd
  | mirrored a codec m out hc hm => exact ⟨mirror_settles hm,id⟩
  | _ => exact ⟨id,id⟩

theorem slots_settle {exit : Bool} {phase next : SlotPhase} {a : SlotAction}
    (hstep : slotStep exit phase a = some next) : phase ≠ .ended := by
  rintro rfl
  cases a <;> cases hstep

theorem tpu_settles {exit receiverGone : Bool} {tpu next : Tpu} {a : TpuAction}
    (hstep : tpuStep c exit receiverGone tpu a = some next) (htpu : tpu.ended = true) :
    next.ended = true := by
  have hended : ((tpu.snus.exited = true ∧ tpu.quic = true) ∧ tpu.quicFwd = true) ∧
      tpu.sigverify = true := by simpa [Tpu.ended] using htpu
  obtain ⟨⟨⟨hsnus,hquic⟩,hfwd⟩,hsigverify⟩ := hended
  cases tpuStep_effect hstep with
  | left _ hrunning => cases hsnus.symm.trans hrunning
  | entered hrunning => cases hsnus.symm.trans hrunning
  | refreshed i u hu => simp [StakedNodesUpdater.step, hsnus] at hu
  | cancelled => exact htpu
  | quicEnded | quicFwdEnded | sigverifyEnded =>
    simp [Tpu.ended, hsnus, hquic, hfwd, hsigverify]

theorem settled_step (hstep : step c s a = some t) : Settled s t := by
  have hrefl := settled_refl s
  obtain ⟨heffect,_⟩ := step_effect hstep
  cases heffect with
  | signalled | panicked | aborted | failed | watched | joined => exact ⟨id,id,id,id,id,id,id,id,id⟩
  | relayerShutdown hsignal hserver =>
    exact { settled_refl s.storeExit with relayerServer := fun h => by cases hserver.symm.trans h }
  | blockengineShutdown hsignal hserver =>
    exact { settled_refl s.storeExit with
      blockengineServer := fun h => by cases hserver.symm.trans h }
  | relayerServed => exact { hrefl with relayerServer := fun _ => rfl }
  | blockengineServed => exact { hrefl with blockengineServer := fun _ => rfl }
  | relayed a r ha hr =>
    obtain ⟨hloop,hdelay⟩ := relayer_settles hr
    exact { hrefl with loop := hloop, delay := hdelay }
  | packets a b ha hb => exact { hrefl with packets := (blockengine_settles hb).2 }
  | bundles a b ha hb =>
    obtain ⟨hmirror,hdelay⟩ := blockengine_settles hb
    exact { hrefl with mirror := hmirror, bundles := hdelay }
  | tpu a tpu htpu => exact { hrefl with tpu := tpu_settles htpu }
  | slots a slots hslots => exact { hrefl with slots := fun h => absurd h (slots_settle hslots) }

def Main.passed : Main → Nat
  | .relayerJoin | .aborted => 0
  | .blockengineJoin => 1
  | .proxyJoin => 2
  | .rpcTask => 3
  | .relayerTask => 4
  | .proxyDelayTask => 5
  | .returned => 6

def Awaited (s : State π) : Nat → Prop
  | 0 => s.relayerServer = .returned
  | 1 => s.blockengineServer = .returned
  | 2 => s.bundles.mirror.phase = .stopped ∧ s.packets.delay.phase = .ended ∧
      s.bundles.delay.phase = .ended
  | 3 => s.slots = .ended
  | 4 => s.tpu.ended = true ∧ s.relayer.forwarder.loop = .stopped
  | 5 => s.relayer.delay.phase = .ended
  | _ => True

def Joined (s : State π) : Prop := ∀ k < s.main.passed, Awaited s k

omit [PacketRef π] in
theorem awaited_settled (h : Settled s t) : ∀ k, Awaited s k → Awaited t k
  | 0, hk => h.relayerServer hk
  | 1, hk => h.blockengineServer hk
  | 2, hk => ⟨h.mirror hk.1,h.packets hk.2.1,h.bundles hk.2.2⟩
  | 3, hk => h.slots hk
  | 4, hk => ⟨h.tpu hk.1,h.loop hk.2⟩
  | 5, hk => h.delay hk
  | _ + 6, _ => trivial

omit [PacketRef π] in
theorem joined_awaited {main : Main} (hjoin : s.joined = some main) :
    Awaited s s.main.passed ∧ main.passed = s.main.passed + 1 := by
  cases hmain : s.main with
  | relayerJoin | blockengineJoin | proxyJoin | rpcTask | relayerTask | proxyDelayTask =>
    simp only [State.joined, hmain] at hjoin
    obtain ⟨hended,heq⟩ := Option.ite_none_right_eq_some.mp hjoin
    cases heq
    simpa [Main.passed, Awaited, State.proxyEnded] using hended
  | returned | aborted => simp [State.joined, hmain] at hjoin

theorem main_step (hstep : step c s a = some t) :
    t.main.passed ≤ s.main.passed ∨
      Awaited s s.main.passed ∧ t.main.passed = s.main.passed + 1 := by
  obtain ⟨heffect,_⟩ := step_effect hstep
  cases heffect with
  | joined main hjoin => exact .inr (joined_awaited hjoin)
  | aborted => exact .inl (Nat.zero_le _)
  | _ => exact .inl (Nat.le_refl _)

theorem joined_step (hs : Joined s) (hstep : step c s a = some t) : Joined t := by
  intro k hk
  refine awaited_settled (settled_step hstep) k ?_
  rcases main_step hstep with hle | ⟨hawaited,hnext⟩
  · exact hs k (Nat.lt_of_lt_of_le hk hle)
  · rcases Nat.lt_succ_iff_lt_or_eq.mp (hnext ▸ hk) with hlt | rfl
    · exact hs k hlt
    · exact hawaited

theorem main_returns_last (c : Config) (started : Nat) (as : List (Action π)) (s : State π)
    (hrun : run (step c) (init started) as = some s) :
    (0 < s.main.passed → s.signalled = true) ∧
    (s.main = .returned → s.signalled = true ∧ s.exit = true ∧
      s.relayerServer = .returned ∧ s.blockengineServer = .returned ∧
      s.bundles.mirror.phase = .stopped ∧ s.packets.delay.phase = .ended ∧
      s.bundles.delay.phase = .ended ∧ s.slots = .ended ∧ s.tpu.ended = true ∧
      s.relayer.forwarder.loop = .stopped ∧ s.relayer.delay.phase = .ended) := by
  have hcaused := caused_run hrun
  have hinit : Joined (init started : State π) := fun k hk => absurd hk (Nat.not_lt_zero k)
  have hjoined : Joined s := run_invariant (fun _ _ _ => joined_step) hinit hrun
  have hserver : 0 < s.main.passed → s.signalled = true ∧ s.exit = true := by
    intro hpassed
    have hreturned : s.relayerServer = .returned := hjoined 0 hpassed
    exact hcaused.relayerServer (by simp [hreturned])
  refine ⟨fun hpassed => (hserver hpassed).1,fun hmain => ?_⟩
  have hall : ∀ k < 6, Awaited s k := by
    intro k hk
    exact hjoined k (by rw [hmain]; exact hk)
  obtain ⟨hsignal,hexit⟩ := hserver (by rw [hmain]; decide)
  obtain ⟨hmirror,hpackets,hbundles⟩ := hall 2 (by decide)
  obtain ⟨htpu,hloop⟩ := hall 4 (by decide)
  exact ⟨hsignal,hexit,hall 0 (by decide),hall 1 (by decide),hmirror,hpackets,hbundles,
    hall 3 (by decide),htpu,hloop,hall 5 (by decide)⟩

end Joins

section Sample

def orderlyEnds : TpuEnds where
  quic tpu := tpu.cancelled || tpu.sigverify
  quicFwd tpu := tpu.cancelled || tpu.sigverify
  sigverify tpu receiverGone := tpu.quic && tpu.quicFwd || receiverGone

theorem orderlyEnds_forCause : EndsForCause orderlyEnds where
  quic _ h := Bool.or_eq_true_iff.mp h
  quicFwd _ h := Bool.or_eq_true_iff.mp h
  sigverify _ _ h := (Bool.or_eq_true_iff.mp h).imp_left Bool.and_eq_true_iff.mp

theorem orderlyEnds_whenCancelled : EndsWhenCancelled orderlyEnds where
  quic _ h := by simp [orderlyEnds, h]
  quicFwd _ h := by simp [orderlyEnds, h]
  sigverify _ _ hquic hfwd := by simp [orderlyEnds, hquic, hfwd]

def referenceConfig : Config :=
  ⟨Auth.pubkeyText.text,Auth.ipText.text,Blockengine.emptyCodec,Auth.pubkeyText.parse,∅,orderlyEnds,
    List.isEmpty⟩

def crashingConfig : Config :=
  { referenceConfig with ends := { orderlyEnds with sigverify := fun _ _ => true } }

def stopAtSignal : List (Action Packet) :=
  [.relayer (.forwarder .select),.signal,.blockengineShutdown,.relayer (.delay .exit),
    .relayer (.forwarder .disconnect)]

def stopAtCrash : List (Action Packet) :=
  [.relayer (.forwarder .select),.relayer (.delay (.wait 0)),.tpu .sigverifyEnds,
    .relayer (.delay .recvDisconnected),.relayer (.forwarder .disconnect),.storeExit]

theorem disconnect_after_signal :
    (∃ s, run (step referenceConfig) (init 0) stopAtSignal = some s ∧ s.relayer.failed = true ∧
      s.exit = true ∧ step referenceConfig s .storeExit = none) ∧
    ∃ s, run (step crashingConfig) (init 0) stopAtCrash = some s ∧ s.exit = true ∧
      s.signalled = false ∧ s.panicked = false ∧ s.relayer.failed = true ∧
      s.tpu.sigverify = true := by
  constructor
  · obtain ⟨s,hs,hstate⟩ := exists_run_of_map (step referenceConfig) (init 0) stopAtSignal
      (fun s => decide (s.relayer.failed = true ∧ s.relayer.forwarder.loop = .stopped))
      (by decide +kernel)
    obtain ⟨hfailed,hstopped⟩ := of_decide_eq_true hstate
    obtain ⟨_,hexit,hstore⟩ := (exit_raised_by_signal_or_panic referenceConfig 0 stopAtSignal s hs).2
      orderlyEnds_forCause
    exact ⟨s,hs,hfailed,hexit (.inl hstopped),hstore⟩
  · obtain ⟨s,hs,hstate⟩ := exists_run_of_map (step crashingConfig) (init 0) stopAtCrash
      (fun s => decide (s.exit = true ∧ s.signalled = false ∧ s.panicked = false))
      (by decide +kernel)
    obtain ⟨hexit,hsignal,hpanic⟩ := of_decide_eq_true hstate
    have hcause := (exit_raised_by_signal_or_panic crashingConfig 0 stopAtCrash s hs).1 hexit
    rw [hsignal, hpanic] at hcause
    obtain ⟨hfailed,hsigverify⟩ := (hcause.resolve_left Bool.false_ne_true).resolve_left
      Bool.false_ne_true
    exact ⟨s,hs,hexit,hsignal,hpanic,hfailed,hsigverify⟩

def quietShutdown : List (Action Packet) :=
  [.signal,.relayerShutdown,.relayerServed,.blockengineShutdown,.blockengineServed,.watch,
    .packets (.delay .shutdown),.bundles (.delay .shutdown),.bundles (.mirror (.run .endpointOk)),
    .bundles (.mirror (.run .loopCheck)),.slots .loopCheck,.tpu .snusCheck,.tpu .cancel,
    .tpu .quicEnds,.tpu .quicFwdEnds,.tpu .sigverifyEnds,.relayer (.forwarder .exit),
    .relayer (.delay .exit),.join,.join,.join,.join,.join,.join]

theorem quiet_process_returns :
    ∃ s, run (step referenceConfig) (init 0) quietShutdown = some s ∧ s.main = .returned ∧
      s.signalled = true ∧ s.tpu.ended = true ∧ s.relayer.forwarder.loop = .stopped := by
  obtain ⟨s,hs,hmain⟩ := exists_run_of_map (step referenceConfig) (init 0) quietShutdown
    (fun s => decide (s.main = .returned)) (by decide +kernel)
  have hmain := of_decide_eq_true hmain
  obtain ⟨_,hall⟩ := main_returns_last referenceConfig 0 quietShutdown s hs
  obtain ⟨hsignal,_,_,_,_,_,_,_,htpu,hloop,_⟩ := hall hmain
  exact ⟨s,hs,hmain,hsignal,htpu,hloop⟩

end Sample

end InertiaRelayer.Process
