import InertiaRelayer.Process.Lifecycle

namespace InertiaRelayer.Process
open Machine Proxy

section Components

variable {π : Type} [PacketRef π] {c : Config} {s t : State π} {started : Nat}
  {as : List (Action π)}

theorem reachable_relayer (hrun : run (step c) (init started) as = some s) :
    Reachable (Pipeline.step c.keyText c.addrText) Pipeline.init s.relayer := by
  refine reachable_simulation (I := fun _ => True) State.relayer trivial (fun _ _ _ _ _ => trivial)
    (fun s a t _ hstep => ?_) ⟨as,hrun⟩
  obtain ⟨heffect,_⟩ := step_effect hstep
  cases heffect with
  | panicked | relayerShutdown | blockengineShutdown | failed => exact ⟨[.signal],rfl⟩
  | relayed a r ha hr => exact ⟨[a],by simp [run, hr]⟩
  | _ => exact ⟨[],rfl⟩

theorem reachable_packets (hrun : run (step c) (init started) as = some s) :
    Reachable (Blockengine.step Blockengine.packetWiring) Blockengine.init s.packets := by
  refine reachable_simulation State.packets (caused_init started) (fun _ _ _ => caused_step)
    (fun s a t hs hstep => ?_) ⟨as,hrun⟩
  obtain ⟨heffect,_⟩ := step_effect hstep
  cases heffect with
  | panicked | relayerShutdown | blockengineShutdown | failed => exact ⟨[.exit],rfl⟩
  | packets a b ha hb => exact ⟨[a],by simp [run, hb]⟩
  | watched hexit =>
    exact ⟨[.watch],by simp [run, Blockengine.step, hs.packets, hexit, State.sendShutdown]⟩
  | _ => exact ⟨[],rfl⟩

theorem reachable_bundles (hrun : run (step c) (init started) as = some s) :
    Reachable (Blockengine.step (Blockengine.bundleWiring c.codec)) Blockengine.init s.bundles := by
  refine reachable_simulation State.bundles (caused_init started) (fun _ _ _ => caused_step)
    (fun s a t hs hstep => ?_) ⟨as,hrun⟩
  obtain ⟨heffect,_⟩ := step_effect hstep
  cases heffect with
  | panicked | relayerShutdown | blockengineShutdown | failed => exact ⟨[.exit],rfl⟩
  | bundles a b ha hb => exact ⟨[a],by simp [run, hb]⟩
  | watched hexit =>
    exact ⟨[.watch],by simp [run, Blockengine.step, hs.bundles, hexit, State.sendShutdown]⟩
  | _ => exact ⟨[],rfl⟩

end Components

section Lifts

variable {π : Type} [PacketRef π] {c : Config} {s : State π} {n : Nat}

def SlotOwn : SlotAction → Prop
  | .loopCheck | .subscribeFailed | .recvCheck | .recvTimeout | .pauseCheck | .wake => True
  | _ => False

def TpuOwn : TpuAction → Prop
  | .snus i => i.voteAccounts.isOk = false
  | _ => True

def Own : Action π → Prop
  | .relayerShutdown | .relayerServed | .blockengineShutdown | .blockengineServed => True
  | .relayer a => Pipeline.Winding a
  | .packets a => Blockengine.Settling a
  | .bundles a => Blockengine.Settling a
  | .tpu a => TpuOwn a
  | .slots a => SlotOwn a
  | .watch | .join => True
  | _ => False

omit [PacketRef π] in
theorem canRelay_of_winding {a : Pipeline.Action π} (ha : Pipeline.Winding a) :
    s.canRelay a = true := by
  cases a with
  | delay a =>
    cases a with
    | recvDisconnected => cases ha
    | _ => rfl
  | forwarder a =>
    cases a with
    | subscribePackets => cases ha
    | _ => rfl
  | receive => rfl
  | _ => cases ha

omit [PacketRef π] in
theorem canServe_of_settling {T : Type} {a : Blockengine.Action T}
    (ha : Blockengine.Settling a) : s.canServe a = true := by
  cases a with
  | delay a =>
    cases a with
    | closed => cases ha
    | _ => rfl
  | exit | watch | subscribe => cases ha
  | _ => rfl

theorem relayer_lift (hlive : s.main.halted = false) {r : Pipeline.State π}
    (h : Within (Pipeline.step c.keyText c.addrText) Pipeline.Winding n s.relayer r) :
    Within (step c) Own n s { s with relayer := r } := by
  refine within_lift (Q := Own) (fun r => { s with relayer := r }) Action.relayer
    (fun _ => id) ?_ h
  intro r a next ha hstep
  have hcan := canRelay_of_winding (s := { s with relayer := r }) ha
  simp [step, hlive, runningStep, hcan, hstep]

theorem packets_lift (hlive : s.main.halted = false)
    {b : Blockengine.State SubscribePacketsResponse}
    (h : Within (Blockengine.step Blockengine.packetWiring) Blockengine.Settling n s.packets b) :
    Within (step c) Own n s { s with packets := b } := by
  refine within_lift (Q := Own) (fun b => { s with packets := b }) Action.packets (fun _ => id) ?_ h
  intro b a next ha hstep
  have hcan := canServe_of_settling (s := { s with packets := b }) ha
  simp [step, hlive, runningStep, hcan, hstep]

theorem bundles_lift (hlive : s.main.halted = false)
    {b : Blockengine.State SubscribeBundlesResponse}
    (h : Within (Blockengine.step (Blockengine.bundleWiring c.codec)) Blockengine.Settling n
      s.bundles b) : Within (step c) Own n s { s with bundles := b } := by
  refine within_lift (Q := Own) (fun b => { s with bundles := b }) Action.bundles (fun _ => id) ?_ h
  intro b a next ha hstep
  have hcan := canServe_of_settling (s := { s with bundles := b }) ha
  simp [step, hlive, runningStep, hcan, hstep]

theorem slots_within (phase : SlotPhase) : Within (slotStep true) SlotOwn 3 phase .ended := by
  cases phase with
  | looping => exact ⟨[.loopCheck],by decide,by simp [SlotOwn],rfl⟩
  | subscribing =>
    exact ⟨[.subscribeFailed,.pauseCheck,.loopCheck],by decide,by simp [SlotOwn],rfl⟩
  | receiving => exact ⟨[.recvCheck,.pauseCheck,.loopCheck],by decide,by simp [SlotOwn],rfl⟩
  | waiting => exact ⟨[.recvTimeout,.pauseCheck,.loopCheck],by decide,by simp [SlotOwn],rfl⟩
  | pausing => exact ⟨[.pauseCheck,.loopCheck],by decide,by simp [SlotOwn],rfl⟩
  | sleeping => exact ⟨[.wake,.loopCheck],by decide,by simp [SlotOwn],rfl⟩
  | ended => exact within_mono (by decide) (within_refl ..)

theorem slots_lift (hlive : s.main.halted = false) (hexit : s.exit = true) {slots : SlotPhase}
    (h : Within (slotStep true) SlotOwn n s.slots slots) :
    Within (step c) Own n s { s with slots := slots } := by
  refine within_lift (Q := Own) (fun slots => { s with slots := slots }) Action.slots
    (fun _ => id) ?_ h
  intro slots a next _ hstep
  have hraised : ({ s with slots := slots } : State π).exit = true := hexit
  simp [step, hlive, runningStep, hraised, hstep]

def Updating (tpu : Tpu) : Prop := tpu.refreshing = true → tpu.snus.exited = false

theorem updating_step {exit receiverGone : Bool} {tpu next : Tpu} {a : TpuAction}
    (h : Updating tpu) (hstep : tpuStep c exit receiverGone tpu a = some next) : Updating next := by
  cases tpuStep_effect hstep with
  | left hidle hrunning hexit => exact fun hrefreshing => by cases hidle.symm.trans hrefreshing
  | entered hrunning hexit => exact fun _ => hrunning
  | refreshed i u hu => exact fun hrefreshing => by cases hrefreshing
  | _ => exact h

theorem updating_run {started : Nat} {as : List (Action π)}
    (hrun : run (step c) (init started) as = some s) : Updating s.tpu := by
  refine run_invariant (I := fun s : State π => Updating s.tpu) (fun s a t hs hstep => ?_)
    (fun _ => rfl) hrun
  obtain ⟨heffect,_⟩ := step_effect hstep
  cases heffect with
  | tpu a tpu htpu => exact updating_step hs htpu
  | _ => exact hs

theorem stages_within (hends : EndsWhenCancelled c.ends) (receiverGone : Bool) (tpu : Tpu) :
    Within (tpuStep c true receiverGone) TpuOwn 4 tpu
      { tpu with cancelled := true, quic := true, quicFwd := true, sigverify := true } := by
  have hcancel : tpuStep c true receiverGone tpu .cancel = some { tpu with cancelled := true } := rfl
  have hquic : tpuStep c true receiverGone { tpu with cancelled := true } .quicEnds =
      some { tpu with cancelled := true, quic := true } := if_pos (hends.quic _ rfl)
  have hfwd : tpuStep c true receiverGone { tpu with cancelled := true, quic := true } .quicFwdEnds =
      some { tpu with cancelled := true, quic := true, quicFwd := true } :=
    if_pos (hends.quicFwd _ rfl)
  have hsigverify : tpuStep c true receiverGone
      { tpu with cancelled := true, quic := true, quicFwd := true } .sigverifyEnds =
        some { tpu with cancelled := true, quic := true, quicFwd := true, sigverify := true } :=
    if_pos (hends.sigverify _ _ rfl rfl)
  exact within_step (a := .cancel) trivial hcancel (within_step (a := .quicEnds) trivial hquic
    (within_step (a := .quicFwdEnds) trivial hfwd
      (within_step (a := .sigverifyEnds) trivial hsigverify (within_refl ..))))

def unanswered (u : StakedNodesUpdater.Updater) : StakedNodesUpdater.Iteration String :=
  ⟨false,u.lastStakes,u.lastStakes,.error "",u.lastStakes⟩

theorem updater_leaves (tpu : Tpu) (receiverGone : Bool) (hidle : tpu.refreshing = false) :
    ∃ u, Within (tpuStep c true receiverGone) TpuOwn 1 tpu { tpu with snus := u } ∧
      u.exited = true := by
  cases hexited : tpu.snus.exited with
  | true => exact ⟨tpu.snus,within_mono (by decide) (within_refl ..),hexited⟩
  | false =>
    have hstep : tpuStep c true receiverGone tpu .snusCheck =
        some { tpu with snus := { tpu.snus with exited := true } } := by
      simp [tpuStep, hidle, hexited]
    exact ⟨_,within_step (a := .snusCheck) trivial hstep (within_refl ..),rfl⟩

theorem updater_within {tpu : Tpu} (receiverGone : Bool) (htpu : Updating tpu) :
    ∃ u refreshing, Within (tpuStep c true receiverGone) TpuOwn 2 tpu
      { tpu with snus := u, refreshing := refreshing } ∧ u.exited = true := by
  cases hrefreshing : tpu.refreshing with
  | false =>
    obtain ⟨u,hwithin,hu⟩ := updater_leaves (c := c) tpu receiverGone hrefreshing
    exact ⟨u,tpu.refreshing,within_mono (by decide) hwithin,hu⟩
  | true =>
    have hstep : tpuStep c true receiverGone tpu (.snus (unanswered tpu.snus)) =
        some { tpu with refreshing := false } := by
      simp [tpuStep, hrefreshing, StakedNodesUpdater.step, StakedNodesUpdater.dueRefresh,
        htpu hrefreshing, unanswered]
    have hown : TpuOwn (.snus (unanswered tpu.snus)) := rfl
    obtain ⟨u,hwithin,hu⟩ :=
      updater_leaves (c := c) { tpu with refreshing := false } receiverGone rfl
    exact ⟨u,false,within_step hown hstep hwithin,hu⟩

theorem tpu_within (hends : EndsWhenCancelled c.ends) {tpu : Tpu} (receiverGone : Bool)
    (htpu : Updating tpu) :
    ∃ next, Within (tpuStep c true receiverGone) TpuOwn 6 tpu next ∧ next.ended = true := by
  obtain ⟨u,refreshing,hupdater,hu⟩ := updater_within (c := c) receiverGone htpu
  have hstages :=
    stages_within hends receiverGone { tpu with snus := u, refreshing := refreshing }
  exact ⟨_,within_trans hupdater hstages,by simp [Tpu.ended, hu]⟩

theorem tpu_lift (hlive : s.main.halted = false) (hexit : s.exit = true) {tpu : Tpu}
    (h : Within (tpuStep c true s.receiverGone) TpuOwn n s.tpu tpu) :
    Within (step c) Own n s { s with tpu := tpu } := by
  refine within_lift (Q := Own) (fun tpu => { s with tpu := tpu }) Action.tpu (fun _ => id) ?_ h
  intro tpu a next _ hstep
  have hraised : ({ s with tpu := tpu } : State π).exit = true := hexit
  have hgone : ({ s with tpu := tpu } : State π).receiverGone = s.receiverGone := rfl
  simp [step, hlive, runningStep, hraised, hgone, hstep]

end Lifts

section Joining

variable {π : Type} [PacketRef π] {c : Config} {s : State π}

def Main.next : Main → Main
  | .relayerJoin => .blockengineJoin
  | .blockengineJoin => .proxyJoin
  | .proxyJoin => .rpcTask
  | .rpcTask => .relayerTask
  | .relayerTask => .proxyDelayTask
  | .proxyDelayTask => .returned
  | .returned => .returned
  | .aborted => .aborted

omit [PacketRef π] in
theorem joined_of_awaited (hlive : s.main.halted = false) (hs : Awaited s s.main.passed) :
    s.joined = some s.main.next ∧ s.main.next.passed = s.main.passed + 1 := by
  cases hmain : s.main with
  | relayerJoin | blockengineJoin | proxyJoin | rpcTask | relayerTask | proxyDelayTask =>
    rw [hmain] at hs
    refine ⟨?_,rfl⟩
    simpa [State.joined, hmain, Main.next, Main.passed, Awaited, State.proxyEnded] using hs
  | returned | aborted => simp [hmain, Main.halted] at hlive

theorem joins_within (hs : ∀ k, Awaited s k) (n : Nat) (main : Main)
    (hmain : main.passed + n = 6) (hlive : main = .returned ∨ main.halted = false) :
    Within (step c) Own n { s with main := main } { s with main := .returned } := by
  induction n generalizing main with
  | zero =>
    obtain rfl : main = .returned := by
      cases main with
      | returned => rfl
      | _ => cases hmain
    exact within_refl ..
  | succ n ih =>
    have hrunning : main.halted = false := by
      rcases hlive with rfl | hlive
      · simp only [Main.passed] at hmain
        omega
      · exact hlive
    obtain ⟨hjoined,hpassed⟩ :=
      joined_of_awaited (s := { s with main := main }) hrunning (hs main.passed)
    have hstep : step c { s with main := main } (.join : Action π) =
        some { s with main := main.next } := by
      simp [step, hrunning, runningStep, hjoined]
    refine within_step (a := .join) trivial hstep (ih main.next (by simp only at hpassed; omega) ?_)
    cases main with
    | proxyDelayTask => exact .inl rfl
    | returned | aborted => cases hrunning
    | _ => exact .inr rfl

end Joining

section Graceful

variable {π : Type} [PacketRef π] {c : Config} {s : State π}

def Answered {T : Type} (b : Blockengine.State T) : Prop :=
  ∀ i < b.nextStream, (b.streams i).phase ≠ .subscribing

instance {T : Type} (b : Blockengine.State T) : Decidable (Answered b) :=
  inferInstanceAs (Decidable (∀ i < b.nextStream, (b.streams i).phase ≠ .subscribing))

theorem answered_settling {T : Type} {w : Blockengine.Wiring T} {b next : Blockengine.State T}
    {a : Blockengine.Action T} (ha : Blockengine.Settling a) (hb : Answered b)
    (hstep : Blockengine.step w b a = some next) : Answered next := by
  have hset : ∀ i st, (i < b.nextStream → st.phase ≠ .subscribing) → Answered (b.setStream i st) :=
    fun _ _ hst => Blockengine.setStream_forall
      (P := fun i st => i < b.nextStream → st.phase ≠ .subscribing) hb hst
  cases Blockengine.step_effect hstep with
  | exited | watched | subscribed | pumped | lagged => cases ha
  | task i a st hst =>
    refine hset i st ?_
    cases Blockengine.taskStep_effect hst with
    | served a upstream hp => exact fun hi => absurd hp (hb i hi)
    | stopped => exact hb i
    | exited => exact hb i
    | _ => cases ha
  | ended i now hc => exact hset i _ (hb i)
  | delivered i now out rx hp hc hr ht => exact hset i _ (hb i)
  | delayed => exact hb
  | mirrored => exact hb

theorem proxyStreams_wound {T : Type} {b : Blockengine.State T} (hb : Answered b)
    (hwound : ∀ i, Blockengine.Wound (b.streams i)) : proxyStreams b = [] := by
  refine List.filter_eq_nil_iff.mpr (fun i hi => ?_)
  unfold unfinished
  split
  · rename_i hphase
    exact absurd hphase (hb i (List.mem_range.mp hi))
  · rename_i hphase
    simp [(hwound i).2 hphase]
  · exact Bool.false_ne_true

omit [PacketRef π] in
theorem storeExit_raised (hs : Caused s) (hexit : s.exit = true) : s.storeExit = s := by
  have hrelayer : ({ s.relayer with exit := true } : Pipeline.State π) = s.relayer := by
    rw [← show s.relayer.exit = true from hexit]
  have hpackets : ({ s.packets with exit := true } :
      Blockengine.State SubscribePacketsResponse) = s.packets := by
    rw [← hs.packets.trans hexit]
  have hbundles : ({ s.bundles with exit := true } :
      Blockengine.State SubscribeBundlesResponse) = s.bundles := by
    rw [← hs.bundles.trans hexit]
  rw [State.storeExit, hrelayer, hpackets, hbundles]

theorem relayer_served (hreturns : ReturnsWhenDrained c) (hlive : s.main.halted = false)
    (hserver : s.relayerServer = .draining)
    (hstreams : subscriberStreams s.relayer.forwarder = []) :
    Within (step c) Own 1 s { s with relayerServer := .returned } := by
  refine within_step (a := .relayerServed) trivial ?_ (within_refl ..)
  have hdrained : c.mayReturn [] = true := hreturns
  simp [step, hlive, runningStep, hserver, hstreams, hdrained]

theorem relayer_serves (hreturns : ReturnsWhenDrained c) (hs : Caused s)
    (hlive : s.main.halted = false) (hsignal : s.signalled = true)
    (hstreams : subscriberStreams s.relayer.forwarder = []) :
    Within (step c) Own 2 s { s.storeExit with relayerServer := .returned } := by
  cases hserver : s.relayerServer with
  | serving =>
    let raised : State π := { s.storeExit with relayerServer := .draining }
    have hstep : step c s .relayerShutdown = some raised := by
      simp [step, hlive, runningStep, hsignal, hserver, raised]
    have hserved := relayer_served (s := raised) hreturns hlive rfl hstreams
    exact within_step (a := .relayerShutdown) trivial hstep hserved
  | draining =>
    obtain ⟨_,hexit⟩ := hs.relayerServer (by simp [hserver])
    rw [storeExit_raised hs hexit]
    exact within_mono (by decide) (relayer_served hreturns hlive hserver hstreams)
  | returned =>
    obtain ⟨_,hexit⟩ := hs.relayerServer (by simp [hserver])
    rw [storeExit_raised hs hexit, ← hserver]
    exact within_mono (by decide) (within_refl ..)

theorem blockengine_shuts (hs : Caused s) (hlive : s.main.halted = false)
    (hsignal : s.signalled = true) (hexit : s.exit = true) :
    ∃ server, server ≠ .serving ∧
      Within (step c) Own 1 s { s with blockengineServer := server } := by
  by_cases hserver : s.blockengineServer = .serving
  · have hstep : step c s (.blockengineShutdown : Action π) =
        some { s.storeExit with blockengineServer := .draining } := by
      simp [step, hlive, runningStep, hsignal, hserver]
    rw [storeExit_raised hs hexit] at hstep
    exact ⟨.draining,by decide,
      within_step (a := .blockengineShutdown) trivial hstep (within_refl ..)⟩
  · exact ⟨s.blockengineServer,hserver,within_mono (by decide) (within_refl ..)⟩

theorem blockengine_serves (hreturns : ReturnsWhenDrained c) (hlive : s.main.halted = false)
    (hserver : s.blockengineServer ≠ .serving) (hpackets : proxyStreams s.packets = [])
    (hbundles : proxyStreams s.bundles = []) :
    Within (step c) Own 1 s { s with blockengineServer := .returned } := by
  cases hstate : s.blockengineServer with
  | serving => exact absurd hstate hserver
  | draining =>
    refine within_step (a := .blockengineServed) trivial ?_ (within_refl ..)
    have hdrained : c.mayReturn [] = true := hreturns
    simp [step, hlive, runningStep, hstate, hpackets, hbundles, hdrained]
  | returned =>
    rw [← hstate]
    exact within_mono (by decide) (within_refl ..)

def shutdownSteps (s : State π) : Nat :=
  s.packets.delay.queue.length + 3 * s.packets.nextStream +
    (s.bundles.delay.queue.length + 3 * s.bundles.nextStream) +
    Pipeline.remaining s.relayer + 30

theorem blockengine_within {T : Type} {w : Blockengine.Wiring T} {b : Blockengine.State T}
    (hb : Reachable (Blockengine.step w) Blockengine.init b) (hanswered : Answered b) :
    ∃ next, Within (Blockengine.step w) Blockengine.Settling
        (b.delay.queue.length + 3 * b.nextStream + 5) { b with exit := true, shutdown := true }
        next ∧ next.delay.phase = .ended ∧
      (w.codec.isSome = true → next.mirror.phase = .stopped) ∧ proxyStreams next = [] := by
  obtain ⟨bs,hrun⟩ := hb
  have hattended := Blockengine.attended_run hrun
  have hforward : Blockengine.Forwarding b := Blockengine.forwarding_run hrun
  obtain ⟨next,hwithin,_,hended,hmirror,hwound⟩ :=
    Blockengine.settles_within (w := w) (s := { b with exit := true, shutdown := true }) rfl rfl
      hattended hforward (Blockengine.pipeline_run hrun).pumped.unborn
  have hkept : ∀ b a next, Blockengine.Settling a → Answered b →
      Blockengine.step w b a = some next → Answered next := fun _ _ _ => answered_settling
  have hnext : Answered next := within_invariant hkept (s := { b with exit := true, shutdown := true })
    hanswered hwithin
  exact ⟨next,hwithin,hended,hmirror,proxyStreams_wound hnext hwound⟩

theorem relayer_stops {r : Pipeline.State π}
    (hr : Reachable (Pipeline.step c.keyText c.addrText) Pipeline.init r) :
    ∃ t, Within (Pipeline.step c.keyText c.addrText) Pipeline.Winding (Pipeline.remaining r)
        { r with exit := true } t ∧
      t.exit = true ∧ t.delay.phase = .ended ∧ t.forwarder.loop = .stopped := by
  obtain ⟨as,hrun⟩ := hr
  have hsize := Pipeline.size_run hrun
  have hstopping : Pipeline.Stopping { r with exit := true } := ⟨rfl,hsize⟩
  obtain ⟨t,hwithin,ht,hover⟩ := Pipeline.relayer_within hstopping
  exact ⟨t,hwithin,ht.exit,hover⟩

theorem proxy_within {packets : Blockengine.State SubscribePacketsResponse}
    {bundles : Blockengine.State SubscribeBundlesResponse} {m n : Nat}
    (hreturns : ReturnsWhenDrained c) (hlive : s.main.halted = false) (hexit : s.exit = true)
    (hserver : s.blockengineServer ≠ .serving)
    (hpackets : Within (Blockengine.step Blockengine.packetWiring) Blockengine.Settling m
      s.sendShutdown.packets packets)
    (hbundles : Within (Blockengine.step (Blockengine.bundleWiring c.codec)) Blockengine.Settling n
      s.sendShutdown.bundles bundles)
    (hp : proxyStreams packets = []) (hb : proxyStreams bundles = []) :
    Within (step c) Own (1 + (m + (n + 1))) s { s.sendShutdown with
      packets := packets, bundles := bundles, blockengineServer := .returned } := by
  have hwatch : step c s (.watch : Action π) = some s.sendShutdown := by
    simp [step, hlive, runningStep, hexit]
  have hwatched : Within (step c) Own 1 s s.sendShutdown :=
    within_step (a := .watch) trivial hwatch (within_refl ..)
  have hpacketed := packets_lift (c := c) (s := s.sendShutdown) hlive hpackets
  have hbundled :=
    bundles_lift (c := c) (s := { s.sendShutdown with packets := packets }) hlive hbundles
  have hserved := blockengine_serves hreturns
    (s := { s.sendShutdown with packets := packets, bundles := bundles }) hlive hserver hp hb
  exact within_trans hwatched (within_trans hpacketed (within_trans hbundled hserved))

theorem threads_within {r : Pipeline.State π} {tpu : Tpu} {n : Nat} (hlive : s.main.halted = false)
    (hr : r.exit = true)
    (hrelayer : Within (Pipeline.step c.keyText c.addrText) Pipeline.Winding n s.relayer r)
    (htpu : Within (tpuStep c true (decide (r.delay.phase = .ended))) TpuOwn 6 s.tpu tpu) :
    Within (step c) Own (n + (3 + 6)) s { s with relayer := r, slots := .ended, tpu := tpu } := by
  have hrelayed := relayer_lift (c := c) hlive hrelayer
  have hslots := slots_lift (c := c) (s := { s with relayer := r }) hlive hr (slots_within s.slots)
  have htpus := tpu_lift (c := c) (s := { s with relayer := r, slots := .ended }) hlive hr htpu
  exact within_trans hrelayed (within_trans hslots htpus)

theorem main_within (hs : ∀ k, Awaited s k) (hlive : s.main.halted = false) :
    Within (step c) Own 6 s { s with main := .returned } := by
  have hpassed : s.main.passed ≤ 6 := by
    cases s.main with
    | _ => decide
  exact within_mono (Nat.sub_le 6 s.main.passed)
    (joins_within hs (6 - s.main.passed) s.main (by omega) (.inr hlive))

theorem graceful_shutdown_completes (c : Config) (hends : EndsWhenCancelled c.ends)
    (hreturns : ReturnsWhenDrained c) (started : Nat) (as : List (Action π)) (s : State π)
    (hrun : run (step c) (init started) as = some s) (hlive : s.main.halted = false)
    (hsignal : s.signalled = true) (hstreams : subscriberStreams s.relayer.forwarder = [])
    (hpackets : Answered s.packets) (hbundles : Answered s.bundles) :
    ∃ t, Within (step c) Own (shutdownSteps s) s t ∧ t.main = .returned := by
  have hcaused := caused_run hrun
  obtain ⟨packets,hpackets,hpended,_,hpstreams⟩ :=
    blockengine_within (reachable_packets hrun) hpackets
  obtain ⟨bundles,hbundles,hbended,hbstopped,hbstreams⟩ :=
    blockengine_within (reachable_bundles hrun) hbundles
  obtain ⟨r,hrelayer,hrexit,hrended,hrstopped⟩ := relayer_stops (reachable_relayer hrun)
  obtain ⟨tpu,htpu,htended⟩ :=
    tpu_within hends (decide (r.delay.phase = .ended)) (updating_run hrun)
  let raised : State π := { s.storeExit with relayerServer := .returned }
  have hraised : Within (step c) Own 2 s raised :=
    relayer_serves hreturns hcaused hlive hsignal hstreams
  have hcaused' : Caused raised := within_invariant (fun _ _ _ _ => caused_step) hcaused hraised
  obtain ⟨server,hserver,hshut⟩ := blockengine_shuts (c := c) hcaused' hlive hsignal rfl
  let shut : State π := { raised with blockengineServer := server }
  have hproxy := proxy_within (s := shut) hreturns hlive rfl hserver hpackets hbundles hpstreams
    hbstreams
  let served : State π := { shut.sendShutdown with
    packets := packets, bundles := bundles, blockengineServer := .returned }
  have hthreads := threads_within (c := c) (s := served) hlive hrexit hrelayer htpu
  let ended : State π := { served with relayer := r, slots := .ended, tpu := tpu }
  have hawaited : ∀ k, Awaited ended k := by
    intro k
    match k with
    | 0 | 1 | 3 => rfl
    | 2 => exact ⟨hbstopped rfl,hpended,hbended⟩
    | 4 => exact ⟨htended,hrstopped⟩
    | 5 => exact hrended
    | _ + 6 => trivial
  have hmain := main_within (c := c) hawaited hlive
  refine ⟨_,within_mono ?_ (within_trans hraised (within_trans hshut (within_trans hproxy
    (within_trans hthreads hmain)))),rfl⟩
  unfold shutdownSteps
  omega

end Graceful

section Sample

def openStreamSignalled : List (Action Packet) :=
  [.bundles .subscribe,.bundles (.task 0 .upstreamOk),.slots .loopCheck,.tpu .snusCheck,
    .relayer (.forwarder .select),.relayer (.delay (.wait 0)),.signal]

theorem open_stream_shuts_down :
    ∃ s t, run (step referenceConfig) (init 0) openStreamSignalled = some s ∧
      proxyStreams s.bundles = [0] ∧ s.tpu.refreshing = true ∧
      s.relayer.forwarder.loop = .waiting ∧ Within (step referenceConfig) Own 43 s t ∧
      t.main = .returned := by
  obtain ⟨s,hs,hstate⟩ := exists_run_of_map (step referenceConfig) (init 0) openStreamSignalled
    (fun s => decide (s.main.halted = false ∧ s.signalled = true ∧
      subscriberStreams s.relayer.forwarder = [] ∧ Answered s.packets ∧ Answered s.bundles ∧
      proxyStreams s.bundles = [0] ∧ s.tpu.refreshing = true ∧
      s.relayer.forwarder.loop = .waiting ∧ shutdownSteps s = 43)) (by decide +kernel)
  obtain ⟨hlive,hsignal,hstreams,hpackets,hbundles,hopen,hrefreshing,hwaiting,hsteps⟩ :=
    of_decide_eq_true hstate
  obtain ⟨t,hwithin,hmain⟩ := graceful_shutdown_completes referenceConfig orderlyEnds_whenCancelled
    rfl 0 openStreamSignalled s hs hlive hsignal hstreams hpackets hbundles
  exact ⟨s,t,hs,hopen,hrefreshing,hwaiting,hsteps ▸ hwithin,hmain⟩

end Sample

section Connected

open Forwarder (messages deliveredAt)

variable {π : Type} [PacketRef π] {c : Config} {s t : State π} {k : Pubkey} {ch : Nat}

structure Registered (k : Pubkey) (ch : Nat) (f : Forwarder.State) : Prop where
  stopped : f.loop = .stopped
  entry : f.subscriptions.lookup k = some ch
  isOpen : (f.channels ch).isOpen = true
  opened : ch < f.nextChannel

instance (k : Pubkey) (ch : Nat) (f : Forwarder.State) : Decidable (Registered k ch f) :=
  decidable_of_iff (f.loop = .stopped ∧ f.subscriptions.lookup k = some ch ∧
      (f.channels ch).isOpen = true ∧ ch < f.nextChannel)
    ⟨fun h => ⟨h.1,h.2.1,h.2.2.1,h.2.2.2⟩,fun h => ⟨h.stopped,h.entry,h.isOpen,h.opened⟩⟩

theorem subscribeStep_registered (keyText : Pubkey → String) {f : Forwarder.State}
    {identity : Pubkey} (hne : identity ≠ k) (hk : f.subscriptions.lookup k = some ch) :
    (Forwarder.subscribeStep keyText f identity).subscriptions.lookup k = some ch ∧
      (Forwarder.subscribeStep keyText f identity).nextChannel = f.nextChannel + 1 := by
  unfold Forwarder.subscribeStep
  split
  · exact ⟨hk,rfl⟩
  · rename_i subscriptions hok
    obtain ⟨rfl,_⟩ := Forwarder.subscribePackets_ok keyText hok
    refine ⟨?_,rfl⟩
    rw [AList.lookup_insert_ne hne.symm]
    exact hk

theorem entry_kept {keyText : Pubkey → String} {addrText : IpAddr → String}
    {f g : Forwarder.State} {a : Forwarder.Action π} (h : Registered k ch f)
    (hsub : a ≠ .subscribePackets k) (hstep : Forwarder.step keyText addrText f a = some g) :
    g.subscriptions.lookup k = some ch ∧ f.nextChannel ≤ g.nextChannel := by
  cases a with
  | subscribePackets identity =>
    obtain ⟨_,heq⟩ := Option.ite_none_left_eq_some.mp hstep
    cases heq
    have hne : identity ≠ k := fun heq => hsub (congrArg _ heq)
    obtain ⟨hentry,hnext⟩ := subscribeStep_registered keyText hne h.entry
    exact ⟨hentry,by omega⟩
  | closeStream c =>
    obtain ⟨_,heq⟩ := Option.ite_none_right_eq_some.mp hstep
    cases heq
    exact ⟨h.entry,Nat.le_refl _⟩
  | deliver c =>
    simp only [Forwarder.step] at hstep
    split at hstep
    · cases hstep
    · cases hstep
      exact ⟨h.entry,Nat.le_refl _⟩
  | _ => simp [Forwarder.step, h.stopped] at hstep

theorem registered_step {keyText : Pubkey → String} {addrText : IpAddr → String}
    {f g : Forwarder.State} {a : Forwarder.Action π} (h : Registered k ch f)
    (hclose : a ≠ .closeStream ch) (hsub : a ≠ .subscribePackets k)
    (hstep : Forwarder.step keyText addrText f a = some g) :
    Registered k ch g ∧
      deliveredAt ch f a ++ messages (g.channels ch).queue = messages (f.channels ch).queue := by
  obtain ⟨hentry,hnext⟩ := entry_kept h hsub hstep
  have hpending : f.loop.pending = [] := by rw [h.stopped]; rfl
  have hchannel : (g.channels ch).isOpen = true ∧
      deliveredAt ch f a ++ messages (g.channels ch).queue = messages (f.channels ch).queue := by
    have heffect := Forwarder.step_queueEffect ch hstep
    generalize g.channels ch = next at heffect
    cases heffect with
    | kept a ha hd => exact ⟨h.isOpen,by rw [Forwarder.deliveredAt_kept hd]; rfl⟩
    | delivered r queue hq =>
      refine ⟨h.isOpen,?_⟩
      rw [deliveredAt, if_pos rfl, hq]
      exact (Forwarder.messages_append [r] queue).symm
    | accepted o ho | refused o ho =>
      rw [hpending] at ho
      cases ho
    | opened identity isOpen hch => exact absurd h.opened (by omega)
    | closed => exact absurd rfl hclose
  exact ⟨⟨Pipeline.stopped_step h.stopped hstep,hentry,hchannel.1,
    Nat.lt_of_lt_of_le h.opened hnext⟩,hchannel.2⟩

def Action.leaves (k : Pubkey) (ch : Nat) : Action π → Bool
  | .relayer (.forwarder (.closeStream c)) => decide (c = ch)
  | .relayer (.forwarder (.subscribePackets identity)) => decide (identity = k)
  | .processExit => true
  | _ => false

def Stays (k : Pubkey) (ch : Nat) (_ : State π) (a : Action π) : Prop := a.leaves k ch = false

instance (k : Pubkey) (ch : Nat) : DecidableRel (Stays (π := π) k ch) :=
  fun _ a => inferInstanceAs (Decidable (a.leaves k ch = false))

def deliveredTo (ch : Nat) (s : State π) : Action π → List Forwarder.Msg
  | .relayer (.forwarder a) => deliveredAt ch s.relayer.forwarder a
  | _ => []

structure Held (k : Pubkey) (ch : Nat) (s : State π) : Prop where
  registered : Registered k ch s.relayer.forwarder
  server : s.relayerServer ≠ .returned
  main : s.main = .relayerJoin

theorem streaming_registered {f : Forwarder.State} (h : Registered k ch f) :
    ch ∈ subscriberStreams f := by
  have hentry : (k,ch) ∈ Forwarder.subscribers f.subscriptions :=
    List.mem_map_of_mem (KeyMap.lookup_iff_entry.mp h.entry)
  refine List.mem_filter.mpr ⟨List.mem_range.mpr h.opened,?_⟩
  have hany : (Forwarder.subscribers f.subscriptions).any (fun e => e.2 = ch) = true :=
    List.any_eq_true.mpr ⟨_,hentry,decide_eq_true rfl⟩
  simp [streaming, h.isOpen, hany]

theorem relayed_held {r : Pipeline.State π} {a : Pipeline.Action π}
    (hs : Registered k ch s.relayer.forwarder) (ha : Stays k ch s (.relayer a))
    (hstep : Pipeline.step c.keyText c.addrText s.relayer a = some r) :
    Registered k ch r.forwarder ∧
      deliveredTo ch s (.relayer a) ++ messages (r.forwarder.channels ch).queue =
        messages (s.relayer.forwarder.channels ch).queue := by
  cases Pipeline.step_effect hstep with
  | flagged a hflag =>
    rcases hflag with rfl | rfl
    · exact ⟨hs,rfl⟩
    · exact ⟨hs,rfl⟩
  | delayed => exact ⟨hs,rfl⟩
  | received batches rest f hchannel hf => simp [Forwarder.step, hs.stopped] at hf
  | forwarded a f hcan hf =>
    refine registered_step hs ?_ ?_ hf
    · rintro rfl
      exact absurd (decide_eq_true rfl) (ha ▸ Bool.false_ne_true)
    · rintro rfl
      exact absurd (decide_eq_true rfl) (ha ▸ Bool.false_ne_true)

theorem held_step {a : Action π} (hreturns : ReturnsOnlyDrained c) (hs : Held k ch s)
    (ha : Stays k ch s a) (hstep : step c s a = some t) : Held k ch t ∧
      deliveredTo ch s a ++ messages (t.relayer.forwarder.channels ch).queue =
        messages (s.relayer.forwarder.channels ch).queue := by
  obtain ⟨heffect,_⟩ := step_effect hstep
  cases heffect with
  | aborted => cases ha
  | relayerServed hserver hstreams =>
    have hmem := streaming_registered hs.registered
    rw [hreturns _ hstreams] at hmem
    cases hmem
  | relayerShutdown => exact ⟨⟨hs.registered,by simp,hs.main⟩,rfl⟩
  | relayed a r hcan hr =>
    obtain ⟨hregistered,hflow⟩ := relayed_held hs.registered ha hr
    exact ⟨⟨hregistered,hs.server,hs.main⟩,hflow⟩
  | joined main hjoin =>
    rw [State.joined, hs.main] at hjoin
    exact absurd (Option.ite_none_right_eq_some.mp hjoin).1 hs.server
  | _ => exact ⟨⟨hs.registered,hs.server,hs.main⟩,rfl⟩

theorem connected_validator_holds_main (c : Config) (hreturns : ReturnsOnlyDrained c)
    (s t : State π) (k : Pubkey) (ch : Nat) (as : List (Action π)) (hs : Held k ch s)
    (hrun : run (step c) s as = some t) (hc : Along (step c) (Stays k ch) s as) :
    t.main = .relayerJoin ∧ t.relayerServer ≠ .returned ∧
    t.relayer.forwarder.subscriptions.lookup k = some ch ∧
    ch ∈ subscriberStreams t.relayer.forwarder ∧
    collect (step c) (deliveredTo ch) s as ++ messages (t.relayer.forwarder.channels ch).queue =
      messages (s.relayer.forwarder.channels ch).queue := by
  have hheld : Held k ch t :=
    run_invariant_along (fun _ _ _ hs ha hstep => (held_step hreturns hs ha hstep).1) hs hc hrun
  have hflow := collect_balance_along
    (fun s : State π => messages (s.relayer.forwarder.channels ch).queue)
    (fun _ _ _ hs ha hstep => (held_step hreturns hs ha hstep).1)
    (fun _ _ _ hs ha hstep => (held_step hreturns hs ha hstep).2.trans (List.append_nil _).symm)
    hs hc hrun
  rw [collect_nil, List.append_nil] at hflow
  exact ⟨hheld.main,hheld.server,hheld.registered.entry,streaming_registered hheld.registered,hflow⟩

def connectedAtSignal : List (Action Packet) :=
  [.relayer (.forwarder (.subscribePackets Forwarder.identity)),
    .relayer (.forwarder .select),
    .relayer (.forwarder (.heartbeatTick [(Forwarder.identity,0)])),.relayer (.forwarder .offer),
    .relayer (.forwarder .endRound),.relayer (.forwarder .dropConnections),.signal,
    .relayerShutdown,.relayer (.forwarder .exit)]

def afterSignal : List (Action Packet) :=
  [.relayer (.delay .exit),.blockengineShutdown,.watch,.relayer (.forwarder (.deliver 0)),
    .blockengineServed,.slots .loopCheck]

theorem connected_validator_blocks_return :
    ∃ s t, run (step referenceConfig) (init 0) connectedAtSignal = some s ∧
      run (step referenceConfig) s afterSignal = some t ∧ t.blockengineServer = .returned ∧
      t.main = .relayerJoin ∧ t.relayerServer ≠ .returned ∧
      collect (step referenceConfig) (deliveredTo 0) s afterSignal = [.heartbeat 0] := by
  obtain ⟨s,hs,hstate⟩ := exists_run_of_map (step referenceConfig) (init 0) connectedAtSignal
    (fun s => decide (Registered Forwarder.identity 0 s.relayer.forwarder ∧
      s.relayerServer ≠ .returned ∧ s.main = .relayerJoin ∧
      Along (step referenceConfig) (Stays Forwarder.identity 0) s afterSignal ∧
      collect (step referenceConfig) (deliveredTo 0) s afterSignal = [.heartbeat 0] ∧
      ((run (step referenceConfig) s afterSignal).map fun t =>
        decide (t.blockengineServer = .returned)) = some true)) (by decide +kernel)
  obtain ⟨hregistered,hserver,hmain,hstays,hdelivered,hmore⟩ := of_decide_eq_true hstate
  obtain ⟨t,ht,hreturned⟩ := exists_run_of_map (step referenceConfig) s afterSignal
    (fun t => decide (t.blockengineServer = .returned)) hmore
  have hreturns : ReturnsOnlyDrained referenceConfig := fun _ => List.isEmpty_iff.mp
  obtain ⟨htmain,htserver,_⟩ := connected_validator_holds_main referenceConfig hreturns s t
    Forwarder.identity 0 afterSignal ⟨hregistered,hserver,hmain⟩ ht hstays
  exact ⟨s,t,hs,ht,of_decide_eq_true hreturned,htmain,htserver,hdelivered⟩

end Connected

end InertiaRelayer.Process
