import InertiaRelayer.Blockengine.System
import InertiaRelayer.Library.Machine
import InertiaRelayer.Library.Watch

namespace InertiaRelayer.ShutdownWatch
open Machine Watch

inductive Poller where
  | checking
  | sleeping
  | sending
  | dropping
  | finished
deriving DecidableEq

inductive Waiter where
  | absent
  | selecting (rx : Receiver)
  | broken
  | checking (rx : Receiver)
  | waiting (rx : Receiver)
  | returned
deriving DecidableEq

structure State where
  exit : Bool
  poller : Poller
  watch : Channel Bool
  shutdown : Receiver
  waiters : Nat → Waiter

def init : State :=
  let watch := Channel.opened false
  ⟨false,.checking,watch,watch.subscribe,fun _ => .absent⟩

inductive Action where
  | storeExit
  | loadExit
  | wake
  | send
  | dropSender
  | select (h : Nat)
  | waitForShutdown (h : Nat)
  | borrow (h : Nat)
  | changed (h : Nat)
  | cancel (h : Nat)
deriving DecidableEq

def State.setWaiter (s : State) (h : Nat) (p : Waiter) : State :=
  { s with waiters := Function.update s.waiters h p }

def resumed : Bool × Receiver → Waiter
  | (true,rx) => .checking rx
  | (false,_) => .returned

def step (s : State) : Action → Option State
  | .storeExit => some { s with exit := true }
  | .loadExit =>
      match s.poller with
      | .checking => some { s with poller := if s.exit then .sending else .sleeping }
      | _ => none
  | .wake =>
      match s.poller with
      | .sleeping => some { s with poller := .checking }
      | _ => none
  | .send =>
      match s.poller with
      | .sending => some { s with watch := s.watch.send true, poller := .dropping }
      | _ => none
  | .dropSender =>
      match s.poller with
      | .dropping => some { s with watch := s.watch.dropSender, poller := .finished }
      | _ => none
  | .select h =>
      match s.waiters h with
      | .absent => some (s.setWaiter h (.selecting s.shutdown))
      | _ => none
  | .waitForShutdown h =>
      match s.waiters h with
      | .absent => some (s.setWaiter h (.checking s.shutdown))
      | _ => none
  | .borrow h =>
      match s.waiters h with
      | .checking rx => some (s.setWaiter h (if s.watch.value then .returned else .waiting rx))
      | _ => none
  | .changed h =>
      match s.waiters h with
      | .selecting rx => (s.watch.changed rx).map fun _ => s.setWaiter h .broken
      | .waiting rx => (s.watch.changed rx).map fun r => s.setWaiter h (resumed r)
      | _ => none
  | .cancel h => some (s.setWaiter h .absent)

section Effects

inductive Effect (s : State) : Action → State → Prop
  | stored : Effect s .storeExit { s with exit := true }
  | slept (hp : s.poller = .checking) : Effect s .loadExit { s with poller := .sleeping }
  | loaded (hp : s.poller = .checking) (hexit : s.exit = true) :
      Effect s .loadExit { s with poller := .sending }
  | woke (hp : s.poller = .sleeping) : Effect s .wake { s with poller := .checking }
  | sent (hp : s.poller = .sending) :
      Effect s .send { s with watch := s.watch.send true, poller := .dropping }
  | dropped (hp : s.poller = .dropping) :
      Effect s .dropSender { s with watch := s.watch.dropSender, poller := .finished }
  | selected (h : Nat) : Effect s (.select h) (s.setWaiter h (.selecting s.shutdown))
  | called (h : Nat) : Effect s (.waitForShutdown h) (s.setWaiter h (.checking s.shutdown))
  | seen (h : Nat) (hv : s.watch.value = true) : Effect s (.borrow h) (s.setWaiter h .returned)
  | parked (h : Nat) (rx : Receiver) (hs : s.waiters h = .checking rx)
      (hv : s.watch.value = false) : Effect s (.borrow h) (s.setWaiter h (.waiting rx))
  | broke (h : Nat) (rx : Receiver) (r : Bool × Receiver) (hs : s.waiters h = .selecting rx)
      (hr : s.watch.changed rx = some r) : Effect s (.changed h) (s.setWaiter h .broken)
  | resumed (h : Nat) (rx : Receiver) (r : Bool × Receiver) (hs : s.waiters h = .waiting rx)
      (hr : s.watch.changed rx = some r) : Effect s (.changed h) (s.setWaiter h (resumed r))
  | cancelled (h : Nat) : Effect s (.cancel h) (s.setWaiter h .absent)

variable {s t : State} {a : Action}

theorem step_effect (hstep : step s a = some t) : Effect s a t := by
  cases a with
  | storeExit =>
    cases hstep
    exact .stored
  | loadExit =>
    simp only [step] at hstep
    split at hstep
    · rename_i hp
      cases hstep
      split
      · exact .loaded hp ‹_›
      · exact .slept hp
    · cases hstep
  | wake =>
    simp only [step] at hstep
    split at hstep
    · rename_i hp
      cases hstep
      exact .woke hp
    · cases hstep
  | send =>
    simp only [step] at hstep
    split at hstep
    · rename_i hp
      cases hstep
      exact .sent hp
    · cases hstep
  | dropSender =>
    simp only [step] at hstep
    split at hstep
    · rename_i hp
      cases hstep
      exact .dropped hp
    · cases hstep
  | select h =>
    simp only [step] at hstep
    split at hstep
    · cases hstep
      exact .selected h
    · cases hstep
  | waitForShutdown h =>
    simp only [step] at hstep
    split at hstep
    · cases hstep
      exact .called h
    · cases hstep
  | borrow h =>
    simp only [step] at hstep
    split at hstep
    · rename_i rx hs
      cases hstep
      cases hv : s.watch.value with
      | true => exact .seen h hv
      | false => exact .parked h rx hs hv
    · cases hstep
  | changed h =>
    simp only [step] at hstep
    split at hstep
    · rename_i rx hs
      obtain ⟨r,hr,rfl⟩ := Option.map_eq_some_iff.mp hstep
      exact .broke h rx r hs hr
    · rename_i rx hs
      obtain ⟨r,hr,rfl⟩ := Option.map_eq_some_iff.mp hstep
      exact .resumed h rx r hs hr
    · cases hstep
  | cancel h =>
    cases hstep
    exact .cancelled h

end Effects

section Synced

variable {s t : State} {a : Action} {h : Nat} {p : Waiter}

structure Announced (exit : Bool) (poller : Poller) (watch : Channel Bool) : Prop where
  version : watch.version = if watch.value then 1 else 0
  loaded : poller = .sending → exit = true
  value : watch.value = true ↔ poller = .dropping ∨ poller = .finished
  cause : watch.value = true → exit = true
  closed : watch.closed = true → watch.value = true

def Waiter.Ok (value : Bool) : Waiter → Prop
  | .absent => True
  | .selecting rx => rx.seen = 0
  | .checking rx => rx.seen = 0 ∨ value = true
  | .waiting rx => rx.seen = 0
  | .broken => value = true
  | .returned => value = true

structure Synced (s : State) : Prop where
  announced : Announced s.exit s.poller s.watch
  original : s.shutdown.seen = 0
  waiters : ∀ h, (s.waiters h).Ok s.watch.value

theorem synced_init : Synced init where
  announced := ⟨rfl,nofun,by simp [init, Channel.opened],nofun,nofun⟩
  original := rfl
  waiters _ := trivial

theorem ok_announced (hp : p.Ok s.watch.value) : p.Ok true := by
  cases p with
  | checking rx => exact .inr rfl
  | broken | returned => rfl
  | _ => exact hp

theorem ok_setWaiter (hs : ∀ i, (s.waiters i).Ok s.watch.value) (hp : p.Ok s.watch.value)
    (i : Nat) : ((s.setWaiter h p).waiters i).Ok s.watch.value := by
  by_cases hi : i = h
  · subst hi
    simpa [State.setWaiter] using hp
  · simpa [State.setWaiter, Function.update_of_ne hi] using hs i

theorem synced_setWaiter (hs : Synced s) (hp : p.Ok s.watch.value) : Synced (s.setWaiter h p) :=
  ⟨hs.announced,hs.original,ok_setWaiter hs.waiters hp⟩

theorem changed_announced {rx : Receiver} {r : Bool × Receiver} (hs : Synced s)
    (hseen : rx.seen = 0) (hr : s.watch.changed rx = some r) :
    s.watch.value = true ∧ r = (true,⟨1⟩) := by
  have hversion := hs.announced.version
  cases hv : s.watch.value with
  | true =>
    rw [hv] at hversion
    rw [Channel.changed_behind (by rw [hseen, hversion]; decide), hversion] at hr
    exact ⟨rfl,(Option.some.inj hr).symm⟩
  | false =>
    rw [hv] at hversion
    have hopen : s.watch.closed = false :=
      Bool.eq_false_iff.mpr fun hc => by cases hv.symm.trans (hs.announced.closed hc)
    rw [Channel.changed_pending (hseen.trans hversion.symm) hopen] at hr
    cases hr

theorem synced_step (hs : Synced s) (hstep : step s a = some t) : Synced t := by
  have ha := hs.announced
  cases step_effect hstep with
  | stored => exact ⟨⟨ha.version,fun _ => rfl,ha.value,fun _ => rfl,ha.closed⟩,hs.original,hs.waiters⟩
  | slept hp =>
    have hv : s.watch.value = false := by simpa [hp] using ha.value
    exact ⟨⟨ha.version,nofun,by simp [hv],ha.cause,ha.closed⟩,hs.original,hs.waiters⟩
  | loaded hp hexit =>
    have hv : s.watch.value = false := by simpa [hp] using ha.value
    exact ⟨⟨ha.version,fun _ => hexit,by simp [hv],ha.cause,ha.closed⟩,hs.original,hs.waiters⟩
  | woke hp =>
    have hv : s.watch.value = false := by simpa [hp] using ha.value
    exact ⟨⟨ha.version,nofun,by simp [hv],ha.cause,ha.closed⟩,hs.original,hs.waiters⟩
  | sent hp =>
    have hv : s.watch.value = false := by simpa [hp] using ha.value
    have hversion : s.watch.version = 0 := by simpa [hv] using ha.version
    exact ⟨⟨by simp [Channel.send, hversion],nofun,by simp [Channel.send],fun _ => ha.loaded hp,
      fun _ => rfl⟩,hs.original,fun h => ok_announced (hs.waiters h)⟩
  | dropped hp =>
    have hv : s.watch.value = true := ha.value.mpr (.inl hp)
    exact ⟨⟨ha.version,nofun,by simp [Channel.dropSender, hv],ha.cause,fun _ => hv⟩,hs.original,
      hs.waiters⟩
  | selected h => exact synced_setWaiter hs hs.original
  | called h => exact synced_setWaiter hs (.inl hs.original)
  | seen h hv => exact synced_setWaiter hs hv
  | parked h rx hw hv =>
    have hok := hs.waiters h
    rw [hw] at hok
    exact synced_setWaiter hs (hok.resolve_right fun ht => by cases hv.symm.trans ht)
  | broke h rx r hw hr =>
    have hok := hs.waiters h
    rw [hw] at hok
    exact synced_setWaiter hs (changed_announced hs hok hr).1
  | resumed h rx r hw hr =>
    have hok := hs.waiters h
    rw [hw] at hok
    obtain ⟨hv,rfl⟩ := changed_announced hs hok hr
    exact synced_setWaiter hs (.inr hv)
  | cancelled h => exact synced_setWaiter hs trivial

theorem synced_run {as : List Action} (hrun : run step init as = some s) : Synced s :=
  run_invariant (fun _ _ _ => synced_step) synced_init hrun

end Synced

section Delivery

variable {s t : State} {h : Nat}

def Waiter.pending : Waiter → Bool
  | .selecting _ | .checking _ | .waiting _ => true
  | _ => false

def Waiter.released : Waiter → Bool
  | .broken | .returned => true
  | _ => false

def Helps (h : Nat) (a : Action) : Prop :=
  a = .loadExit ∨ a = .wake ∨ a = .send ∨ a = .changed h ∨ a = .borrow h

theorem announce_within (h : Nat) (hs : Synced s) (hexit : s.exit = true) :
    ∃ t, Within step (Helps h) 3 s t ∧ Synced t ∧ t.watch.value = true ∧ t.waiters = s.waiters := by
  have hsend : ∀ u : State, Synced u → u.poller = .sending → ∃ t, Within step (Helps h) 1 u t ∧
      Synced t ∧ t.watch.value = true ∧ t.waiters = u.waiters := by
    intro u hu hp
    have hstep : step u .send = some { u with watch := u.watch.send true, poller := .dropping } := by
      simp [step, hp]
    exact ⟨_,within_step (.inr (.inr (.inl rfl))) hstep (within_refl ..),synced_step hu hstep,rfl,rfl⟩
  have hload : ∀ u : State, Synced u → u.exit = true → u.poller = .checking → ∃ t,
      Within step (Helps h) 2 u t ∧ Synced t ∧ t.watch.value = true ∧ t.waiters = u.waiters := by
    intro u hu hexit hp
    have hstep : step u .loadExit = some { u with poller := .sending } := by simp [step, hp, hexit]
    obtain ⟨t,hwithin,ht⟩ := hsend _ (synced_step hu hstep) rfl
    exact ⟨t,within_step (.inl rfl) hstep hwithin,ht⟩
  cases hp : s.poller with
  | checking =>
    obtain ⟨t,hwithin,ht⟩ := hload s hs hexit hp
    exact ⟨t,within_mono (by decide) hwithin,ht⟩
  | sleeping =>
    have hstep : step s .wake = some { s with poller := .checking } := by simp [step, hp]
    obtain ⟨t,hwithin,ht⟩ := hload _ (synced_step hs hstep) hexit rfl
    exact ⟨t,within_step (.inr (.inl rfl)) hstep hwithin,ht⟩
  | sending =>
    obtain ⟨t,hwithin,ht⟩ := hsend s hs hp
    exact ⟨t,within_mono (by decide) hwithin,ht⟩
  | dropping =>
    exact ⟨s,within_mono (by decide) (within_refl ..),hs,hs.announced.value.mpr (.inl hp),rfl⟩
  | finished =>
    exact ⟨s,within_mono (by decide) (within_refl ..),hs,hs.announced.value.mpr (.inr hp),rfl⟩

theorem changed_ready {rx : Receiver} (hs : Synced s) (hv : s.watch.value = true)
    (hseen : rx.seen = 0) : s.watch.changed rx = some (true,⟨1⟩) := by
  have hversion : s.watch.version = 1 := by simpa [hv] using hs.announced.version
  rw [Channel.changed_behind (by rw [hseen, hversion]; decide), hversion]

theorem release_within (hs : Synced s) (hv : s.watch.value = true)
    (hw : (s.waiters h).pending = true) :
    ∃ t, Within step (Helps h) 2 s t ∧ (t.waiters h).released = true := by
  have hborrow : ∀ (u : State) (rx : Receiver), u.watch.value = true → u.waiters h = .checking rx →
      ∃ t, Within step (Helps h) 1 u t ∧ (t.waiters h).released = true := by
    intro u rx hu hrx
    have hstep : step u (.borrow h) = some (u.setWaiter h .returned) := by simp [step, hrx, hu]
    exact ⟨_,within_step (.inr (.inr (.inr (.inr rfl)))) hstep (within_refl ..),
      by simp [State.setWaiter, Waiter.released]⟩
  have hok := hs.waiters h
  cases hrx : s.waiters h with
  | selecting rx =>
    rw [hrx] at hok
    have hstep : step s (.changed h) = some (s.setWaiter h .broken) := by
      simp [step, hrx, changed_ready hs hv hok]
    exact ⟨_,within_mono (by decide) (within_step (.inr (.inr (.inr (.inl rfl)))) hstep
      (within_refl ..)),by simp [State.setWaiter, Waiter.released]⟩
  | checking rx =>
    obtain ⟨t,hwithin,ht⟩ := hborrow s rx hv hrx
    exact ⟨t,within_mono (by decide) hwithin,ht⟩
  | waiting rx =>
    rw [hrx] at hok
    have hstep : step s (.changed h) = some (s.setWaiter h (.checking ⟨1⟩)) := by
      simp [step, hrx, changed_ready hs hv hok, resumed]
    obtain ⟨t,hwithin,ht⟩ :=
      hborrow (s.setWaiter h (.checking ⟨1⟩)) ⟨1⟩ hv (by simp [State.setWaiter])
    exact ⟨t,within_step (.inr (.inr (.inr (.inl rfl)))) hstep hwithin,ht⟩
  | _ => rw [hrx] at hw; cases hw

theorem shutdown_watch_exact (as : List Action) (s : State) (hrun : run step init as = some s) :
    (s.watch.value = true → s.exit = true) ∧
    (∀ h, (s.waiters h).released = true → s.watch.value = true) ∧
    (∀ h rx, s.waiters h = .selecting rx ∨ s.waiters h = .waiting rx →
      ((step s (.changed h)).isSome ↔ s.watch.value = true)) ∧
    (s.exit = true → ∀ h, (s.waiters h).pending = true →
      ∃ t, Within step (Helps h) 5 s t ∧ (t.waiters h).released = true) := by
  have hs := synced_run hrun
  refine ⟨hs.announced.cause,?_,?_,?_⟩
  · intro h hreleased
    have hok := hs.waiters h
    cases hw : s.waiters h with
    | broken | returned =>
      rw [hw] at hok
      exact hok
    | _ =>
      rw [hw] at hreleased
      cases hreleased
  · intro h rx hw
    have hseen : rx.seen = 0 := by
      have hok := hs.waiters h
      rcases hw with hw | hw
      · rw [hw] at hok
        exact hok
      · rw [hw] at hok
        exact hok
    have hready : (step s (.changed h)).isSome = (s.watch.changed rx).isSome := by
      rcases hw with hw | hw
      · simp [step, hw]
      · simp [step, hw]
    rw [hready]
    refine ⟨fun hsome => ?_,fun hv => by rw [changed_ready hs hv hseen]; rfl⟩
    obtain ⟨r,hr⟩ := Option.isSome_iff_exists.mp hsome
    exact (changed_announced hs hseen hr).1
  · intro hexit h hpending
    obtain ⟨u,hwithin,hu,hv,hwaiters⟩ := announce_within h hs hexit
    rw [← hwaiters] at hpending
    obtain ⟨t,hrelease,ht⟩ := release_within hu hv hpending
    exact ⟨t,within_trans hwithin hrelease,ht⟩

end Delivery

section Flag

variable {T : Type} {w : Blockengine.Wiring T} {s t : State} {a : Action}

def flags (b : Blockengine.State T) (s : State) : Blockengine.State T :=
  { b with exit := s.exit, shutdown := s.watch.value }

theorem flags_step (hs : Synced s) (hstep : step s a = some t) (b : Blockengine.State T) :
    ∃ bs, run (Blockengine.step w) (flags b s) bs = some (flags b t) := by
  cases step_effect hstep with
  | stored => exact ⟨[.exit],rfl⟩
  | sent hp =>
    refine ⟨[.watch],?_⟩
    simp [run, Blockengine.step, flags, hs.announced.loaded hp, Channel.send]
  | _ => exact ⟨[],rfl⟩

theorem flags_reachable (w : Blockengine.Wiring T) {as : List Action}
    (hrun : run step init as = some s) :
    Reachable (Blockengine.step w) Blockengine.init (flags Blockengine.init s) :=
  reachable_simulation (flags Blockengine.init) synced_init (fun _ _ _ => synced_step)
    (fun _ _ _ hs hstep => flags_step hs hstep Blockengine.init) ⟨as,hrun⟩

end Flag

section Sample

def lateSelect : List Action := [.storeExit,.loadExit,.send,.dropSender,.select 0]

theorem late_receiver_released :
    ∃ s t, run step init lateSelect = some s ∧ Within step (Helps 0) 5 s t ∧
      (t.waiters 0).released = true := by
  obtain ⟨s,hs,hstate⟩ := exists_run_of_map step init lateSelect
    (fun s => decide (s.exit = true ∧ (s.waiters 0).pending = true)) (by decide)
  obtain ⟨hexit,hpending⟩ := of_decide_eq_true hstate
  obtain ⟨_,_,_,hreleases⟩ := shutdown_watch_exact lateSelect s hs
  obtain ⟨t,hwithin,hreleased⟩ := hreleases hexit 0 hpending
  exact ⟨s,t,hs,hwithin,hreleased⟩

end Sample

end InertiaRelayer.ShutdownWatch
