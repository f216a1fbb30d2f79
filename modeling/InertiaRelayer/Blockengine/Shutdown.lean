import InertiaRelayer.Blockengine.Pipeline

namespace InertiaRelayer.Blockengine
open Broadcast Machine Proxy

section Winding

variable {T : Type} {w : Wiring T} {s t : State T} {st next : Stream T}

def Quitting : Mirror.RunAction → Prop
  | .endpointOk | .loopCheck | .connectFailed | .branchEnds .mirrorControl | .clear | .pauseCheck
  | .wake => True
  | _ => False

def Settling : Action T → Prop
  | .delay .shutdown | .delay (.send _) | .delay .drained => True
  | .mirror (.run a) => Quitting a
  | .task _ .bridgeExit | .task _ .pumpCancelled => True
  | .poll _ _ => True
  | _ => False

def Winding (a : Action T) : Prop := a = .watch ∨ Settling a

structure Attended (st : Stream T) : Prop where
  bridged : st.phase = .serving → st.bridge = true ∨ st.cancelled = true
  pumped : st.pump = .running → st.phase = .serving ∨ st.cancelled = true

theorem attended_task {exit : Bool} {a : TaskAction} (h : Attended st)
    (ha : taskStep exit st a = some next) : Attended next := by
  cases taskStep_effect ha with
  | served _ upstream hp => exact ⟨fun _ => .inl rfl,fun _ => .inl rfl⟩
  | refused hp =>
    refine ⟨nofun,fun hpump => (h.pumped hpump).imp_left fun hserving => ?_⟩
    cases hp.symm.trans hserving
  | dropped hp => exact ⟨nofun,fun _ => .inr rfl⟩
  | lost hp => exact ⟨h.bridged,nofun⟩
  | stopped hp hc => exact ⟨h.bridged,nofun⟩
  | exited hb => exact ⟨fun _ => .inr rfl,fun _ => .inr rfl⟩
  | bridged hb hc => exact ⟨fun _ => .inr hc,h.pumped⟩

theorem attended_absent : Attended (.absent : Stream T) :=
  ⟨fun hp => (by cases hp),fun hp => (by cases hp)⟩

theorem attended_step {a : Action T} (h : ∀ i, Attended (s.streams i))
    (hstep : step w s a = some t) : ∀ i, Attended (t.streams i) := by
  have hset : ∀ i st, Attended st → ∀ j, Attended ((s.setStream i st).streams j) :=
    fun _ _ hst => setStream_forall (P := fun _ st => Attended st) h hst
  cases step_effect hstep with
  | subscribed => exact hset _ _ ⟨nofun,nofun⟩
  | task i a st hst => exact hset i st (attended_task (h i) hst)
  | pumped i item hp => exact hset i _ ⟨(h i).bridged,(h i).pumped⟩
  | ended i now hc => exact hset i _ ⟨(h i).bridged,(h i).pumped⟩
  | delivered i now out rx hp hc hr ht => exact hset i _ ⟨(h i).bridged,(h i).pumped⟩
  | lagged i n rx hp hl => exact hset i _ ⟨(h i).bridged,(h i).pumped⟩
  | _ => exact h

theorem setStream_self (s : State T) (i : Nat) : s.setStream i (s.streams i) = s := by
  rw [State.setStream, Function.update_eq_self]

theorem setStream_setStream (s : State T) (i : Nat) (st next : Stream T) :
    (s.setStream i st).setStream i next = s.setStream i next := by
  simp [State.setStream]

theorem streams_setStream (s : State T) (i : Nat) (st : Stream T) :
    (s.setStream i st).streams i = st := by
  simp [State.setStream]

theorem task_within (i : Nat) {a : TaskAction} (ha : Settling (.task i a : Action T))
    (h : taskStep s.exit (s.streams i) a = some st) :
    Within (step w) Settling 1 s (s.setStream i st) :=
  within_step ha (by simp [step, h]) (within_refl ..)

theorem cancel_within (i : Nat) (hexit : s.exit = true) (h : Attended (s.streams i)) :
    ∃ st, Within (step w) Settling 1 s (s.setStream i st) ∧
      (st.phase = .serving → st.cancelled = true) ∧ (st.pump = .running → st.cancelled = true) := by
  by_cases hlive : (s.streams i).phase = .serving ∧ (s.streams i).cancelled = false
  · obtain ⟨hserving,hopen⟩ := hlive
    have hbridge : (s.streams i).bridge = true :=
      (h.bridged hserving).resolve_right fun hc => by cases hopen.symm.trans hc
    have htask : taskStep s.exit (s.streams i) .bridgeExit =
        some { s.streams i with bridge := false, cancelled := true } := by
      simp [taskStep, hbridge, hexit]
    exact ⟨_,task_within i (a := .bridgeExit) trivial htask,fun _ => rfl,fun _ => rfl⟩
  · have hserving : (s.streams i).phase = .serving → (s.streams i).cancelled = true :=
      fun hp => Bool.eq_true_of_not_eq_false fun hc => hlive ⟨hp,hc⟩
    refine ⟨s.streams i,within_mono (Nat.zero_le 1) ?_,hserving,
      fun hp => (h.pumped hp).elim hserving id⟩
    rw [setStream_self]
    exact within_refl ..

theorem pump_within (i : Nat) (hserving : (s.streams i).phase = .serving →
    (s.streams i).cancelled = true)
    (hpump : (s.streams i).pump = .running → (s.streams i).cancelled = true) :
    ∃ st, Within (step w) Settling 1 s (s.setStream i st) ∧
      (st.phase = .serving → st.cancelled = true) ∧ st.pump ≠ .running := by
  by_cases hrunning : (s.streams i).pump = .running
  · have htask : taskStep s.exit (s.streams i) .pumpCancelled =
        some { s.streams i with pump := .cancelled } := by
      simp [taskStep, hrunning, hpump hrunning]
    exact ⟨_,task_within i (a := .pumpCancelled) trivial htask,hserving,by simp⟩
  · refine ⟨s.streams i,within_mono (Nat.zero_le 1) ?_,hserving,hrunning⟩
    rw [setStream_self]
    exact within_refl ..

def Wound (st : Stream T) : Prop :=
  st.pump ≠ .running ∧ (st.phase = .serving → st.ended = true)

theorem poll_within (i : Nat) (hserving : (s.streams i).phase = .serving →
    (s.streams i).cancelled = true) (hpump : (s.streams i).pump ≠ .running) :
    ∃ st, Within (step w) Settling 1 s (s.setStream i st) ∧ Wound st := by
  by_cases hphase : (s.streams i).phase = .serving
  · have hstep : step w s (.poll i 0) =
        some (s.setStream i { s.streams i with ended := true }) := by
      simp [step, pollStep, hphase, hserving hphase]
    exact ⟨_,within_step (a := .poll i 0) trivial hstep (within_refl ..),hpump,fun _ => rfl⟩
  · refine ⟨s.streams i,within_mono (Nat.zero_le 1) ?_,hpump,fun hp => absurd hp hphase⟩
    rw [setStream_self]
    exact within_refl ..

theorem stream_within (i : Nat) (hexit : s.exit = true) (h : Attended (s.streams i)) :
    ∃ st, Within (step w) Settling 3 s (s.setStream i st) ∧ Wound st := by
  obtain ⟨st₁,hwithin₁,hserving₁,hpump₁⟩ := cancel_within (w := w) i hexit h
  rw [← streams_setStream s i st₁] at hserving₁ hpump₁
  obtain ⟨st₂,hwithin₂,hserving₂,hpump₂⟩ := pump_within (w := w) i hserving₁ hpump₁
  rw [setStream_setStream] at hwithin₂
  rw [← streams_setStream s i st₂] at hserving₂ hpump₂
  obtain ⟨st₃,hwithin₃,hwound⟩ := poll_within (w := w) i hserving₂ hpump₂
  rw [setStream_setStream] at hwithin₃
  exact ⟨st₃,within_trans (within_trans hwithin₁ hwithin₂) hwithin₃,hwound⟩

theorem streams_within (hexit : s.exit = true) (h : ∀ i, Attended (s.streams i)) (n : Nat) :
    ∃ streams, Within (step w) Settling (3 * n) s { s with streams := streams } ∧
      (∀ i, i < n → Wound (streams i)) ∧ ∀ i, n ≤ i → streams i = s.streams i := by
  induction n with
  | zero => exact ⟨s.streams,within_refl ..,fun i hi => absurd hi (Nat.not_lt_zero i),fun _ _ => rfl⟩
  | succ n ih =>
    obtain ⟨streams,hwithin,hwound,hrest⟩ := ih
    have hn : Attended (streams n) := by
      rw [hrest n (Nat.le_refl n)]
      exact h n
    obtain ⟨st,hnext,hst⟩ :=
      stream_within (w := w) (s := { s with streams := streams }) n hexit hn
    refine ⟨Function.update streams n st,within_trans hwithin hnext,fun i hi => ?_,fun i hi => ?_⟩
    · by_cases heq : i = n
      · subst heq
        rwa [Function.update_self]
      · rw [Function.update_of_ne heq]
        exact hwound i (by omega)
    · rw [Function.update_of_ne (by omega)]
      exact hrest i (by omega)

structure Aside (s t : State T) : Prop where
  exit : t.exit = s.exit
  shutdown : t.shutdown = s.shutdown
  streams : t.streams = s.streams
  nextStream : t.nextStream = s.nextStream
  mirror : t.mirror = s.mirror

theorem aside_trans {u : State T} (hst : Aside s t) (htu : Aside t u) : Aside s u :=
  ⟨htu.exit.trans hst.exit,htu.shutdown.trans hst.shutdown,htu.streams.trans hst.streams,
    htu.nextStream.trans hst.nextStream,htu.mirror.trans hst.mirror⟩

theorem delay_step {a : DelayAction} {b : DelayForward.Action FilterSet (Sent T)}
    {d : DelayState FilterSet (Sent T)} (ha : delayStep w s a = delayRun w s s.delayRx b)
    (hd : DelayForward.step packetDelay (onSent w) s.delay b = some d) :
    ∃ t, step w s (.delay a) = some t ∧ t.delay = d ∧ Aside s t := by
  refine ⟨{ s with delay := d, outbound := s.outbound ++ forwarded s.delay d },?_,rfl,
    ⟨rfl,rfl,rfl,rfl,rfl⟩⟩
  rw [step, ha, delayRun, hd]
  rfl

theorem drained_within {now : Nat} (hphase : s.delay.phase = .draining now)
    (hdue : s.delay.due now = false) : ∃ t, Within (step w) Settling 1 s t ∧
      t.delay.phase = .receiving ∧ Aside s t := by
  have hd : DelayForward.step packetDelay (onSent w) s.delay .drained =
      some (s.delay.enter .receiving) := by
    simp [DelayForward.step, hphase, hdue]
  obtain ⟨t,ht,hdelay,haside⟩ := delay_step (w := w) (a := .drained) rfl hd
  exact ⟨t,within_step (a := .delay .drained) trivial ht (within_refl ..),by rw [hdelay]; rfl,haside⟩

theorem drain_within {now : Nat} (env : FilterSet) (queue : List (Nat × Sent T)) (s : State T)
    (hqueue : s.delay.queue = queue) (hphase : s.delay.phase = .draining now) :
    ∃ t, Within (step w) Settling (queue.length + 1) s t ∧ t.delay.phase = .receiving ∧
      Aside s t := by
  induction queue generalizing s with
  | nil => exact drained_within hphase (by simp [Loop.due, hqueue])
  | cons head rest ih =>
    obtain ⟨due,x⟩ := head
    by_cases hle : due ≤ now
    · have hrelease : ∃ d, DelayForward.step packetDelay (onSent w) s.delay (.send env) = some d ∧
          d.queue = rest ∧ d.phase = .draining now := by
        simp [DelayForward.step, hphase, Loop.release, hqueue, hle]
      obtain ⟨d,hd,hrest,hdraining⟩ := hrelease
      obtain ⟨u,hu,rfl,haside⟩ := delay_step (w := w) (a := .send env) rfl hd
      obtain ⟨t,hwithin,hreceiving,haside'⟩ := ih u hrest hdraining
      exact ⟨t,within_step (a := .delay (.send env)) trivial hu hwithin,hreceiving,
        aside_trans haside haside'⟩
    · obtain ⟨t,hwithin,hrest⟩ := drained_within (w := w) hphase (by simp [Loop.due, hqueue, hle])
      exact ⟨t,within_mono (Nat.le_add_left 1 _) hwithin,hrest⟩

def InForward : Phase → Prop
  | .receiving | .draining _ | .ended => True
  | .waiting _ | .sweeping | .reading => False

def Forwarding (s : State T) : Prop := InForward s.delay.phase

theorem shutdown_within (hshutdown : s.shutdown = true) (hphase : s.delay.phase = .receiving) :
    ∃ t, Within (step w) Settling 1 s t ∧ t.delay.phase = .ended ∧ Aside s t := by
  have hd : DelayForward.step packetDelay (onSent w) s.delay .shutdown =
      some (s.delay.enter .ended) := by
    simp [DelayForward.step, hphase, DelayForward.select]
  obtain ⟨t,ht,hdelay,haside⟩ :=
    delay_step (w := w) (a := .shutdown) (by simp [delayStep, hshutdown]) hd
  exact ⟨t,within_step (a := .delay .shutdown) trivial ht (within_refl ..),by rw [hdelay]; rfl,haside⟩

theorem delay_within (hshutdown : s.shutdown = true) (hforward : Forwarding s) :
    ∃ t, Within (step w) Settling (s.delay.queue.length + 2) s t ∧ t.delay.phase = .ended ∧
      Aside s t := by
  cases hphase : s.delay.phase with
  | receiving =>
    obtain ⟨t,hwithin,ht⟩ := shutdown_within (w := w) hshutdown hphase
    exact ⟨t,within_mono (by omega) hwithin,ht⟩
  | draining now =>
    obtain ⟨u,hwithin,hu,haside⟩ :=
      drain_within (w := w) .default s.delay.queue s rfl hphase
    obtain ⟨t,hwithin',hended,haside'⟩ :=
      shutdown_within (w := w) (haside.shutdown.trans hshutdown) hu
    exact ⟨t,within_mono (by omega) (within_trans hwithin hwithin'),hended,
      aside_trans haside haside'⟩
  | ended => exact ⟨s,within_mono (Nat.zero_le _) (within_refl ..),hphase,⟨rfl,rfl,rfl,rfl,rfl⟩⟩
  | waiting | sweeping | reading =>
    rw [Forwarding, hphase] at hforward
    exact hforward.elim

theorem forwarding_delay {b : DelayForward.Action FilterSet (Sent T)}
    {d e : DelayState FilterSet (Sent T)} (hs : InForward d.phase)
    (hd : DelayForward.step packetDelay (onSent w) d b = some e) : InForward e.phase := by
  unfold DelayForward.step at hd
  split at hd
  · cases b with
    | recvOk received x =>
      obtain ⟨u,hu,hd⟩ := Option.bind_eq_some_iff.mp hd
      obtain ⟨_,rfl⟩ := read_some hu
      cases hd
      exact hs
    | releaseDue now =>
      simp only [DelayForward.select] at hd
      split at hd
      · obtain ⟨u,hu,hd⟩ := Option.bind_eq_some_iff.mp hd
        cases hd
        trivial
      · cases hd
    | recvLagged n =>
      cases hd
      exact hs
    | shutdown | recvClosed =>
      cases hd
      trivial
    | send | drained => cases hd
  · split at hd
    · obtain ⟨due,x,rest,_,_,rfl⟩ := release_some hd
      exact hs
    · split at hd
      · cases hd
      · cases hd
        trivial
    · cases hd
  · cases hd

theorem forwarding_init : Forwarding (init : State T) := trivial

theorem forwarding_step {a : Action T} (hs : Forwarding s) (hstep : step w s a = some t) :
    Forwarding t := by
  cases step_effect hstep with
  | delayed a b rx d hf hd => exact forwarding_delay hs hd
  | _ => exact hs

theorem pausing_stops {m : Mirror.State T} (hphase : m.phase = .pausing) :
    ∃ n, Within (Mirror.runStep true) Quitting 1 m n ∧ n.phase = .stopped := by
  have hstep : Mirror.runStep true m .pauseCheck = some (m.enter .stopped) := by
    simp [Mirror.runStep, hphase]
  exact ⟨_,within_step (a := .pauseCheck) trivial hstep (within_refl ..),rfl⟩

theorem closing_stops {m : Mirror.State T} {conn : Nat} (hphase : m.phase = .closing conn) :
    ∃ n, Within (Mirror.runStep true) Quitting 2 m n ∧ n.phase = .stopped := by
  have hstep : Mirror.runStep true m .clear = some { m.enter .pausing with conn := none } := by
    simp [Mirror.runStep, hphase]
  obtain ⟨n,hwithin,hn⟩ := pausing_stops (m := { m.enter .pausing with conn := none }) rfl
  exact ⟨n,within_step (a := .clear) trivial hstep hwithin,hn⟩

theorem looping_stops {m : Mirror.State T} (hphase : m.phase = .looping) :
    ∃ n, Within (Mirror.runStep true) Quitting 1 m n ∧ n.phase = .stopped := by
  have hstep : Mirror.runStep true m .loopCheck = some (m.enter .stopped) := by
    simp [Mirror.runStep, hphase]
  exact ⟨_,within_step (a := .loopCheck) trivial hstep (within_refl ..),rfl⟩

theorem run_within (m : Mirror.State T) :
    ∃ n, Within (Mirror.runStep true) Quitting 3 m n ∧ n.phase = .stopped := by
  cases hphase : m.phase with
  | starting =>
    have hstep : Mirror.runStep true m .endpointOk = some (m.enter .looping) := by
      simp [Mirror.runStep, hphase]
    obtain ⟨n,hwithin,hn⟩ := looping_stops (m := m.enter .looping) rfl
    exact ⟨n,within_mono (by decide) (within_step (a := .endpointOk) trivial hstep hwithin),hn⟩
  | looping =>
    obtain ⟨n,hwithin,hn⟩ := looping_stops hphase
    exact ⟨n,within_mono (by decide) hwithin,hn⟩
  | connecting =>
    have hstep : Mirror.runStep true m .connectFailed = some (m.enter .pausing) := by
      simp [Mirror.runStep, hphase]
    obtain ⟨n,hwithin,hn⟩ := pausing_stops (m := m.enter .pausing) rfl
    exact ⟨n,within_mono (by decide) (within_step (a := .connectFailed) trivial hstep hwithin),hn⟩
  | serving conn =>
    have hstep : Mirror.runStep true m (.branchEnds .mirrorControl) =
        some ((m.endWriter .idle).enter (.closing conn)) := by
      simp [Mirror.runStep, hphase, Mirror.State.branchDone]
    obtain ⟨n,hwithin,hn⟩ := closing_stops
      (m := (m.endWriter .idle).enter (.closing conn)) rfl
    exact ⟨n,within_step (a := .branchEnds .mirrorControl) trivial hstep hwithin,hn⟩
  | closing conn =>
    obtain ⟨n,hwithin,hn⟩ := closing_stops hphase
    exact ⟨n,within_mono (by decide) hwithin,hn⟩
  | pausing =>
    obtain ⟨n,hwithin,hn⟩ := pausing_stops hphase
    exact ⟨n,within_mono (by decide) hwithin,hn⟩
  | sleeping =>
    have hstep : Mirror.runStep true m .wake = some { m.enter .looping with
        backoff := min (m.backoff * 2) Mirror.backoffMax } := by
      simp [Mirror.runStep, hphase]
    obtain ⟨n,hwithin,hn⟩ := looping_stops
      (m := { m.enter .looping with backoff := min (m.backoff * 2) Mirror.backoffMax }) rfl
    exact ⟨n,within_mono (by decide) (within_step (a := .wake) trivial hstep hwithin),hn⟩
  | stopped => exact ⟨m,within_mono (by decide) (within_refl ..),hphase⟩

theorem mirror_within (hshutdown : s.shutdown = true) {c : Mirror.Codec T}
    (hc : w.codec = some c) : ∃ m, Within (step w) Settling 3 s { s with mirror := m } ∧
      m.phase = .stopped := by
  obtain ⟨m,hwithin,hm⟩ := run_within s.mirror
  refine ⟨m,within_lift (Q := Settling) (fun m => { s with mirror := m })
    (fun a => Action.mirror (.run a)) (fun _ ha => ha) ?_ hwithin,hm⟩
  intro m a n _ hstep
  simp [step, mirrorStep, hc, Mirror.step, hshutdown, hstep]

theorem settles_within (hexit : s.exit = true) (hshutdown : s.shutdown = true)
    (hattended : ∀ i, Attended (s.streams i)) (hforward : Forwarding s)
    (hunborn : ∀ i, s.nextStream ≤ i → s.streams i = .absent) :
    ∃ t, Within (step w) Settling (s.delay.queue.length + 3 * s.nextStream + 5) s t ∧
      t.shutdown = true ∧ t.delay.phase = .ended ∧
      (w.codec.isSome = true → t.mirror.phase = .stopped) ∧ ∀ i, Wound (t.streams i) := by
  obtain ⟨u,hdelay,hended,haside⟩ := delay_within (w := w) hshutdown hforward
  have hmirror : ∃ m, Within (step w) Settling 3 u { u with mirror := m } ∧
      (w.codec.isSome = true → m.phase = .stopped) := by
    cases hc : w.codec with
    | none => exact ⟨u.mirror,within_mono (Nat.zero_le 3) (within_refl ..),by simp⟩
    | some c =>
      obtain ⟨m,hwithin,hm⟩ := mirror_within (haside.shutdown.trans hshutdown) hc
      exact ⟨m,hwithin,fun _ => hm⟩
  obtain ⟨m,hmirror,hstopped⟩ := hmirror
  have hstreams : u.streams = s.streams := haside.streams
  obtain ⟨streams,hwithin,hwound,hrest⟩ := streams_within (w := w) (s := { u with mirror := m })
    (haside.exit.trans hexit) (fun i => by rw [show u.streams = s.streams from hstreams]; exact hattended i)
    s.nextStream
  refine ⟨_,within_mono ?_ (within_trans hdelay (within_trans hmirror hwithin)),
    haside.shutdown.trans hshutdown,hended,hstopped,fun i => ?_⟩
  · omega
  · by_cases hi : i < s.nextStream
    · exact hwound i hi
    · have habsent : streams i = .absent := by
        rw [hrest i (Nat.le_of_not_lt hi)]
        exact (congrFun hstreams i).trans (hunborn i (Nat.le_of_not_lt hi))
      have hwound : Wound (.absent : Stream T) := ⟨fun hp => (by cases hp),fun hp => (by cases hp)⟩
      rw [← habsent] at hwound
      exact hwound

theorem attended_run {as : List (Action T)} (hrun : run (step w) init as = some s) (i : Nat) :
    Attended (s.streams i) :=
  run_invariant (I := fun s => ∀ i, Attended (s.streams i)) (fun _ _ _ => attended_step)
    (fun _ => attended_absent) hrun i

theorem forwarding_run {as : List (Action T)} (hrun : run (step w) init as = some s) :
    Forwarding s :=
  run_invariant (fun _ _ _ => forwarding_step) forwarding_init hrun

theorem block_engine_winds_down (w : Wiring T) (as : List (Action T)) (s : State T)
    (hrun : run (step w) init as = some s) (hexit : s.exit = true) :
    ∃ t, Within (step w) Winding (s.delay.queue.length + 3 * s.nextStream + 6) s t ∧
      t.shutdown = true ∧ t.delay.phase = .ended ∧
      (w.codec.isSome = true → t.mirror.phase = .stopped) ∧
      ∀ i, (t.streams i).pump ≠ .running ∧
        ((t.streams i).phase = .serving → (t.streams i).ended = true) := by
  have hwatch : step w s .watch = some { s with shutdown := true } := by simp [step, hexit]
  have hattended := attended_run hrun
  have hforward : Forwarding s := forwarding_run hrun
  obtain ⟨t,hwithin,ht⟩ := settles_within (w := w) (s := { s with shutdown := true }) hexit rfl
    hattended hforward (pipeline_run hrun).pumped.unborn
  exact ⟨t,within_step (a := .watch) (.inl rfl) hwatch (within_weaken (fun _ => .inr) hwithin),ht⟩

end Winding

section Sample

def drainedAtExit : List (Action SubscribeBundlesResponse) :=
  [.subscribe,.task 0 .upstreamOk,.pumpItem 0 emptyBundles,.pumpItem 0 emptyBundles,.delay (.recv 0),
    .delay (.recv 0),.mirror (.run .endpointOk),.mirror (.run .loopCheck),
    .mirror (.run .connectOk),.delay (.releaseDue packetDelay),.exit]

theorem open_stream_winds_down :
    ∃ s t, run (step (bundleWiring emptyCodec)) init drainedAtExit = some s ∧
      s.mirror.phase = .serving 0 ∧ Within (step (bundleWiring emptyCodec)) Winding 11 s t ∧
      t.delay.phase = .ended ∧ t.mirror.phase = .stopped ∧
      ((t.streams 0).phase = .serving → (t.streams 0).ended = true) := by
  obtain ⟨s,hs,hstate⟩ := exists_run_of_map (step (bundleWiring emptyCodec)) init drainedAtExit
    (fun s => decide (s.exit = true ∧ s.mirror.phase = .serving 0 ∧ s.delay.queue.length = 2 ∧
      s.nextStream = 1)) (by decide +kernel)
  obtain ⟨hexit,hphase,hqueue,hnext⟩ := of_decide_eq_true hstate
  obtain ⟨t,hwithin,_,hended,hstopped,hstreams⟩ :=
    block_engine_winds_down (bundleWiring emptyCodec) drainedAtExit s hs hexit
  rw [hqueue, hnext] at hwithin
  exact ⟨s,t,hs,hphase,hwithin,hended,hstopped rfl,(hstreams 0).2⟩

end Sample

end InertiaRelayer.Blockengine
