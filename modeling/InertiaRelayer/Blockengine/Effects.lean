import InertiaRelayer.Blockengine.System

namespace InertiaRelayer.Blockengine
open Broadcast Proxy

section Effects

variable {T : Type} (w : Wiring T)

inductive Fed (s : State T) :
    DelayAction → DelayForward.Action FilterSet (Sent T) → Receiver → Prop
  | item (received : Nat) (x : Sent T) (rx : Receiver) (h : recv s.inbound s.delayRx = some (x,rx)) :
      Fed s (.recv received) (.recvOk received x) rx
  | lagged (n : Nat) (rx : Receiver) (h : lag s.inbound n s.delayRx = some rx) :
      Fed s (.lagged n) (.recvLagged n) rx
  | unfed (a : DelayAction) (b : DelayForward.Action FilterSet (Sent T))
      (ha : ∀ received, a ≠ .recv received) (hb : ∀ received x, b ≠ .recvOk received x) :
      Fed s a b s.delayRx

inductive Effect (s : State T) : Action T → State T → Prop
  | exited : Effect s .exit { s with exit := true }
  | watched : Effect s .watch { s with shutdown := true }
  | subscribed : Effect s .subscribe s.subscribeStream
  | task (i : Nat) (a : TaskAction) (st : Stream T)
      (h : taskStep s.exit (s.streams i) a = some st) : Effect s (.task i a) (s.setStream i st)
  | pumped (i : Nat) (item : T) (h : (s.streams i).pump = .running) :
      Effect s (.pumpItem i item)
        { s.setStream i { s.streams i with pulled := (s.streams i).pulled ++ [item] } with
          inbound := s.inbound ++ [⟨i,(s.streams i).pulled.length,item⟩] }
  | ended (i now : Nat) (h : (s.streams i).cancelled = true) :
      Effect s (.poll i now) (s.setStream i { s.streams i with ended := true })
  | delivered (i now : Nat) (out : Out T) (rx : Receiver) (hp : (s.streams i).phase = .serving)
      (hc : (s.streams i).cancelled = false) (hr : recv s.outbound (s.streams i).rx = some (out,rx))
      (ht : s.delay.clock ≤ now) :
      Effect s (.poll i now) (s.setStream i { s.streams i with
        rx := rx
        delivered := (s.streams i).delivered ++ [⟨now,(s.streams i).rx.cursor,out⟩] })
  | lagged (i n : Nat) (rx : Receiver) (hp : (s.streams i).phase = .serving)
      (h : lag s.outbound n (s.streams i).rx = some rx) :
      Effect s (.lagged i n) (s.setStream i { s.streams i with rx := rx })
  | delayed (a : DelayAction) (b : DelayForward.Action FilterSet (Sent T)) (rx : Receiver)
      (d : DelayState FilterSet (Sent T)) (hf : Fed s a b rx)
      (h : DelayForward.step packetDelay (onSent w) s.delay b = some d) :
      Effect s (.delay a)
        { s with delay := d, delayRx := rx, outbound := s.outbound ++ forwarded s.delay d }
  | mirrored (a : Mirror.Action) (c : Mirror.Codec T) (m : Mirror.State T) (out : List T)
      (hc : w.codec = some c)
      (h : Mirror.step c s.shutdown (s.inbound.map Sent.item) s.mirror a = some (m,out)) :
      Effect s (.mirror a) { s with mirror := m, outbound := s.outbound ++ out.map Out.inertia }

variable {w} {s t : State T}

theorem pollStep_effect {i now : Nat} (h : pollStep s i now = some t) :
    Effect w s (.poll i now) t := by
  simp only [pollStep] at h
  split at h
  · rename_i hp
    split at h
    · rename_i hc
      cases h
      exact .ended i now hc
    · rename_i hc
      split at h
      · cases h
      · rename_i out rx hr
        split at h
        · rename_i ht
          cases h
          exact .delivered i now out rx hp (by simpa using hc) hr ht
        · cases h
  · cases h

theorem delayRun_effect {a : DelayAction} {b : DelayForward.Action FilterSet (Sent T)}
    {rx : Receiver} (hf : Fed s a b rx) (h : delayRun w s rx b = some t) :
    Effect w s (.delay a) t := by
  obtain ⟨d,hd,rfl⟩ := Option.map_eq_some_iff.mp h
  exact .delayed a b rx d hf hd

theorem delayStep_effect {a : DelayAction} (h : delayStep w s a = some t) :
    Effect w s (.delay a) t := by
  cases a with
  | recv received =>
    simp only [delayStep] at h
    split at h
    · cases h
    · rename_i x rx hr
      exact delayRun_effect (.item received x rx hr) h
  | lagged n =>
    simp only [delayStep] at h
    split at h
    · cases h
    · rename_i rx hl
      exact delayRun_effect (.lagged n rx hl) h
  | shutdown =>
    simp only [delayStep] at h
    split at h
    · exact delayRun_effect (.unfed _ _ (by simp) (by simp)) h
    · cases h
  | releaseDue now => exact delayRun_effect (.unfed _ _ (by simp) (by simp)) h
  | send env => exact delayRun_effect (.unfed _ _ (by simp) (by simp)) h
  | drained => exact delayRun_effect (.unfed _ _ (by simp) (by simp)) h
  | closed => exact delayRun_effect (.unfed _ _ (by simp) (by simp)) h

theorem step_effect {a : Action T} (h : step w s a = some t) : Effect w s a t := by
  cases a with
  | exit =>
    cases h
    exact .exited
  | watch =>
    simp only [step] at h
    split at h
    · cases h
      exact .watched
    · cases h
  | subscribe =>
    cases h
    exact .subscribed
  | task i a =>
    obtain ⟨st,hst,rfl⟩ := Option.map_eq_some_iff.mp h
    exact .task i a st hst
  | pumpItem i item =>
    simp only [step, pumpStep] at h
    split at h
    · rename_i hp
      cases h
      exact .pumped i item hp
    · cases h
  | poll i now => exact pollStep_effect h
  | lagged i n =>
    simp only [step, lagStep] at h
    split at h
    · rename_i hp
      obtain ⟨rx,hl,rfl⟩ := Option.map_eq_some_iff.mp h
      exact .lagged i n rx hp hl
    · cases h
  | delay a => exact delayStep_effect h
  | mirror a =>
    simp only [step, mirrorStep] at h
    split at h
    · cases h
    · rename_i c hc
      obtain ⟨⟨m,out⟩,hm,rfl⟩ := Option.map_eq_some_iff.mp h
      exact .mirrored a c m out hc hm

end Effects

section Forwarding

variable {T : Type} {w : Wiring T} {s d : DelayState FilterSet (Sent T)}

structure SameQueue (s d : DelayState FilterSet (Sent T)) : Prop where
  queue : d.queue = s.queue
  arrived : d.arrived = s.arrived
  popped : d.popped = s.popped
  sends : d.sends = s.sends

variable (w) in
inductive Forwards (s : DelayState FilterSet (Sent T)) :
    DelayForward.Action FilterSet (Sent T) → DelayState FilterSet (Sent T) → Prop
  | idle (a : DelayForward.Action FilterSet (Sent T)) (d : DelayState FilterSet (Sent T))
      (ha : ∀ received x, a ≠ .recvOk received x) (h : SameQueue s d) : Forwards s a d
  | received (t : Nat) (x : Sent T) :
      Forwards s (.recvOk t x) ({ s with clock := t }.receive packetDelay t x)
  | released (env : FilterSet) (now due : Nat) (x : Sent T) (rest : List (Nat × Sent T))
      (hq : s.queue = (due,x) :: rest) :
      Forwards s (.send env) { s with
        queue := rest
        popped := s.popped ++ [⟨due,now,env,x⟩]
        sends := s.sends ++ [onSent w env x] }

theorem forwards_step {a : DelayForward.Action FilterSet (Sent T)}
    (h : DelayForward.step packetDelay (onSent w) s a = some d) : Forwards w s a d := by
  unfold DelayForward.step at h
  split at h
  · cases a with
    | recvOk t x =>
      obtain ⟨u,hu,h⟩ := Option.bind_eq_some_iff.mp h
      obtain ⟨_,rfl⟩ := read_some hu
      cases h
      exact .received t x
    | releaseDue now =>
      simp only [DelayForward.select] at h
      split at h
      · obtain ⟨u,hu,h⟩ := Option.bind_eq_some_iff.mp h
        obtain ⟨_,rfl⟩ := read_some hu
        cases h
        exact .idle _ _ (fun _ _ hb => by cases hb) ⟨rfl,rfl,rfl,rfl⟩
      · cases h
    | send => cases h
    | drained => cases h
    | shutdown | recvLagged | recvClosed =>
      cases h
      exact .idle _ _ (fun _ _ hb => by cases hb) ⟨rfl,rfl,rfl,rfl⟩
  · rename_i now hs
    split at h
    · obtain ⟨due,x,rest,hq,_,rfl⟩ := release_some h
      exact .released _ now due x rest hq
    · split at h
      · cases h
      · cases h
        exact .idle _ _ (fun _ _ hb => by cases hb) ⟨rfl,rfl,rfl,rfl⟩
    · cases h
  · cases h

theorem forwarded_nil (h : d.popped = s.popped) : forwarded s d = [] := by
  simp [forwarded, h]

theorem forwarded_received (t : Nat) (x : Sent T) :
    forwarded s ({ s with clock := t }.receive packetDelay t x) = [] :=
  forwarded_nil rfl

theorem forwarded_released (env : FilterSet) (now due : Nat) (x : Sent T)
    (rest : List (Nat × Sent T)) :
    forwarded s { s with
      queue := rest
      popped := s.popped ++ [⟨due,now,env,x⟩]
      sends := s.sends ++ [onSent w env x] } = [.released ⟨due,now,env,x⟩ (onSent w env x)] := by
  simp [forwarded]

end Forwarding

section Streams

variable {T : Type}

theorem taskStep_absent (exit : Bool) (a : TaskAction) :
    taskStep exit (Stream.absent : Stream T) a = none := by
  cases a <;> rfl

inductive TaskEffect (st : Stream T) : TaskAction → Stream T → Prop
  | served (a : TaskAction) (upstream : Bool) (hp : st.phase = .subscribing) :
      TaskEffect st a (st.serveProxyStream upstream)
  | refused (hp : st.phase = .subscribing) :
      TaskEffect st .upstreamFailed { st with phase := .refused }
  | dropped (hp : st.phase = .serving) :
      TaskEffect st .drop { st with phase := .dropped, cancelled := true }
  | lost (hp : st.pump = .running) : TaskEffect st .pumpEnds { st with pump := .lost }
  | stopped (hp : st.pump = .running) (hc : st.cancelled = true) :
      TaskEffect st .pumpCancelled { st with pump := .cancelled }
  | exited (hb : st.bridge = true) :
      TaskEffect st .bridgeExit { st with bridge := false, cancelled := true }
  | bridged (hb : st.bridge = true) (hc : st.cancelled = true) :
      TaskEffect st .bridgeCancelled { st with bridge := false }

theorem taskStep_effect {exit : Bool} {st next : Stream T} {a : TaskAction}
    (h : taskStep exit st a = some next) : TaskEffect st a next := by
  cases a with
  | upstreamOk =>
    simp only [taskStep] at h
    split at h
    · rename_i hp
      cases h
      exact .served _ true hp
    · cases h
  | upstreamDenied =>
    simp only [taskStep] at h
    split at h
    · rename_i hp
      cases h
      exact .served _ false hp
    · cases h
  | upstreamFailed =>
    simp only [taskStep] at h
    split at h
    · rename_i hp
      cases h
      exact .refused hp
    · cases h
  | drop =>
    simp only [taskStep] at h
    split at h
    · rename_i hp
      cases h
      exact .dropped hp
    · cases h
  | pumpEnds =>
    simp only [taskStep] at h
    split at h
    · rename_i hp
      cases h
      exact .lost hp
    · cases h
  | pumpCancelled =>
    simp only [taskStep] at h
    split at h
    · rename_i hp
      split at h
      · rename_i hc
        cases h
        exact .stopped hp hc
      · cases h
    · cases h
  | bridgeExit =>
    simp only [taskStep] at h
    split at h
    · rename_i hb
      cases h
      exact .exited ((Bool.and_eq_true _ _).mp hb).1
    · cases h
  | bridgeCancelled =>
    simp only [taskStep] at h
    split at h
    · rename_i hb
      obtain ⟨hb,hc⟩ := (Bool.and_eq_true _ _).mp hb
      cases h
      exact .bridged hb hc
    · cases h

structure TasksOnly (st next : Stream T) : Prop where
  rx : next.rx = st.rx
  pulled : next.pulled = st.pulled
  delivered : next.delivered = st.delivered

theorem TaskEffect.tasksOnly {st next : Stream T} {a : TaskAction} (h : TaskEffect st a next) :
    TasksOnly st next := by
  cases h with
  | _ => exact ⟨rfl,rfl,rfl⟩

theorem setStream_cases (s : State T) (i j : Nat) (st : Stream T) :
    (j = i ∧ (s.setStream i st).streams j = st) ∨
      (j ≠ i ∧ (s.setStream i st).streams j = s.streams j) := by
  by_cases h : j = i
  · subst h
    exact .inl ⟨rfl,by simp [State.setStream]⟩
  · exact .inr ⟨h,by simp [State.setStream, Function.update_of_ne h]⟩

theorem setStream_forall {P : Nat → Stream T → Prop} {s : State T} {i : Nat} {st : Stream T}
    (h : ∀ j, P j (s.streams j)) (hst : P i st) (j : Nat) :
    P j ((s.setStream i st).streams j) := by
  rcases setStream_cases s i j st with ⟨rfl,heq⟩ | ⟨_,heq⟩
  · rw [heq]
    exact hst
  · rw [heq]
    exact h j

def Unborn (s : State T) : Prop := ∀ i, s.nextStream ≤ i → s.streams i = .absent

theorem unborn_setStream {s : State T} (h : Unborn s) {i : Nat} (st : Stream T)
    (ha : s.streams i ≠ .absent) : Unborn (s.setStream i st) := by
  intro j hj
  rcases setStream_cases s i j st with ⟨rfl,_⟩ | ⟨_,heq⟩
  · exact absurd (h j hj) ha
  · rw [heq]
    exact h j hj

theorem unborn_subscribe {s : State T} (h : Unborn s) : Unborn s.subscribeStream := by
  intro j hj
  rcases setStream_cases s s.nextStream j s.newStream with ⟨heq,_⟩ | ⟨_,heq⟩
  · exact absurd heq (Nat.ne_of_gt hj)
  · exact heq.trans (h j (Nat.le_of_succ_le hj))

theorem present_of_task {s : State T} {i : Nat} {exit : Bool} {a : TaskAction} {st : Stream T}
    (h : taskStep exit (s.streams i) a = some st) : s.streams i ≠ .absent := by
  intro heq
  rw [heq, taskStep_absent] at h
  cases h

theorem present_of_pump {s : State T} {i : Nat} (h : (s.streams i).pump = .running) :
    s.streams i ≠ .absent := by
  intro heq
  rw [heq] at h
  cases h

theorem present_of_cancelled {s : State T} {i : Nat} (h : (s.streams i).cancelled = true) :
    s.streams i ≠ .absent := by
  intro heq
  rw [heq] at h
  cases h

theorem present_of_serving {s : State T} {i : Nat} (h : (s.streams i).phase = .serving) :
    s.streams i ≠ .absent := by
  intro heq
  rw [heq] at h
  cases h

theorem unborn_effect {w : Wiring T} {s t : State T} {a : Action T} (h : Unborn s)
    (he : Effect w s a t) : Unborn t := by
  cases he with
  | subscribed => exact unborn_subscribe h
  | task i a st hst => exact unborn_setStream h st (present_of_task hst)
  | pumped i item hp => exact unborn_setStream h _ (present_of_pump hp)
  | ended i now hc => exact unborn_setStream h _ (present_of_cancelled hc)
  | delivered i now out rx hp hc hr ht => exact unborn_setStream h _ (present_of_serving hp)
  | lagged i n rx hp hl => exact unborn_setStream h _ (present_of_serving hp)
  | _ => exact h

end Streams

end InertiaRelayer.Blockengine
