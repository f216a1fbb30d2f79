import InertiaRelayer.Blockengine.Effects

namespace InertiaRelayer.Blockengine
open Broadcast Machine Proxy

section Isolation

variable {T : Type} {w : Wiring T} {s t : State T}

def Own (i : Nat) : Out T → Prop
  | .released _ sent => sent.stream = i
  | .inertia _ => True

structure Silent (st : Stream T) : Prop where
  pump : st.pump ≠ .running
  phase : st.phase ≠ .subscribing
  cancelled : st.phase = .serving → st.cancelled = true

structure Quiet (s : State T) : Prop where
  silent : ∀ i < s.nextStream, Silent (s.streams i)
  taken : unread s.inbound s.delayRx = []
  released : s.delay.queue = []

def SubscribesAlone (s : State T) : Action T → Prop
  | .subscribe => Quiet s
  | _ => True

structure Isolated (s : State T) : Prop where
  absent : Unborn s
  silent : ∀ i, i + 1 < s.nextStream → Silent (s.streams i)
  waiting : ∀ x ∈ unread s.inbound s.delayRx, x.stream + 1 = s.nextStream
  queued : ∀ x ∈ s.delay.queue, x.2.stream + 1 = s.nextStream
  ahead : ∀ i, i + 1 = s.nextStream → ∀ out ∈ unread s.outbound (s.streams i).rx, Own i out
  delivered : ∀ i, ∀ d ∈ (s.streams i).delivered, Own i d.out

instance (st : Stream T) : Decidable (Silent st) :=
  decidable_of_iff (st.pump ≠ .running ∧ st.phase ≠ .subscribing ∧
    (st.phase = .serving → st.cancelled = true))
    ⟨fun h => ⟨h.1,h.2.1,h.2.2⟩,fun h => ⟨h.pump,h.phase,h.cancelled⟩⟩

instance (s : State T) : Decidable (Quiet s) :=
  decidable_of_iff ((∀ i < s.nextStream, Silent (s.streams i)) ∧
    (unread s.inbound s.delayRx).isEmpty = true ∧ s.delay.queue.isEmpty = true)
    ⟨fun h => ⟨h.1,List.isEmpty_iff.mp h.2.1,List.isEmpty_iff.mp h.2.2⟩,
      fun h => ⟨h.silent,List.isEmpty_iff.mpr h.taken,List.isEmpty_iff.mpr h.released⟩⟩

instance (s : State T) : ∀ a, Decidable (SubscribesAlone s a)
  | .subscribe => inferInstanceAs (Decidable (Quiet s))
  | .exit | .watch | .task .. | .pumpItem .. | .poll .. | .lagged .. | .delay _ | .mirror _ =>
      .isTrue trivial

theorem current_of_active (h : Isolated s) {i : Nat} (hs : ¬ Silent (s.streams i))
    (ha : s.streams i ≠ .absent) : i + 1 = s.nextStream := by
  have hlt : i < s.nextStream := by
    by_contra hge
    exact ha (h.absent i (by omega))
  have hge : ¬ i + 1 < s.nextStream := fun hold => hs (h.silent i hold)
  omega

theorem silent_of_cancelled {st : Stream T} (hpump : st.pump ≠ .running)
    (hphase : st.phase ≠ .subscribing) (hc : st.cancelled = true) : Silent st :=
  ⟨hpump,hphase,fun _ => hc⟩

theorem silent_task {st next : Stream T} {a : TaskAction} (h : Silent st)
    (he : TaskEffect st a next) : Silent next := by
  cases he with
  | served a upstream hp => exact absurd hp h.phase
  | refused hp => exact absurd hp h.phase
  | dropped hp => exact silent_of_cancelled h.pump (fun hs => by cases hs) rfl
  | lost hp => exact absurd hp h.pump
  | stopped hp hc => exact absurd hp h.pump
  | exited hb => exact silent_of_cancelled h.pump h.phase rfl
  | bridged hb hc => exact silent_of_cancelled h.pump h.phase hc

theorem isolated_setStream (h : Isolated s) {i : Nat} (st : Stream T)
    (ha : s.streams i ≠ .absent) (hs : Silent (s.streams i) → Silent st)
    (hrx : unread s.outbound st.rx ⊆ unread s.outbound (s.streams i).rx)
    (hd : ∀ d ∈ st.delivered, Own i d.out) : Isolated (s.setStream i st) where
  absent := unborn_setStream h.absent st ha
  silent j hj := by
    rcases setStream_cases s i j st with ⟨rfl,heq⟩ | ⟨_,heq⟩
    · rw [heq]
      exact hs (h.silent j hj)
    · rw [heq]
      exact h.silent j hj
  waiting := h.waiting
  queued := h.queued
  ahead j hj out hout := by
    rcases setStream_cases s i j st with ⟨rfl,heq⟩ | ⟨_,heq⟩
    · rw [heq] at hout
      exact h.ahead j hj out (hrx hout)
    · rw [heq] at hout
      exact h.ahead j hj out hout
  delivered := setStream_forall (P := fun j st => ∀ d ∈ st.delivered, Own j d.out) h.delivered hd

theorem isolated_subscribe (h : Isolated s) (hq : Quiet s) : Isolated s.subscribeStream where
  absent := unborn_subscribe h.absent
  silent j hj := by
    have hlt : j < s.nextStream := Nat.lt_of_succ_lt_succ hj
    rcases setStream_cases s s.nextStream j s.newStream with ⟨heq,_⟩ | ⟨_,heq⟩
    · exact absurd heq (Nat.ne_of_lt hlt)
    · exact heq ▸ hq.silent j hlt
  waiting x hx := by
    rw [State.subscribeStream, State.setStream, hq.taken] at hx
    cases hx
  queued x hx := by
    rw [State.subscribeStream, State.setStream, hq.released] at hx
    cases hx
  ahead j hj out hout := by
    rcases setStream_cases s s.nextStream j s.newStream with ⟨_,heq⟩ | ⟨hne,_⟩
    · have hrx : (s.subscribeStream.streams j).rx = subscribe s.outbound :=
        congrArg Stream.rx heq
      rw [hrx] at hout
      rw [State.subscribeStream, State.setStream, unread_subscribe] at hout
      cases hout
    · exact absurd (Nat.succ.inj hj) hne
  delivered := setStream_forall (P := fun j st => ∀ d ∈ st.delivered, Own j d.out) h.delivered
    (fun d hd => by cases hd)

theorem isolated_pumped (h : Isolated s) {i : Nat} (item : T)
    (hp : (s.streams i).pump = .running) :
    Isolated { s.setStream i { s.streams i with pulled := (s.streams i).pulled ++ [item] } with
      inbound := s.inbound ++ [⟨i,(s.streams i).pulled.length,item⟩] } := by
  have ha := present_of_pump hp
  have hi : i + 1 = s.nextStream := current_of_active h (fun hs => hs.pump hp) ha
  have hset := isolated_setStream h { s.streams i with pulled := (s.streams i).pulled ++ [item] }
    ha (fun hs => ⟨hs.pump,hs.phase,hs.cancelled⟩) (fun _ hx => hx) (h.delivered i)
  refine ⟨hset.absent,hset.silent,fun x hx => ?_,hset.queued,hset.ahead,hset.delivered⟩
  rcases mem_unread_append hx with hx | hx
  · exact hset.waiting x hx
  · rw [List.mem_singleton.mp hx]
    exact hi

theorem isolated_outbound (h : Isolated s) (more : List (Out T))
    (hmore : ∀ i, i + 1 = s.nextStream → ∀ out ∈ more, Own i out) :
    Isolated { s with outbound := s.outbound ++ more } where
  absent := h.absent
  silent := h.silent
  waiting := h.waiting
  queued := h.queued
  ahead i hi out hout := by
    rcases mem_unread_append hout with hout | hout
    · exact h.ahead i hi out hout
    · exact hmore i hi out hout
  delivered := h.delivered

theorem isolated_delayed (h : Isolated s) {a : DelayAction}
    {b : DelayForward.Action FilterSet (Sent T)} {rx : Receiver}
    {d : DelayState FilterSet (Sent T)} (hf : Fed s a b rx)
    (hd : Forwards w s.delay b d) :
    Isolated { s with delay := d, delayRx := rx, outbound := s.outbound ++ forwarded s.delay d } := by
  have hwaiting : ∀ x ∈ unread s.inbound rx, x.stream + 1 = s.nextStream := by
    intro x hx
    cases hf with
    | item received y rx hr => exact h.waiting x (unread_recv_subset hr hx)
    | lagged n rx hl => exact h.waiting x (unread_lag_subset hl hx)
    | unfed a b ha hb => exact h.waiting x hx
  cases hd with
  | idle b d hb hsame =>
    rw [forwarded_nil hsame.popped, List.append_nil]
    refine ⟨h.absent,h.silent,hwaiting,?_,h.ahead,h.delivered⟩
    rw [hsame.queue]
    exact h.queued
  | received time x =>
    have hx : x.stream + 1 = s.nextStream := by
      cases hf with
      | item received y rx hr => exact h.waiting x (recv_mem_unread hr)
      | unfed a b ha hb => exact absurd rfl (hb time x)
    rw [forwarded_received, List.append_nil]
    refine ⟨h.absent,h.silent,hwaiting,fun y hy => ?_,h.ahead,h.delivered⟩
    rcases List.mem_append.mp hy with hy | hy
    · exact h.queued y hy
    · rw [List.mem_singleton.mp hy]
      exact hx
  | released env now due x rest hq =>
    have hall := h.queued
    rw [hq] at hall
    obtain ⟨hx,hrest⟩ := List.forall_mem_cons.mp hall
    rw [forwarded_released]
    have hout := isolated_outbound h [.released ⟨due,now,env,x⟩ (onSent w env x)] (by
      intro i hi out hout
      rw [List.mem_singleton.mp hout]
      exact Nat.succ.inj (hx.trans hi.symm))
    exact ⟨hout.absent,hout.silent,hwaiting,hrest,hout.ahead,hout.delivered⟩

theorem isolated_delivered (h : Isolated s) {i now : Nat} {out : Out T} {rx : Receiver}
    (hp : (s.streams i).phase = .serving) (hc : (s.streams i).cancelled = false)
    (hr : recv s.outbound (s.streams i).rx = some (out,rx)) :
    Isolated (s.setStream i { s.streams i with
      rx := rx
      delivered := (s.streams i).delivered ++ [⟨now,(s.streams i).rx.cursor,out⟩] }) := by
  have ha := present_of_serving hp
  have hi : i + 1 = s.nextStream :=
    current_of_active h (fun hs => by cases hc.symm.trans (hs.cancelled hp)) ha
  refine isolated_setStream h _ ha (fun hs => ⟨hs.pump,hs.phase,hs.cancelled⟩)
    (unread_recv_subset hr) (fun d hd => ?_)
  rcases List.mem_append.mp hd with hd | hd
  · exact h.delivered i d hd
  · rw [List.mem_singleton.mp hd]
    exact h.ahead i hi out (recv_mem_unread hr)

theorem isolated_step {a : Action T} (h : Isolated s) (halone : SubscribesAlone s a)
    (hstep : step w s a = some t) : Isolated t := by
  cases step_effect hstep with
  | exited => exact ⟨h.absent,h.silent,h.waiting,h.queued,h.ahead,h.delivered⟩
  | watched => exact ⟨h.absent,h.silent,h.waiting,h.queued,h.ahead,h.delivered⟩
  | subscribed => exact isolated_subscribe h halone
  | task i a st hst =>
    have he := taskStep_effect hst
    have htasks := he.tasksOnly
    refine isolated_setStream h st (present_of_task hst) (fun hs => silent_task hs he) ?_ ?_
    · rw [htasks.rx]
      exact fun _ hx => hx
    · rw [htasks.delivered]
      exact h.delivered i
  | pumped i item hp => exact isolated_pumped h item hp
  | ended i now hc =>
    exact isolated_setStream h _ (present_of_cancelled hc)
      (fun hs => ⟨hs.pump,hs.phase,hs.cancelled⟩) (fun _ hx => hx) (h.delivered i)
  | delivered i now out rx hp hc hr ht => exact isolated_delivered h hp hc hr
  | lagged i n rx hp hl =>
    exact isolated_setStream h _ (present_of_serving hp)
      (fun hs => ⟨hs.pump,hs.phase,hs.cancelled⟩) (unread_lag_subset hl) (h.delivered i)
  | delayed a b rx d hf hd => exact isolated_delayed h hf (forwards_step hd)
  | mirrored a c m out hc hm =>
    have hout := isolated_outbound h (out.map Out.inertia) (by
      intro i _ o ho
      obtain ⟨resp,_,rfl⟩ := List.mem_map.mp ho
      trivial)
    exact ⟨hout.absent,hout.silent,hout.waiting,hout.queued,hout.ahead,hout.delivered⟩

theorem isolated_init : Isolated (init : State T) where
  absent _ _ := rfl
  silent _ h := by cases h
  waiting _ h := by cases h
  queued _ h := by cases h
  ahead _ h := by cases h
  delivered _ _ h := by cases h

theorem delivered_own_of_subscribes_alone (w : Wiring T) (as : List (Action T)) (s : State T)
    (hrun : run (step w) init as = some s)
    (halone : Along (step w) SubscribesAlone init as) (i : Nat) :
    ∀ d ∈ (s.streams i).delivered, Own i d.out :=
  (run_invariant_along (fun _ _ _ => isolated_step) isolated_init halone hrun).delivered i

end Isolation

section SharedChannel

def packetsResponse : SubscribePacketsResponse := ⟨none,some ⟨[]⟩⟩

def delayedRelease : List (Action SubscribePacketsResponse) :=
  [.pumpItem 0 packetsResponse,.delay (.recv 0),.delay (.releaseDue packetDelay),
    .delay (.send .default),.delay .drained]

def deniedStream : List (Action SubscribePacketsResponse) :=
  [.subscribe,.task 0 .upstreamOk,.subscribe,.task 1 .upstreamDenied]

def released : Out SubscribePacketsResponse → Option Nat
  | .released _ sent => some sent.stream
  | .inertia _ => none

theorem denied_stream_gets_foreign_item :
    ∃ s, run (step packetWiring) init (deniedStream ++ delayedRelease ++ [.poll 1 packetDelay]) =
        some s ∧
      (s.streams 1).upstream = false ∧ ∃ d ∈ (s.streams 1).delivered, ¬ Own 1 d.out := by
  obtain ⟨s,hs,hd⟩ := exists_run_of_map (step packetWiring) init
    (deniedStream ++ delayedRelease ++ [.poll 1 packetDelay])
    (fun s => decide ((s.streams 1).upstream = false ∧
      (s.streams 1).delivered.map (fun d => released d.out) = [some 0])) (by decide +kernel)
  obtain ⟨hupstream,hd⟩ := of_decide_eq_true hd
  refine ⟨s,hs,hupstream,?_⟩
  have hmem : some 0 ∈ (s.streams 1).delivered.map (fun d => released d.out) := by
    rw [hd]
    exact List.mem_cons_self
  obtain ⟨d,hdm,hr⟩ := List.mem_map.mp hmem
  refine ⟨d,hdm,fun hown => ?_⟩
  cases hout : d.out with
  | released p sent =>
    rw [hout] at hr hown
    cases (Option.some.inj hr).symm.trans hown
  | inertia resp =>
    rw [hout] at hr
    cases hr

def nextStreamAlone : List (Action SubscribePacketsResponse) :=
  [.subscribe,.task 0 .upstreamOk] ++ delayedRelease ++
    [.poll 0 packetDelay,.task 0 .drop,.task 0 .pumpCancelled,.subscribe,.task 1 .upstreamOk,
      .pumpItem 1 packetsResponse,.delay (.recv packetDelay)]

theorem later_stream_isolated :
    ∃ s, run (step packetWiring) init nextStreamAlone = some s ∧
      (s.streams 0).delivered.map (fun d => released d.out) = [some 0] ∧
      ∀ i, ∀ d ∈ (s.streams i).delivered, Own i d.out := by
  obtain ⟨s,hs,hd⟩ := exists_run_of_map (step packetWiring) init nextStreamAlone
    (fun s => decide ((s.streams 0).delivered.map (fun d => released d.out) = [some 0]))
    (by decide +kernel)
  exact ⟨s,hs,of_decide_eq_true hd,
    delivered_own_of_subscribes_alone packetWiring nextStreamAlone s hs (by decide +kernel)⟩

end SharedChannel

end InertiaRelayer.Blockengine
