import InertiaRelayer.Blockengine.Effects
import InertiaRelayer.Proxy.BundleMirror
import InertiaRelayer.Proxy.DelayRefinement
import InertiaRelayer.Proxy.Readers

namespace InertiaRelayer.Blockengine
open Broadcast Machine Proxy

section Projections

variable {T : Type}

def Sent.fromStream (i : Nat) (x : Sent T) : Option (T × Nat) :=
  if x.stream = i then some (x.item,x.seq) else none

namespace Out

def popped : Out T → Option (Popped FilterSet (Sent T))
  | .released p _ => some p
  | .inertia _ => none

def fromUpstream (i : Nat) (out : Out T) : Option (T × Nat) :=
  out.popped.bind fun p => p.item.fromStream i

def fromInertia : Out T → Option T
  | .released _ _ => none
  | .inertia resp => some resp

end Out

theorem filterMap_fromUpstream (i : Nat) (outs : List (Out T)) :
    outs.filterMap (Out.fromUpstream i) =
      ((outs.filterMap Out.popped).map Popped.item).filterMap (Sent.fromStream i) := by
  rw [List.filterMap_map, List.filterMap_filterMap]
  rfl

theorem filterMap_popped_inertia (resps : List T) :
    (resps.map Out.inertia).filterMap Out.popped = [] := by
  rw [List.filterMap_map, List.filterMap_eq_nil_iff]
  exact fun _ _ => rfl

theorem filterMap_fromInertia_inertia (resps : List T) :
    (resps.map Out.inertia).filterMap Out.fromInertia = resps := by
  rw [List.filterMap_map]
  exact List.filterMap_some

end Projections

section Pumped

variable {T : Type} {w : Wiring T} {s t : State T} {a : Action T}

structure Pumped (s : State T) : Prop where
  unborn : Unborn s
  sent : ∀ i, s.inbound.filterMap (Sent.fromStream i) = (s.streams i).pulled.zipIdx

theorem sent_setStream (h : Pumped s) {i : Nat} {st : Stream T}
    (hst : st.pulled = (s.streams i).pulled) (j : Nat) :
    s.inbound.filterMap (Sent.fromStream j) = ((s.setStream i st).streams j).pulled.zipIdx := by
  refine setStream_forall (P := fun j st => s.inbound.filterMap (Sent.fromStream j) =
    st.pulled.zipIdx) h.sent ?_ j
  rw [hst]
  exact h.sent i

theorem sent_subscribe (h : Pumped s) (j : Nat) :
    s.inbound.filterMap (Sent.fromStream j) = (s.subscribeStream.streams j).pulled.zipIdx := by
  have hnew : s.newStream.pulled = (s.streams s.nextStream).pulled := by
    rw [h.unborn s.nextStream (Nat.le_refl _)]
    rfl
  exact sent_setStream h hnew j

theorem sent_pump (h : Pumped s) {i : Nat} {item : T} {st : Stream T}
    (hst : st.pulled = (s.streams i).pulled ++ [item]) (j : Nat) :
    (s.inbound ++ [Sent.mk i (s.streams i).pulled.length item]).filterMap (Sent.fromStream j) =
      ((s.setStream i st).streams j).pulled.zipIdx := by
  rw [List.filterMap_append, h.sent j]
  rcases setStream_cases s i j st with ⟨rfl,heq⟩ | ⟨hne,heq⟩
  · rw [heq, hst, List.zipIdx_append]
    simp [Sent.fromStream]
  · rw [heq]
    simp [Sent.fromStream, Ne.symm hne]

theorem pumped_step (h : Pumped s) (hstep : step w s a = some t) : Pumped t := by
  have he := step_effect hstep
  refine ⟨unborn_effect h.unborn he,?_⟩
  cases he with
  | subscribed => exact sent_subscribe h
  | task i a st hst => exact sent_setStream h (taskStep_effect hst).tasksOnly.pulled
  | pumped i item hp => exact sent_pump h rfl
  | ended i now hc => exact sent_setStream h rfl
  | delivered i now out rx hp hc hr ht => exact sent_setStream h rfl
  | lagged i n rx hp hl => exact sent_setStream h rfl
  | _ => exact h.sent

end Pumped

section Staged

variable {T : Type} {w : Wiring T} {s t : State T} {a : Action T}

structure Staged (w : Wiring T) (s : State T) : Prop where
  delay : Reachable (DelayForward.step packetDelay (onSent w)) DelayForward.init s.delay
  taken : ∃ taken, Follows s.inbound 0 s.delayRx taken ∧
    taken.map Prod.fst = s.delay.arrived.map Prod.snd

theorem taken_delayed (h : Staged w s) {a : DelayAction}
    {b : DelayForward.Action FilterSet (Sent T)} {rx : Receiver}
    {d : DelayState FilterSet (Sent T)} (hf : Fed s a b rx)
    (hd : DelayForward.step packetDelay (onSent w) s.delay b = some d) :
    ∃ taken, Follows s.inbound 0 rx taken ∧ taken.map Prod.fst = d.arrived.map Prod.snd := by
  obtain ⟨taken,hfollows,harrived⟩ := h.taken
  cases hf with
  | item received x rx hr =>
    cases forwards_step hd with
    | idle _ _ ha _ => exact absurd rfl (ha received x)
    | received t x =>
      refine ⟨taken ++ [(x,s.delayRx.cursor)],follows_recv hfollows hr,?_⟩
      simp [Loop.receive, harrived]
  | lagged n rx hl =>
    cases forwards_step hd with
    | idle _ _ _ hsame => exact ⟨taken,follows_skip hfollows (skips_lag hl),hsame.arrived ▸ harrived⟩
  | unfed _ _ _ hb =>
    cases forwards_step hd with
    | idle _ _ _ hsame => exact ⟨taken,hfollows,hsame.arrived ▸ harrived⟩
    | received t x => exact absurd rfl (hb t x)
    | released env now due x rest hq => exact ⟨taken,hfollows,harrived⟩

theorem staged_step (h : Staged w s) (hstep : step w s a = some t) : Staged w t := by
  cases step_effect hstep with
  | pumped i item hp =>
    obtain ⟨taken,hfollows,harrived⟩ := h.taken
    exact ⟨h.delay,taken,follows_send hfollows _,harrived⟩
  | delayed a b rx d hf hd =>
    obtain ⟨as,hrun⟩ := h.delay
    exact ⟨⟨as ++ [b],run_concat hrun hd⟩,taken_delayed h hf hd⟩
  | _ => exact ⟨h.delay,h.taken⟩

theorem Staged.conforms (h : Staged w s) : Conforms packetDelay (onSent w) s.delay.arrived
    (s.delay.popped.map Popped.env) s.delay := by
  obtain ⟨as,hrun⟩ := h.delay
  have hconforms := (forward_delaysThrough packetDelay (onSent w) as s.delay hrun).2.1
  rwa [← hconforms.arrived, ← hconforms.hooked] at hconforms

theorem popped_sublist (h : Staged w s) : (s.delay.popped.map Popped.item).Sublist s.inbound := by
  obtain ⟨taken,hfollows,harrived⟩ := h.taken
  have hreceived := received_sublist hfollows
  rw [harrived, h.conforms.received] at hreceived
  exact (List.sublist_append_left _ _).trans hreceived

theorem received_of_popped (h : Staged w s) {p : Popped FilterSet (Sent T)}
    (hp : p ∈ s.delay.popped) :
    ∃ received, (received,p.item) ∈ s.delay.arrived ∧ received + packetDelay ≤ p.time := by
  have hdue : (p.due,p.item) ∈ s.delay.arrived.map fun a => (a.1 + packetDelay,a.2) := by
    rw [h.conforms.delayed]
    exact List.mem_append_left _ (List.mem_map.mpr ⟨p,hp,rfl⟩)
  obtain ⟨⟨received,x⟩,harrived,heq⟩ := List.mem_map.mp hdue
  obtain ⟨hd,rfl⟩ := Prod.mk.inj heq
  exact ⟨received,harrived,hd ▸ h.conforms.timely p hp⟩

end Staged

section Emitted

variable {T : Type} {w : Wiring T} {s t : State T} {a : Action T}

structure Emitted (w : Wiring T) (s : State T) : Prop where
  popped : s.outbound.filterMap Out.popped = s.delay.popped
  filtered : ∀ p x, .released p x ∈ s.outbound → x = onSent w p.env p.item
  inertia : s.outbound.filterMap Out.fromInertia = s.mirror.delivered.map Mirror.Delivery.resp

theorem emitted_forward (h : Emitted w s) {b : DelayForward.Action FilterSet (Sent T)}
    {rx : Receiver} {d : DelayState FilterSet (Sent T)}
    (hd : DelayForward.step packetDelay (onSent w) s.delay b = some d) :
    Emitted w { s with
      delay := d, delayRx := rx, outbound := s.outbound ++ forwarded s.delay d } := by
  cases forwards_step hd with
  | idle _ _ _ hsame =>
    rw [forwarded_nil hsame.popped, List.append_nil]
    exact ⟨h.popped.trans hsame.popped.symm,h.filtered,h.inertia⟩
  | received t x =>
    rw [forwarded_received, List.append_nil]
    exact ⟨h.popped,h.filtered,h.inertia⟩
  | released env now due x rest hq =>
    rw [forwarded_released]
    refine ⟨?_,?_,?_⟩
    · rw [List.filterMap_append, h.popped]
      rfl
    · intro p y hmem
      rcases List.mem_append.mp hmem with hmem | hmem
      · exact h.filtered p y hmem
      · obtain ⟨rfl,rfl⟩ := Out.released.inj (List.mem_singleton.mp hmem)
        rfl
    · rw [List.filterMap_append, h.inertia]
      exact List.append_nil _

theorem emitted_mirror (h : Emitted w s) {c : Mirror.Codec T} {a : Mirror.Action}
    {m : Mirror.State T} {out : List T}
    (hm : Mirror.step c s.shutdown (s.inbound.map Sent.item) s.mirror a = some (m,out)) :
    Emitted w { s with mirror := m, outbound := s.outbound ++ out.map Out.inertia } where
  popped := by
    rw [List.filterMap_append, filterMap_popped_inertia, List.append_nil]
    exact h.popped
  filtered p x hmem := by
    rcases List.mem_append.mp hmem with hmem | hmem
    · exact h.filtered p x hmem
    · obtain ⟨_,_,heq⟩ := List.mem_map.mp hmem
      cases heq
  inertia := by
    rw [List.filterMap_append, filterMap_fromInertia_inertia, h.inertia]
    exact (Mirror.step_delivered hm).symm

theorem emitted_step (h : Emitted w s) (hstep : step w s a = some t) : Emitted w t := by
  cases step_effect hstep with
  | delayed a b rx d hf hd => exact emitted_forward h hd
  | mirrored a c m out hc hm => exact emitted_mirror h hm
  | _ => exact ⟨h.popped,h.filtered,h.inertia⟩

theorem Emitted.mem_popped (h : Emitted w s) {out : Out T} {p : Popped FilterSet (Sent T)}
    (hmem : out ∈ s.outbound) (hp : out.popped = some p) : p ∈ s.delay.popped := by
  rw [← h.popped]
  exact List.mem_filterMap.mpr ⟨out,hmem,hp⟩

end Emitted

section Followed

variable {T : Type} {w : Wiring T} {s t : State T} {a : Action T}

structure StreamFollows (outbound : List (Out T)) (st : Stream T) : Prop where
  follows : ∃ start, Follows outbound start st.rx (st.delivered.map fun d => (d.out,d.index))
  timely : ∀ d ∈ st.delivered, ∀ p, d.out.popped = some p → p.time ≤ d.time

def Followed (s : State T) : Prop := ∀ i, StreamFollows s.outbound (s.streams i)

theorem followed_send (h : Followed s) (more : List (Out T)) (i : Nat) :
    StreamFollows (s.outbound ++ more) (s.streams i) := by
  obtain ⟨start,hf⟩ := (h i).follows
  exact ⟨⟨start,follows_send hf more⟩,(h i).timely⟩

theorem followed_setStream (h : Followed s) {i : Nat} {st : Stream T}
    (hst : StreamFollows s.outbound st) : Followed (s.setStream i st) :=
  setStream_forall (P := fun _ st => StreamFollows s.outbound st) h hst

theorem streamFollows_subscribe (s : State T) : StreamFollows s.outbound s.newStream :=
  ⟨⟨_,follows_subscribe s.outbound⟩,fun _ hd => by cases hd⟩

theorem streamFollows_tasks {outbound : List (Out T)} {st next : Stream T}
    (h : StreamFollows outbound st) (ht : TasksOnly st next) : StreamFollows outbound next where
  follows := by
    rw [ht.rx, ht.delivered]
    exact h.follows
  timely := by
    rw [ht.delivered]
    exact h.timely

theorem streamFollows_recv {outbound : List (Out T)} {st : Stream T} {out : Out T} {rx : Receiver}
    {now : Nat} (h : StreamFollows outbound st) (hr : recv outbound st.rx = some (out,rx))
    (ht : ∀ p, out.popped = some p → p.time ≤ now) :
    StreamFollows outbound { st with
      rx := rx
      delivered := st.delivered ++ [⟨now,st.rx.cursor,out⟩] } where
  follows := by
    obtain ⟨start,hf⟩ := h.follows
    refine ⟨start,?_⟩
    rw [List.map_append]
    exact follows_recv hf hr
  timely d hd := by
    rcases List.mem_append.mp hd with hd | hd
    · exact h.timely d hd
    · rw [List.mem_singleton.mp hd]
      exact ht

theorem followed_step (h : Followed s) (hpast : ∀ out ∈ s.outbound, ∀ p, out.popped = some p →
    p.time ≤ s.delay.clock) (hstep : step w s a = some t) : Followed t := by
  cases step_effect hstep with
  | subscribed => exact followed_setStream h (streamFollows_subscribe s)
  | task i a st hst =>
    exact followed_setStream h (streamFollows_tasks (h i) (taskStep_effect hst).tasksOnly)
  | pumped i item hp => exact followed_setStream h ⟨(h i).follows,(h i).timely⟩
  | ended i now hc => exact followed_setStream h ⟨(h i).follows,(h i).timely⟩
  | delivered i now out rx hp hc hr ht =>
    have hmem : out ∈ s.outbound := List.mem_of_getElem? (recv_some hr).1
    exact followed_setStream h
      (streamFollows_recv (h i) hr fun p hp => (hpast out hmem p hp).trans ht)
  | lagged i n rx hp hl =>
    obtain ⟨start,hf⟩ := (h i).follows
    exact followed_setStream h ⟨⟨start,follows_skip hf (skips_lag hl)⟩,(h i).timely⟩
  | delayed a b rx d hf hd => exact followed_send h _
  | mirrored a c m out hc hm => exact followed_send h _
  | _ => exact h

theorem delivered_sublist (h : Followed s) (j : Nat) :
    ((s.streams j).delivered.map Delivered.out).Sublist s.outbound := by
  obtain ⟨start,hf⟩ := (h j).follows
  have hsub := received_sublist hf
  rwa [List.map_map] at hsub

end Followed

section Linked

variable {T : Type} {w : Wiring T} {s t : State T} {a : Action T}

structure Linked (w : Wiring T) (s : State T) : Prop where
  mirrored : ∀ c, w.codec = some c → Mirror.Mirrored c 0 (s.inbound.map Sent.item) s.mirror
  decoding : ∀ c, w.codec = some c → Mirror.Decoding c s.mirror
  silent : w.codec = none → s.mirror.delivered = []

theorem linked_step (h : Linked w s) (hstep : step w s a = some t) : Linked w t := by
  cases step_effect hstep with
  | pumped i item hp =>
    refine ⟨fun c hc => ?_,h.decoding,h.silent⟩
    rw [List.map_append]
    exact Mirror.mirrored_send (h.mirrored c hc) _
  | mirrored a c m out hc hm =>
    refine ⟨fun c' hc' => ?_,fun c' hc' => ?_,fun hn => by cases hc.symm.trans hn⟩
    · obtain rfl := Option.some.inj (hc.symm.trans hc')
      exact Mirror.mirrored_step (h.mirrored c hc) hm
    · obtain rfl := Option.some.inj (hc.symm.trans hc')
      exact Mirror.decoding_step (h.decoding c hc) hm
  | _ => exact ⟨h.mirrored,h.decoding,h.silent⟩

theorem inertia_decoded (hl : Linked w s) (he : Emitted w s) {resp : T}
    (h : .inertia resp ∈ s.outbound) :
    ∃ c, w.codec = some c ∧ ∃ r ∈ s.mirror.readers, resp ∈ Mirror.readBundleStream c r.arrived := by
  have hmem : resp ∈ s.mirror.delivered.map Mirror.Delivery.resp := by
    rw [← he.inertia]
    exact List.mem_filterMap.mpr ⟨_,h,rfl⟩
  obtain ⟨d,hd,rfl⟩ := List.mem_map.mp hmem
  cases hc : w.codec with
  | none =>
    rw [hl.silent hc] at hd
    cases hd
  | some c =>
    obtain ⟨r,hr,_,hresp⟩ := Mirror.delivered_decoded (hl.decoding c hc) hd
    exact ⟨c,rfl,r,List.mem_of_getElem? hr,hresp⟩

end Linked

section Pipeline

variable {T : Type} {w : Wiring T} {s t : State T} {a : Action T}

structure Pipeline (w : Wiring T) (s : State T) : Prop where
  pumped : Pumped s
  staged : Staged w s
  emitted : Emitted w s
  followed : Followed s
  linked : Linked w s

theorem pipeline_init (w : Wiring T) : Pipeline w init where
  pumped := ⟨fun _ _ => rfl,fun _ => rfl⟩
  staged := ⟨⟨[],rfl⟩,[],follows_subscribe [],rfl⟩
  emitted := ⟨rfl,fun _ _ h => (List.not_mem_nil h).elim,rfl⟩
  followed _ := ⟨⟨0,follows_subscribe []⟩,fun _ hd => by cases hd⟩
  linked := ⟨fun _ _ => Mirror.mirrored_init [],fun _ _ => Mirror.decoding_init _,fun _ => rfl⟩

theorem Pipeline.past (h : Pipeline w s) : ∀ out ∈ s.outbound, ∀ p, out.popped = some p →
    p.time ≤ s.delay.clock :=
  fun _ hmem p hp => forward_popped_past h.staged.delay p (h.emitted.mem_popped hmem hp)

theorem pipeline_step (h : Pipeline w s) (hstep : step w s a = some t) : Pipeline w t where
  pumped := pumped_step h.pumped hstep
  staged := staged_step h.staged hstep
  emitted := emitted_step h.emitted hstep
  followed := followed_step h.followed h.past hstep
  linked := linked_step h.linked hstep

theorem pipeline_run {as : List (Action T)} (hrun : run (step w) init as = some s) :
    Pipeline w s :=
  run_invariant (fun _ _ _ => pipeline_step) (pipeline_init w) hrun

def pulledBy : Action T → List (Nat × T)
  | .pumpItem i item => [(i,item)]
  | _ => []

def receivedBy : Action T → List Nat
  | .delay (.recv received) => [received]
  | _ => []

def Polled (past : List (Action T)) (s : State T) : Prop :=
  ∀ j, ∀ d ∈ (s.streams j).delivered, .poll j d.time ∈ past

theorem inbound_pulled (hstep : step w s a = some t) :
    t.inbound.map (fun x => (x.stream,x.item)) =
      s.inbound.map (fun x => (x.stream,x.item)) ++ pulledBy a := by
  cases step_effect hstep with
  | pumped i item hp => exact List.map_append
  | _ => exact (List.append_nil _).symm

theorem receivedBy_unfed {a : DelayAction} (ha : ∀ received, a ≠ .recv received) :
    receivedBy (.delay a : Action T) = [] := by
  cases a with
  | recv received => exact absurd rfl (ha received)
  | _ => rfl

theorem arrivedBy_unfed {b : DelayForward.Action FilterSet (Sent T)}
    (hb : ∀ received x, b ≠ .recvOk received x) : DelayForward.arrivedBy b = [] := by
  cases b with
  | recvOk received x => exact absurd rfl (hb received x)
  | _ => rfl

theorem arrived_received (hstep : step w s a = some t) :
    t.delay.arrived.map Prod.fst = s.delay.arrived.map Prod.fst ++ receivedBy a := by
  cases step_effect hstep with
  | delayed a b rx d hf hd =>
    cases hf with
    | item received x rx hr =>
      rw [effect_arrived (forward_effect hd)]
      exact List.map_append
    | lagged n rx hl =>
      rw [effect_arrived (forward_effect hd)]
      exact List.map_append
    | unfed a b ha hb =>
      rw [effect_arrived (forward_effect hd), arrivedBy_unfed hb, receivedBy_unfed ha,
        List.append_nil, List.append_nil]
  | _ => exact (List.append_nil _).symm

theorem polled_init : Polled [] (init : State T) := by
  intro j d hd
  cases hd

theorem polled_setStream {past : List (Action T)} (h : Polled past s) (a : Action T) {i : Nat}
    {st : Stream T} (hst : ∀ d ∈ st.delivered, .poll i d.time ∈ past ++ [a]) :
    Polled (past ++ [a]) (s.setStream i st) :=
  setStream_forall (P := fun j st => ∀ d ∈ st.delivered, Action.poll j d.time ∈ past ++ [a])
    (fun j d hd => List.mem_append_left _ (h j d hd)) hst

theorem polled_step {past : List (Action T)} (h : Polled past s) (hstep : step w s a = some t) :
    Polled (past ++ [a]) t := by
  have hkept : Polled (past ++ [a]) s := fun j d hd => List.mem_append_left _ (h j d hd)
  cases step_effect hstep with
  | subscribed => exact polled_setStream h _ nofun
  | task i a st hst =>
    refine polled_setStream h _ ?_
    rw [(taskStep_effect hst).tasksOnly.delivered]
    exact hkept i
  | pumped i item hp => exact polled_setStream h _ (hkept i)
  | ended i now hc => exact polled_setStream h _ (hkept i)
  | delivered i now out rx hp hc hr ht =>
    refine polled_setStream h _ (fun d hd => ?_)
    rcases List.mem_append.mp hd with hd | hd
    · exact hkept i d hd
    · rw [List.mem_singleton.mp hd]
      exact List.mem_append_right _ (List.mem_singleton.mpr rfl)
  | lagged i n rx hp hl => exact polled_setStream h _ (hkept i)
  | _ => exact hkept

structure PipelineSpec (onRelease : FilterSet → T → T) (codec : Option (Mirror.Codec T))
    (as : List (Action T)) (s : State T) : Prop where
  ordered : ∀ i j, ((s.streams j).delivered.filterMap fun d => d.out.fromUpstream i).Sublist
    (s.streams i).pulled.zipIdx
  filtered : ∀ j, ∀ d ∈ (s.streams j).delivered, ∀ p x, d.out = .released p x →
    x = ⟨p.item.stream,p.item.seq,onRelease p.env p.item.item⟩ ∧
      ∃ received, (received,p.item) ∈ s.delay.arrived ∧ received + packetDelay ≤ d.time
  decoded : ∀ j, ∀ d ∈ (s.streams j).delivered, ∀ resp, d.out = .inertia resp →
    ∃ c, codec = some c ∧ ∃ r ∈ s.mirror.readers, resp ∈ Mirror.readBundleStream c r.arrived
  pumped : ∀ i, s.inbound.filterMap (Sent.fromStream i) = (s.streams i).pulled.zipIdx
  mirrored : ∀ c, codec = some c → (∀ send ∈ s.mirror.sendStreams, Mirror.Framed c send) ∧
    ∀ x ∈ s.mirror.started, (s.inbound.map Sent.item)[x.2]? = some x.1
  pulled : s.inbound.map (fun x => (x.stream,x.item)) = as.flatMap pulledBy
  received : s.delay.arrived.map Prod.fst = as.flatMap receivedBy
  polled : ∀ j, ∀ d ∈ (s.streams j).delivered, .poll j d.time ∈ as

theorem Pipeline.ordered (h : Pipeline w s) (i j : Nat) :
    ((s.streams j).delivered.filterMap fun d => d.out.fromUpstream i).Sublist
      (s.streams i).pulled.zipIdx := by
  have hpopped : (((s.streams j).delivered.map Delivered.out).filterMap Out.popped).Sublist
      s.delay.popped := by
    rw [← h.emitted.popped]
    exact (delivered_sublist h.followed j).filterMap _
  have hitems := (hpopped.map Popped.item).trans (popped_sublist h.staged)
  have hstream := hitems.filterMap (Sent.fromStream i)
  rw [h.pumped.sent i, ← filterMap_fromUpstream, List.filterMap_map] at hstream
  exact hstream

theorem Pipeline.mem_outbound (h : Pipeline w s) {j : Nat} {d : Delivered T}
    (hd : d ∈ (s.streams j).delivered) : d.out ∈ s.outbound :=
  (delivered_sublist h.followed j).subset (List.mem_map.mpr ⟨d,hd,rfl⟩)

theorem Pipeline.filtered (h : Pipeline w s) {j : Nat} {d : Delivered T}
    (hd : d ∈ (s.streams j).delivered) {p : Popped FilterSet (Sent T)} {x : Sent T}
    (hout : d.out = .released p x) : x = onSent w p.env p.item ∧
      ∃ received, (received,p.item) ∈ s.delay.arrived ∧ received + packetDelay ≤ d.time := by
  have hmem := h.mem_outbound hd
  have hp : d.out.popped = some p := by rw [hout]; rfl
  obtain ⟨received,harrived,hle⟩ := received_of_popped h.staged (h.emitted.mem_popped hmem hp)
  refine ⟨h.emitted.filtered p x (hout ▸ hmem),received,harrived,?_⟩
  exact hle.trans ((h.followed j).timely d hd p hp)

theorem pipeline_spec {as : List (Action T)} (hrun : run (step w) init as = some s) :
    PipelineSpec w.onRelease w.codec as s := by
  have h := pipeline_run hrun
  refine ⟨h.ordered,fun _ _ hd _ _ hout => h.filtered hd hout,fun _ _ hd _ hout =>
    inertia_decoded h.linked h.emitted (hout ▸ h.mem_outbound hd),h.pumped.sent,fun c hc =>
    ⟨(h.linked.mirrored c hc).framed,fun _ hx => taken_mem (h.linked.mirrored c hc).follows hx⟩,
    ?_,?_,?_⟩
  · exact log_of_actions (fun s => s.inbound.map fun x => (x.stream,x.item))
      (fun _ _ _ => inbound_pulled) hrun
  · exact log_of_actions (fun s => s.delay.arrived.map Prod.fst) (fun _ _ _ => arrived_received) hrun
  · exact run_history (I := Polled) (fun _ _ _ _ => polled_step) polled_init hrun

theorem block_engine_pipeline :
    (∀ as s, run (step packetWiring) init as = some s → PipelineSpec filterBePackets none as s) ∧
      ∀ c as s, run (step (bundleWiring c)) init as = some s →
        PipelineSpec filterBeBundles (some c) as s :=
  ⟨fun _ _ hrun => pipeline_spec hrun,fun _ _ _ hrun => pipeline_spec hrun⟩

end Pipeline

section BothProducers

variable {T : Type}

def emptyBundles : SubscribeBundlesResponse := ⟨[]⟩

def emptyCodec : Mirror.Codec SubscribeBundlesResponse where
  encode resp := if resp = emptyBundles then some [] else none
  decode _ := some emptyBundles
  decode_encode resp buf h := by
    split at h
    · rename_i heq
      rw [heq]
    · cases h

def withheldBundle : BundleUuid := ⟨some ⟨none,[otherPacket,blockedPacket]⟩,"withheld"⟩

def keptBundle : BundleUuid := ⟨some ⟨none,[otherPacket]⟩,"kept"⟩

def Out.sentItem : Out T → Option T
  | .released _ x => some x.item
  | .inertia _ => none

def upstreamAndInertia : List (Action SubscribeBundlesResponse) :=
  [.subscribe,.task 0 .upstreamOk,.pumpItem 0 ⟨[withheldBundle,keptBundle]⟩,.delay (.recv 0),
    .mirror (.run .endpointOk),.mirror (.run .loopCheck),.mirror (.run .connectOk),
    .mirror .acceptUni,.mirror (.reader 0 .check),.mirror (.reader 0 (.arrive [0,0,0,0])),
    .mirror (.reader 0 .frame),.delay (.releaseDue packetDelay),.delay (.send oneFilter),
    .delay .drained,.poll 0 packetDelay,.poll 0 packetDelay]

def upstreamPackets : List (Action SubscribePacketsResponse) :=
  [.subscribe,.task 0 .upstreamOk,.pumpItem 0 Proxy.packetsResponse,.delay (.recv 0),
    .delay (.releaseDue packetDelay),.delay (.send oneFilter),.delay .drained,.poll 0 packetDelay]

theorem both_producers_delivered :
    (∃ s, run (step (bundleWiring emptyCodec)) init upstreamAndInertia = some s ∧
      (s.streams 0).delivered.filterMap (fun d => d.out.fromInertia) = [emptyBundles] ∧
      (s.streams 0).delivered.filterMap (fun d => d.out.sentItem) = [⟨[keptBundle]⟩] ∧
      PipelineSpec filterBeBundles (some emptyCodec) upstreamAndInertia s) ∧
    ∃ s, run (step packetWiring) init upstreamPackets = some s ∧
      (s.streams 0).delivered.filterMap (fun d => d.out.sentItem) =
        [⟨none,some ⟨[otherPacket]⟩⟩] ∧
      PipelineSpec filterBePackets none upstreamPackets s := by
  constructor
  · obtain ⟨s,hs,hd⟩ := exists_run_of_map (step (bundleWiring emptyCodec)) init upstreamAndInertia
      (fun s => decide (
        (s.streams 0).delivered.filterMap (fun d => d.out.fromInertia) = [emptyBundles] ∧
        (s.streams 0).delivered.filterMap (fun d => d.out.sentItem) = [⟨[keptBundle]⟩]))
      (by decide +kernel)
    obtain ⟨hinertia,hsent⟩ := of_decide_eq_true hd
    exact ⟨s,hs,hinertia,hsent,block_engine_pipeline.2 emptyCodec upstreamAndInertia s hs⟩
  · obtain ⟨s,hs,hd⟩ := exists_run_of_map (step packetWiring) init upstreamPackets
      (fun s => decide ((s.streams 0).delivered.filterMap (fun d => d.out.sentItem) =
        [⟨none,some ⟨[otherPacket]⟩⟩])) (by decide +kernel)
    exact ⟨s,hs,of_decide_eq_true hd,block_engine_pipeline.1 upstreamPackets s hs⟩

end BothProducers

end InertiaRelayer.Blockengine
