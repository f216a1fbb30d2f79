import InertiaRelayer.Blockengine.Pipeline

namespace InertiaRelayer.Blockengine
open Broadcast Machine Proxy

section Transit

variable {T : Type} {w : Wiring T} {s t : State T} {a : Action T} {u j : Nat}

def queuedFrom (u : Nat) (s : State T) : List (T × Nat) :=
  (s.delay.queue.map Prod.snd).filterMap (Sent.fromStream u)

def inTransit (u j : Nat) (s : State T) : List (T × Nat) :=
  (unread s.outbound (s.streams j).rx).filterMap (Out.fromUpstream u) ++
    (queuedFrom u s ++ (unread s.inbound s.delayRx).filterMap (Sent.fromStream u))

def deliveredFrom (u j : Nat) (s : State T) : List (T × Nat) :=
  (s.streams j).delivered.filterMap fun d => d.out.fromUpstream u

def Passed (u j : Nat) (s t : State T) : Prop :=
  ∃ items pumped, deliveredFrom u j t = deliveredFrom u j s ++ items ∧
    (t.streams u).pulled.zipIdx = (s.streams u).pulled.zipIdx ++ pumped ∧
    items ++ inTransit u j t = inTransit u j s ++ pumped

def NoLag (j : Nat) (_ : State T) : Action T → Prop
  | .lagged i _ => i ≠ j
  | .delay (.lagged _) => False
  | _ => True

instance (j : Nat) (s : State T) : ∀ a, Decidable (NoLag j s a)
  | .lagged i _ => inferInstanceAs (Decidable (i ≠ j))
  | .delay (.lagged _) => .isFalse id
  | .delay (.recv _) | .delay .shutdown | .delay (.releaseDue _) | .delay (.send _)
  | .delay .drained | .delay .closed | .exit | .watch | .subscribe | .task .. | .pumpItem ..
  | .poll .. | .mirror _ => .isTrue trivial

theorem passed_refl (u j : Nat) (s : State T) : Passed u j s s :=
  ⟨[],[],by simp,by simp,by simp⟩

theorem passed_trans {v : State T} (hst : Passed u j s t) (htv : Passed u j t v) :
    Passed u j s v := by
  obtain ⟨items,pumped,hd,hp,hflow⟩ := hst
  obtain ⟨items',pumped',hd',hp',hflow'⟩ := htv
  refine ⟨items ++ items',pumped ++ pumped',?_,?_,?_⟩
  · rw [hd', hd, List.append_assoc]
  · rw [hp', hp, List.append_assoc]
  · rw [List.append_assoc, hflow', ← List.append_assoc, hflow, List.append_assoc]

theorem passed_kept (hd : (t.streams j).delivered = (s.streams j).delivered)
    (hp : (t.streams u).pulled = (s.streams u).pulled)
    (ht : inTransit u j t = inTransit u j s) : Passed u j s t :=
  ⟨[],[],by rw [deliveredFrom, hd, List.append_nil, deliveredFrom],by rw [hp, List.append_nil],
    by rw [ht, List.append_nil, List.nil_append]⟩

theorem stream_frame {γ : Type} {i : Nat} (f : Stream T → γ) (st : Stream T)
    (h : f st = f (s.streams i)) (k : Nat) : f ((s.setStream i st).streams k) = f (s.streams k) :=
  setStream_forall (P := fun k next => f next = f (s.streams k)) (fun _ => rfl) h k

theorem inTransit_kept (hrx : (t.streams j).rx = (s.streams j).rx) (hout : t.outbound = s.outbound)
    (hin : t.inbound = s.inbound) (hd : t.delay = s.delay) (hdrx : t.delayRx = s.delayRx) :
    inTransit u j t = inTransit u j s := by
  rw [inTransit, inTransit, queuedFrom, queuedFrom, hrx, hout, hin, hd, hdrx]

theorem passed_tasks {i : Nat} {st : Stream T} (h : TasksOnly (s.streams i) st) :
    Passed u j s (s.setStream i st) :=
  passed_kept (stream_frame Stream.delivered st h.delivered j) (stream_frame Stream.pulled st h.pulled u)
    (inTransit_kept (stream_frame Stream.rx st h.rx j) rfl rfl rfl rfl)

theorem passed_subscribe (hunborn : Unborn s) (hj : j ≠ s.nextStream) :
    Passed u j s s.subscribeStream := by
  have hstream : s.subscribeStream.streams j = s.streams j := Function.update_of_ne hj _ _
  refine passed_kept (by rw [hstream]) ?_ (inTransit_kept (by rw [hstream]) rfl rfl rfl rfl)
  by_cases hu : u = s.nextStream
  · have hnew : s.subscribeStream.streams u = s.newStream := by
      subst hu
      exact Function.update_self ..
    rw [hnew, hunborn u (Nat.le_of_eq hu.symm)]
    rfl
  · rw [show s.subscribeStream.streams u = s.streams u from Function.update_of_ne hu _ _]

theorem delayRx_le (h : Staged w s) : s.delayRx.cursor ≤ s.inbound.length := by
  obtain ⟨_,hfollows,_⟩ := h.taken
  exact hfollows.cursor_le

theorem rx_le (h : Followed s) (j : Nat) : (s.streams j).rx.cursor ≤ s.outbound.length := by
  obtain ⟨_,hfollows⟩ := (h j).follows
  exact hfollows.cursor_le

theorem passed_pumped (h : Staged w s) (i : Nat) (item : T) :
    Passed u j s { s.setStream i { s.streams i with pulled := (s.streams i).pulled ++ [item] } with
      inbound := s.inbound ++ [⟨i,(s.streams i).pulled.length,item⟩] } := by
  have hdelivered := stream_frame Stream.delivered
    { s.streams i with pulled := (s.streams i).pulled ++ [item] } rfl j
  have hrx := stream_frame Stream.rx
    { s.streams i with pulled := (s.streams i).pulled ++ [item] } rfl j
  have hnew : [Sent.mk i (s.streams i).pulled.length item].filterMap (Sent.fromStream u) =
      if i = u then [(item,(s.streams i).pulled.length)] else [] := by
    by_cases hi : i = u
    · simp [Sent.fromStream, hi]
    · simp [Sent.fromStream, hi]
  refine ⟨[],if i = u then [(item,(s.streams i).pulled.length)] else [],?_,?_,?_⟩
  · rw [List.append_nil, deliveredFrom, deliveredFrom, ← hdelivered]
  · rcases setStream_cases s i u { s.streams i with pulled := (s.streams i).pulled ++ [item] } with
      ⟨rfl,heq⟩ | ⟨hne,heq⟩
    · rw [heq]
      simp [List.zipIdx_append]
    · rw [heq]
      simp [Ne.symm hne]
  · have hunread : (unread (s.inbound ++ [Sent.mk i (s.streams i).pulled.length item])
        s.delayRx).filterMap (Sent.fromStream u) =
          (unread s.inbound s.delayRx).filterMap (Sent.fromStream u) ++
            if i = u then [(item,(s.streams i).pulled.length)] else [] := by
      rw [unread_send (delayRx_le h), List.filterMap_append, hnew]
    rw [List.nil_append, inTransit, inTransit, hrx, List.append_assoc, List.append_assoc, ← hunread]
    rfl

theorem passed_delivered {i now : Nat} {out : Out T} {rx : Receiver}
    (hr : recv s.outbound (s.streams i).rx = some (out,rx)) :
    Passed u j s (s.setStream i { s.streams i with
      rx := rx
      delivered := (s.streams i).delivered ++ [⟨now,(s.streams i).rx.cursor,out⟩] }) := by
  have hpulled := stream_frame Stream.pulled { s.streams i with
    rx := rx
    delivered := (s.streams i).delivered ++ [⟨now,(s.streams i).rx.cursor,out⟩] } rfl u
  rcases setStream_cases s i j { s.streams i with
    rx := rx
    delivered := (s.streams i).delivered ++ [⟨now,(s.streams i).rx.cursor,out⟩] } with
    ⟨rfl,heq⟩ | ⟨_,heq⟩
  · refine ⟨(out.fromUpstream u).toList,[],?_,by rw [hpulled, List.append_nil],?_⟩
    · rw [deliveredFrom, heq, List.filterMap_append, deliveredFrom]
      cases hu : out.fromUpstream u with
      | none => simp [hu]
      | some x => simp [hu]
    · simp only [inTransit, queuedFrom]
      rw [heq, List.append_nil, unread_recv hr]
      cases hu : out.fromUpstream u with
      | none => simp [hu, State.setStream]
      | some x => simp [hu, State.setStream]
  · exact passed_kept (by rw [heq]) hpulled (inTransit_kept (by rw [heq]) rfl rfl rfl rfl)

theorem fromUpstream_released (u : Nat) (p : Popped FilterSet (Sent T)) (x : Sent T) :
    (Out.released p x).fromUpstream u = p.item.fromStream u :=
  rfl

theorem passed_delayed (hf : Followed s) {a : DelayAction}
    {b : DelayForward.Action FilterSet (Sent T)} {rx : Receiver} {d : DelayState FilterSet (Sent T)}
    (ha : ∀ n, a ≠ .lagged n) (hfed : Fed s a b rx)
    (hd : DelayForward.step packetDelay (onSent w) s.delay b = some d) :
    Passed u j s { s with
      delay := d, delayRx := rx, outbound := s.outbound ++ forwarded s.delay d } := by
  refine passed_kept rfl rfl ?_
  simp only [inTransit, queuedFrom]
  cases forwards_step hd with
  | idle _ _ hb hsame =>
    cases hfed with
    | item received x rx hr => exact absurd rfl (hb received x)
    | lagged n rx hl => exact absurd rfl (ha n)
    | unfed => rw [forwarded_nil hsame.popped, List.append_nil, hsame.queue]
  | received time x =>
    cases hfed with
    | item received x rx hr =>
      rw [forwarded_received, List.append_nil, unread_recv hr]
      cases hu : x.fromStream u with
      | none => simp [Loop.receive, hu]
      | some y => simp [Loop.receive, hu]
    | unfed a b ha hb => exact absurd rfl (hb time x)
  | released env now due x rest hq =>
    cases hfed with
    | unfed =>
      rw [forwarded_released, unread_send (rx_le hf j), hq]
      cases hu : x.fromStream u with
      | none => simp [fromUpstream_released, hu]
      | some y => simp [fromUpstream_released, hu]

theorem passed_mirrored (hf : Followed s) (m : Mirror.State T) (resps : List T) :
    Passed u j s { s with mirror := m, outbound := s.outbound ++ resps.map Out.inertia } := by
  refine passed_kept rfl rfl ?_
  have hnone : (resps.map Out.inertia).filterMap (Out.fromUpstream u) = [] := by
    rw [filterMap_fromUpstream, filterMap_popped_inertia]
    rfl
  simp only [inTransit, queuedFrom]
  rw [unread_send (rx_le hf j), List.filterMap_append, hnone, List.append_nil]

theorem passed_step (h : Pipeline w s) (hj : a = .subscribe → j ≠ s.nextStream) (hc : NoLag j s a)
    (hstep : step w s a = some t) : Passed u j s t := by
  cases step_effect hstep with
  | exited | watched => exact passed_kept rfl rfl rfl
  | subscribed => exact passed_subscribe h.pumped.unborn (hj rfl)
  | task i a st hst => exact passed_tasks (taskStep_effect hst).tasksOnly
  | pumped i item hp => exact passed_pumped h.staged i item
  | ended i now hcancel => exact passed_tasks ⟨rfl,rfl,rfl⟩
  | delivered i now out rx hp hcancel hr ht => exact passed_delivered hr
  | lagged i n rx hp hl =>
    have hstream : (s.setStream i { s.streams i with rx := rx }).streams j = s.streams j :=
      Function.update_of_ne (Ne.symm hc) _ _
    exact passed_kept (by rw [hstream]) (stream_frame Stream.pulled { s.streams i with rx := rx } rfl u)
      (inTransit_kept (by rw [hstream]) rfl rfl rfl rfl)
  | delayed a b rx d hf hd =>
    have ha : ∀ n, a ≠ .lagged n := by
      intro n hn
      subst hn
      exact hc
    exact passed_delayed h.followed ha hf hd
  | mirrored a c m out hcodec hm => exact passed_mirrored h.followed m out

theorem nextStream_step (hj : j < s.nextStream) (hstep : step w s a = some t) :
    j < t.nextStream := by
  cases step_effect hstep with
  | subscribed => exact Nat.lt_succ_of_lt hj
  | _ => exact hj

theorem queued_sublist (h : Staged w s) : (s.delay.queue.map Prod.snd).Sublist s.inbound := by
  obtain ⟨taken,hfollows,harrived⟩ := h.taken
  have hreceived := received_sublist hfollows
  rw [harrived, h.conforms.received] at hreceived
  exact (List.sublist_append_right _ _).trans hreceived

theorem inTransit_pulled (h : Pipeline w s) {y : T × Nat} (hy : y ∈ inTransit u j s) :
    y ∈ (s.streams u).pulled.zipIdx := by
  rw [← h.pumped.sent u]
  rcases List.mem_append.mp hy with hy | hy
  · obtain ⟨out,hout,hfrom⟩ := List.mem_filterMap.mp hy
    obtain ⟨p,hp,hitem⟩ := Option.bind_eq_some_iff.mp hfrom
    have hpopped := h.emitted.mem_popped (List.mem_of_mem_drop hout) hp
    have hmem := (popped_sublist h.staged).subset (List.mem_map.mpr ⟨p,hpopped,rfl⟩)
    exact List.mem_filterMap.mpr ⟨p.item,hmem,hitem⟩
  · rcases List.mem_append.mp hy with hy | hy
    · exact ((queued_sublist h.staged).filterMap _).subset hy
    · exact ((List.drop_sublist _ _).filterMap _).subset hy

def Complete (j : Nat) (s : State T) : Prop :=
  deliveredFrom j j s ++ inTransit j j s = (s.streams j).pulled.zipIdx

theorem complete_passed (h : Complete j s) (hst : Passed j j s t) : Complete j t := by
  obtain ⟨items,pumped,hd,hp,hflow⟩ := hst
  rw [Complete, hd, hp, List.append_assoc, hflow, ← List.append_assoc, h]

theorem complete_unpumped (h : Pipeline w s) (hpulled : (s.streams j).pulled = [])
    (hd : (s.streams j).delivered = []) : Complete j s := by
  have hnone : inTransit j j s = [] := by
    refine List.eq_nil_iff_forall_not_mem.mpr fun y hy => ?_
    have hmem := inTransit_pulled h hy
    rw [hpulled] at hmem
    cases hmem
  rw [Complete, hnone, hpulled, deliveredFrom, hd]
  rfl

theorem complete_step (h : Pipeline w s) (hcomplete : Complete j s) (hc : NoLag j s a)
    (hstep : step w s a = some t) : Complete j t := by
  by_cases hopens : a = .subscribe ∧ j = s.nextStream
  · obtain ⟨rfl,rfl⟩ := hopens
    have hpipe := pipeline_step h hstep
    cases hstep
    have hnew : s.subscribeStream.streams s.nextStream = s.newStream := Function.update_self ..
    exact complete_unpumped hpipe (by rw [hnew]; rfl) (by rw [hnew]; rfl)
  · exact complete_passed hcomplete
      (passed_step h (fun ha hj => hopens ⟨ha,hj⟩) hc hstep)

theorem unlagged_stream_complete (w : Wiring T) (as : List (Action T)) (s : State T)
    (hrun : run (step w) init as = some s) (j : Nat) :
    (Along (step w) (NoLag j) init as →
      deliveredFrom j j s ++ inTransit j j s = (s.streams j).pulled.zipIdx) ∧
    ∀ bs t, j < s.nextStream → run (step w) s bs = some t → Along (step w) (NoLag j) s bs →
      ∀ u, ∃ items pumped, deliveredFrom u j t = deliveredFrom u j s ++ items ∧
        (t.streams u).pulled.zipIdx = (s.streams u).pulled.zipIdx ++ pumped ∧
        items ++ inTransit u j t = inTransit u j s ++ pumped := by
  refine ⟨fun hc => ?_,fun bs t hj hbs hc u => ?_⟩
  · have hinit : Pipeline w init ∧ Complete j (init : State T) :=
      ⟨pipeline_init w,complete_unpumped (pipeline_init w) rfl rfl⟩
    have hkept : ∀ s a t, Pipeline w s ∧ Complete j s → NoLag j s a → step w s a = some t →
        Pipeline w t ∧ Complete j t :=
      fun s a t hs ha hstep => ⟨pipeline_step hs.1 hstep,complete_step hs.1 hs.2 ha hstep⟩
    exact (run_invariant_along hkept hinit hc hrun).2
  · have hstep : ∀ s a t, Pipeline w s ∧ j < s.nextStream → NoLag j s a → step w s a = some t →
        Passed u j s t :=
      fun s a t hs ha hstep => passed_step hs.1 (fun _ => Nat.ne_of_lt hs.2) ha hstep
    have hkept : ∀ s a t, Pipeline w s ∧ j < s.nextStream → NoLag j s a → step w s a = some t →
        Pipeline w t ∧ j < t.nextStream :=
      fun s a t hs _ hstep => ⟨pipeline_step hs.1 hstep,nextStream_step hs.2 hstep⟩
    exact run_relates (passed_refl u j) (fun _ _ _ => passed_trans) hkept hstep
      ⟨pipeline_run hrun,hj⟩ hc hbs

end Transit

section Sample

theorem pumped_bundle_delivered :
    ∃ s, run (step (bundleWiring emptyCodec)) init upstreamAndInertia = some s ∧
      inTransit 0 0 s = [] ∧ deliveredFrom 0 0 s = (s.streams 0).pulled.zipIdx := by
  obtain ⟨s,hs,htransit⟩ := exists_run_of_map (step (bundleWiring emptyCodec)) init
    upstreamAndInertia (fun s => decide (inTransit 0 0 s = [])) (by decide +kernel)
  have hnone := of_decide_eq_true htransit
  have hcomplete := (unlagged_stream_complete (bundleWiring emptyCodec) upstreamAndInertia s hs 0).1
    (by decide +kernel)
  rw [hnone, List.append_nil] at hcomplete
  exact ⟨s,hs,hnone,hcomplete⟩

end Sample

end InertiaRelayer.Blockengine
