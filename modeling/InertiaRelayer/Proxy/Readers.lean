import InertiaRelayer.Proxy.MirrorEffects

namespace InertiaRelayer.Mirror
open Frames Broadcast Machine

section Decoding

variable {T : Type} {c : Codec T} {shutdown : Bool} {contents : List T} {m t : State T}

def State.deliveredBy (m : State T) (i : Nat) : List T :=
  (m.delivered.filter fun d => d.reader == i).map Delivery.resp

structure Consumed (c : Codec T) (sent : List T) (r : Reader) (payloads : List Bytes) : Prop where
  arrived : r.arrived = payloads.flatMap (frame 4) ++ r.unread
  within : ∀ payload ∈ payloads, payload.length ≤ maxBundleFrame
  sent : sent = payloads.filterMap c.decode

structure Decoding (c : Codec T) (m : State T) : Prop where
  reads : ∀ i r, m.readers[i]? = some r → ∃ payloads, Consumed c (m.deliveredBy i) r payloads
  sources : ∀ d ∈ m.delivered, ∃ r, m.readers[d.reader]? = some r ∧ r.conn = d.conn

theorem readBundleStream_append {payloads : List Bytes} {rest : Bytes}
    (h : ∀ payload ∈ payloads, payload.length ≤ maxBundleFrame) :
    readBundleStream c (payloads.flatMap (frame 4) ++ rest) =
      payloads.filterMap c.decode ++ readBundleStream c rest := by
  induction payloads with
  | nil => rfl
  | cons payload payloads ih =>
    obtain ⟨hle,hrest⟩ := List.forall_mem_cons.mp h
    have hread : readBundleFrame (frame 4 payload ++ (payloads.flatMap (frame 4) ++ rest)) =
        some (payload,payloads.flatMap (frame 4) ++ rest) :=
      (readFrame_iff maxBundleFrame_lt).mpr ⟨hle,rfl⟩
    rw [List.flatMap_cons, List.append_assoc, readBundleStream_some hread, ih hrest,
      List.filterMap_cons]
    cases c.decode payload <;> rfl

theorem delivered_initial (h : Decoding c m) {i : Nat} {r : Reader} (hr : m.readers[i]? = some r) :
    m.deliveredBy i <+: readBundleStream c r.arrived := by
  obtain ⟨payloads,hc⟩ := h.reads i r hr
  rw [hc.arrived, readBundleStream_append hc.within, hc.sent]
  exact List.prefix_append _ _

theorem delivered_decoded (h : Decoding c m) {d : Delivery T} (hd : d ∈ m.delivered) :
    ∃ r, m.readers[d.reader]? = some r ∧ r.conn = d.conn ∧
      d.resp ∈ readBundleStream c r.arrived := by
  obtain ⟨r,hr,hconn⟩ := h.sources d hd
  refine ⟨r,hr,hconn,(delivered_initial h hr).subset ?_⟩
  exact List.mem_map.mpr ⟨d,List.mem_filter.mpr ⟨hd,beq_self_eq_true _⟩,rfl⟩

theorem getElem?_setReader {i j : Nat} {r next x : Reader} (hr : m.readers[i]? = some r)
    (hx : (m.readers.set i next)[j]? = some x) :
    (j = i ∧ x = next) ∨ (j ≠ i ∧ m.readers[j]? = some x) := by
  by_cases hj : j = i
  · subst hj
    rw [List.getElem?_set_self (List.getElem?_eq_some_iff.mp hr).1] at hx
    exact .inl ⟨rfl,(Option.some.inj hx).symm⟩
  · rw [List.getElem?_set_ne (Ne.symm hj)] at hx
    exact .inr ⟨hj,hx⟩

theorem source_setReader {i k conn : Nat} {r next : Reader} (hr : m.readers[i]? = some r)
    (hconn : next.conn = r.conn) (h : ∃ x, m.readers[k]? = some x ∧ x.conn = conn) :
    ∃ x, (m.readers.set i next)[k]? = some x ∧ x.conn = conn := by
  obtain ⟨x,hx,hxc⟩ := h
  by_cases hk : k = i
  · subst hk
    rw [hr] at hx
    cases hx
    exact ⟨next,List.getElem?_set_self (List.getElem?_eq_some_iff.mp hr).1,hconn.trans hxc⟩
  · exact ⟨x,by rw [List.getElem?_set_ne (Ne.symm hk)]; exact hx,hxc⟩

theorem decoding_accepted (h : Decoding c m) (conn : Nat) :
    Decoding c { m with readers := m.readers ++ [⟨conn,.checking,[],[],false⟩] } where
  reads i r hr := by
    rcases Nat.lt_or_ge i m.readers.length with hi | hi
    · rw [List.getElem?_append_left hi] at hr
      exact h.reads i r hr
    · have hnone : m.deliveredBy i = [] := by
        refine List.map_eq_nil_iff.mpr (List.filter_eq_nil_iff.mpr (fun d hd hi' => ?_))
        obtain ⟨x,hx,_⟩ := h.sources d hd
        have hlt := (List.getElem?_eq_some_iff.mp hx).1
        rw [beq_iff_eq.mp hi'] at hlt
        omega
      rw [List.getElem?_append_right hi] at hr
      have hr' : r = ⟨conn,.checking,[],[],false⟩ := by
        obtain ⟨hlt,heq⟩ := List.getElem?_eq_some_iff.mp hr
        simpa using heq.symm
      subst hr'
      exact ⟨[],rfl,by simp,hnone⟩
  sources d hd := by
    obtain ⟨r,hr,hconn⟩ := h.sources d hd
    refine ⟨r,?_,hconn⟩
    rw [List.getElem?_append_left (List.getElem?_eq_some_iff.mp hr).1]
    exact hr

theorem decoding_changed (h : Decoding c m) {i : Nat} {r next : Reader} {more : Bytes}
    (hr : m.readers[i]? = some r) (hconn : next.conn = r.conn)
    (harrived : next.arrived = r.arrived ++ more) (hunread : next.unread = r.unread ++ more) :
    Decoding c (m.setReader i next) where
  reads j x hx := by
    rcases getElem?_setReader hr hx with ⟨rfl,rfl⟩ | ⟨_,hx⟩
    · obtain ⟨payloads,hc⟩ := h.reads j r hr
      refine ⟨payloads,?_,hc.within,hc.sent⟩
      rw [harrived, hunread, hc.arrived, List.append_assoc]
    · exact h.reads j x hx
  sources d hd := source_setReader hr hconn (h.sources d hd)

theorem deliveredBy_append (m : State T) (i j conn : Nat) (stored : Option Nat) (resps : List T) :
    State.deliveredBy { m with
        delivered := m.delivered ++ resps.map fun resp => ⟨i,conn,stored,resp⟩ } j =
      m.deliveredBy j ++ if i = j then resps else [] := by
  simp only [State.deliveredBy, List.filter_append, List.map_append, List.filter_map]
  congr 1
  by_cases hij : i = j
  · simp [hij, Function.comp_def]
  · simp [hij, Function.comp_def]

theorem decoding_framed (h : Decoding c m) {i : Nat} {r : Reader} {buf rest : Bytes}
    (hr : m.readers[i]? = some r) (hread : readBundleFrame r.unread = some (buf,rest)) :
    Decoding c { m.setReader i { r with phase := .checking, unread := rest } with
      delivered := m.delivered ++
        (c.decode buf).toList.map fun resp => ⟨i,r.conn,m.conn,resp⟩ } where
  reads j x hx := by
    obtain ⟨hle,hunread⟩ := (readFrame_iff maxBundleFrame_lt).mp hread
    have hdelivered := deliveredBy_append m i j r.conn m.conn (c.decode buf).toList
    rcases getElem?_setReader hr hx with ⟨rfl,rfl⟩ | ⟨hj,hx⟩
    · obtain ⟨payloads,hc⟩ := h.reads j r hr
      refine ⟨payloads ++ [buf],?_,?_,?_⟩
      · simp only [List.flatMap_append, List.flatMap_cons, List.flatMap_nil, List.append_nil]
        rw [hc.arrived, hunread, List.append_assoc]
      · intro payload hp
        rcases List.mem_append.mp hp with hp | hp
        · exact hc.within payload hp
        · rw [List.mem_singleton.mp hp]
          exact hle
      · refine hdelivered.trans ?_
        rw [if_pos rfl, hc.sent, List.filterMap_append, List.filterMap_cons]
        cases c.decode buf <;> rfl
    · obtain ⟨payloads,hc⟩ := h.reads j x hx
      refine ⟨payloads,hc.arrived,hc.within,hdelivered.trans ?_⟩
      rw [if_neg (Ne.symm hj), List.append_nil, hc.sent]
  sources d hd := by
    rcases List.mem_append.mp hd with hd | hd
    · exact source_setReader hr rfl (h.sources d hd)
    · obtain ⟨resp,_,rfl⟩ := List.mem_map.mp hd
      exact source_setReader hr rfl ⟨r,hr,rfl⟩

theorem decoding_read {out : List T} (h : Decoding c m) (he : ReadEffect c m t out) :
    Decoding c t := by
  cases he with
  | accepted conn hs => exact decoding_accepted h conn
  | changed i r next more hr hconn harrived hunread hreturned =>
    exact decoding_changed h hr hconn harrived hunread
  | framed i r buf rest hr hs hread => exact decoding_framed h hr hread

theorem decoding_same (h : Decoding c m) (hreaders : t.readers = m.readers)
    (hdelivered : t.delivered = m.delivered) : Decoding c t where
  reads i r hr := by
    rw [hreaders] at hr
    rw [State.deliveredBy, hdelivered]
    exact h.reads i r hr
  sources := by
    rw [hdelivered, hreaders]
    exact h.sources

theorem RunEffect.readers {a : RunAction} (h : RunEffect m a t) :
    t.readers = m.readers ∧ t.delivered = m.delivered := by
  cases h with
  | moved => exact ⟨rfl,rfl⟩
  | connected => exact ⟨rfl,rfl⟩
  | ended => exact ⟨rfl,rfl⟩
  | cleared => exact ⟨rfl,rfl⟩

theorem step_delivered {a : Action} {out : List T}
    (hstep : step c shutdown contents m a = some (t,out)) :
    t.delivered.map Delivery.resp = m.delivered.map Delivery.resp ++ out := by
  rcases step_cases hstep with ⟨b,_,he,rfl⟩ | ⟨hw,rfl⟩ | hr
  · rw [he.readers.2, List.append_nil]
  · rw [hw.writerOnly.delivered, List.append_nil]
  · cases hr with
    | accepted => exact (List.append_nil _).symm
    | changed => exact (List.append_nil _).symm
    | framed i r buf rest hr hs hread =>
      rw [List.map_append, List.map_map]
      exact congrArg _ (List.map_id _)

theorem decoding_step {a : Action} {out : List T} (h : Decoding c m)
    (hstep : step c shutdown contents m a = some (t,out)) : Decoding c t := by
  rcases step_cases hstep with ⟨b,_,he,_⟩ | ⟨hw,_⟩ | hr
  · exact decoding_same h he.readers.1 he.readers.2
  · have ho := hw.writerOnly
    exact decoding_same h ho.readers ho.delivered
  · exact decoding_read h hr

theorem decoding_init (rx : Receiver) : Decoding c (State.init rx : State T) where
  reads i r hr := by simp [State.init] at hr
  sources d hd := by cases hd

end Decoding

section Current

variable {T : Type} {c : Codec T} {shutdown : Bool} {contents : List T} {m t : State T}

structure Current (m : State T) : Prop where
  stored : m.conn = m.phase.stored
  running : ∀ r ∈ m.readers, r.phase ≠ .returned → m.conn = some r.conn
  delivered : ∀ d ∈ m.delivered, d.stored = some d.conn

def NoneRunning (m : State T) : Prop :=
  ∀ r ∈ m.readers, m.conn = some r.conn → r.phase = .returned

instance (m : State T) : Decidable (NoneRunning m) :=
  inferInstanceAs (Decidable (∀ r ∈ m.readers, m.conn = some r.conn → r.phase = .returned))

def ClearsReturned (m : State T) : Action → Prop
  | .run .clear => NoneRunning m
  | _ => True

instance (m : State T) : ∀ a, Decidable (ClearsReturned m a)
  | .run .clear => inferInstanceAs (Decidable (NoneRunning m))
  | .run .endpointOk | .run .endpointFailed | .run .loopCheck | .run .connectOk
  | .run .connectFailed | .run (.branchEnds _) | .run .pauseCheck | .run .wake | .writer _
  | .acceptUni | .reader _ _ => .isTrue trivial

theorem current_init (rx : Receiver) : Current (State.init rx : State T) where
  stored := rfl
  running _ hr := by cases hr
  delivered _ hd := by cases hd

theorem Current.returned (h : Current m) (hnone : m.conn = none) :
    ∀ r ∈ m.readers, r.phase = .returned := by
  intro r hr
  by_contra hne
  cases hnone.symm.trans (h.running r hr hne)

theorem current_run {a : RunAction} (h : Current m) (hcond : ClearsReturned m (.run a))
    (he : RunEffect m a t) : Current t := by
  cases he with
  | moved a phase backoff hs hp =>
    exact ⟨(h.stored.trans hs).trans hp.symm,h.running,h.delivered⟩
  | connected hs =>
    refine ⟨rfl,fun r hr hne => ?_,h.delivered⟩
    exact absurd (h.returned (h.stored.trans hs) r hr) hne
  | ended branch conn hs =>
    refine ⟨?_,h.running,h.delivered⟩
    have hstored := h.stored
    rw [hs] at hstored
    exact hstored
  | cleared conn hs =>
    refine ⟨rfl,fun r hr hne => ?_,h.delivered⟩
    exact absurd (hcond r hr (h.running r hr hne)) hne

theorem current_read {out : List T} (h : Current m) (he : ReadEffect c m t out) : Current t := by
  cases he with
  | accepted conn hs =>
    refine ⟨h.stored,fun r hr hne => ?_,h.delivered⟩
    rcases List.mem_append.mp hr with hr | hr
    · exact h.running r hr hne
    · rw [List.mem_singleton.mp hr]
      have hstored := h.stored
      rw [hs] at hstored
      exact hstored
  | changed i r next more hr hconn harrived hunread hreturned =>
    refine ⟨h.stored,fun x hx hne => ?_,h.delivered⟩
    rcases List.mem_or_eq_of_mem_set hx with hx | rfl
    · exact h.running x hx hne
    · rw [hconn]
      exact h.running r (List.mem_of_getElem? hr) (fun hphase => hne (hreturned hphase))
  | framed i r buf rest hr hs hread =>
    have hconn : m.conn = some r.conn :=
      h.running r (List.mem_of_getElem? hr) (fun hphase => by cases hs.symm.trans hphase)
    refine ⟨h.stored,fun x hx hne => ?_,fun d hd => ?_⟩
    · rcases List.mem_or_eq_of_mem_set hx with hx | rfl
      · exact h.running x hx hne
      · exact hconn
    · rcases List.mem_append.mp hd with hd | hd
      · exact h.delivered d hd
      · obtain ⟨resp,_,rfl⟩ := List.mem_map.mp hd
        exact hconn

theorem current_step {a : Action} {out : List T} (h : Current m) (hcond : ClearsReturned m a)
    (hstep : step c shutdown contents m a = some (t,out)) : Current t := by
  rcases step_cases hstep with ⟨b,rfl,he,_⟩ | ⟨hw,_⟩ | hr
  · exact current_run h hcond he
  · have ho := hw.writerOnly
    refine ⟨?_,?_,?_⟩
    · rw [ho.conn, ho.phase]
      exact h.stored
    · rw [ho.readers, ho.conn]
      exact h.running
    · rw [ho.delivered]
      exact h.delivered
  · exact current_read h hr

end Current

section Reconnect

variable {T : Type} {c : Codec T}

def EndsQuiet (s : System T) : System.Action T → Prop
  | .mirror a => ClearsReturned s.mirror a
  | _ => True

instance (s : System T) : ∀ a, Decidable (EndsQuiet s a)
  | .mirror a => inferInstanceAs (Decidable (ClearsReturned s.mirror a))
  | .exit | .broadcast _ => .isTrue trivial

structure Attached (c : Codec T) (s : System T) : Prop where
  current : Current s.mirror
  decoding : Decoding c s.mirror

theorem attached_step {s t : System T} {a : System.Action T} (h : Attached c s)
    (hcond : EndsQuiet s a) (hstep : System.step c s a = some t) : Attached c t := by
  cases a with
  | exit =>
    cases hstep
    exact ⟨h.current,h.decoding⟩
  | broadcast resp =>
    cases hstep
    exact ⟨h.current,h.decoding⟩
  | mirror a =>
    obtain ⟨u,hu,rfl⟩ := Option.map_eq_some_iff.mp hstep
    exact ⟨current_step h.current hcond hu,decoding_step h.decoding hu⟩

theorem delivered_on_stored_connection (c : Codec T) (before : List T)
    (as : List (System.Action T)) (s : System T)
    (hrun : run (System.step c) (System.init before) as = some s)
    (hquiet : Along (System.step c) EndsQuiet (System.init before) as) :
    ∀ d ∈ s.mirror.delivered, d.stored = some d.conn ∧
      ∃ r, s.mirror.readers[d.reader]? = some r ∧ r.conn = d.conn ∧
        d.resp ∈ readBundleStream c r.arrived := by
  have hattached : Attached c s := run_invariant_along (fun _ _ _ => attached_step)
    ⟨current_init _,decoding_init _⟩ hquiet hrun
  exact fun d hd => ⟨hattached.current.delivered d hd,delivered_decoded hattached.decoding hd⟩

def serveOneReader : List (System.Action Bytes) :=
  [.mirror (.run .endpointOk),.mirror (.run .loopCheck),.mirror (.run .connectOk),
    .mirror (.writer .openOk),.mirror .acceptUni,.mirror (.reader 0 .check)]

def bundleArrives : List (System.Action Bytes) :=
  [.mirror (.reader 0 (.arrive [1,0,0,0,7])),.mirror (.reader 0 .frame)]

def stopMirrorStream : List (System.Action Bytes) :=
  [.broadcast [1],.mirror (.writer .recv),.mirror (.writer .writeFailed),
    .mirror (.run (.branchEnds .mirrorBundlesOut)),.mirror (.run .clear)]

theorem detached_reader_delivers :
    ∃ s, run (System.step bytesCodec) (System.init [])
        (serveOneReader ++ stopMirrorStream ++ bundleArrives) = some s ∧
      s.mirror.conn = none ∧ ∃ d ∈ s.mirror.delivered, d.stored ≠ some d.conn := by
  obtain ⟨s,hs,hd⟩ := exists_run_of_map (System.step bytesCodec) (System.init [])
    (serveOneReader ++ stopMirrorStream ++ bundleArrives)
    (fun s => decide (s.mirror.conn = none ∧ s.mirror.delivered = [⟨0,0,none,[7]⟩])) (by decide)
  obtain ⟨hconn,hd⟩ := of_decide_eq_true hd
  exact ⟨s,hs,hconn,⟨0,0,none,[7]⟩,by rw [hd]; exact List.mem_cons_self,nofun⟩

def readerEndsFirst : List (System.Action Bytes) :=
  [.mirror (.reader 0 .streamEnds),.mirror (.reader 0 .check),.mirror (.reader 0 .fail)]

theorem ended_reader_delivers_on_stored :
    ∃ s, run (System.step bytesCodec) (System.init [])
        (serveOneReader ++ bundleArrives ++ readerEndsFirst ++ stopMirrorStream) = some s ∧
      s.mirror.delivered = [⟨0,0,some 0,[7]⟩] ∧ ∀ d ∈ s.mirror.delivered,
        d.stored = some d.conn := by
  obtain ⟨s,hs,hd⟩ := exists_run_of_map (System.step bytesCodec) (System.init [])
    (serveOneReader ++ bundleArrives ++ readerEndsFirst ++ stopMirrorStream)
    (fun s => decide (s.mirror.delivered = [⟨0,0,some 0,[7]⟩])) (by decide)
  refine ⟨s,hs,of_decide_eq_true hd,fun d hmem => ?_⟩
  exact (delivered_on_stored_connection bytesCodec [] _ s hs (by decide) d hmem).1

end Reconnect

end InertiaRelayer.Mirror
