import InertiaRelayer.Proxy.MirrorEffects

namespace InertiaRelayer.Mirror
open Frames Broadcast Machine

section Streams

variable {T : Type} (c : Codec T)

def Tail : Option (T × Nat) → Bytes → Prop
  | none, tail => tail = []
  | some x, tail => ∃ buf, c.encode x.1 = some buf ∧ Torn 4 tail buf

structure Framed (send : SendStream T) : Prop where
  encoded : ∀ x ∈ send.complete, ∃ buf, c.encode x.1 = some buf
  bytes : ∃ tail, send.written = mirroredBytes c (send.complete.map Prod.fst) ++ tail ∧
    Tail c send.torn tail

structure Writing (send : SendStream T) (rest : Bytes) : Prop where
  encoded : ∀ x ∈ send.complete, ∃ buf, c.encode x.1 = some buf
  finished : rest = [] → send.torn = none ∧
    send.written = mirroredBytes c (send.complete.map Prod.fst)
  pending : rest ≠ [] → ∃ x buf tail, send.torn = some x ∧ c.encode x.1 = some buf ∧
    send.written = mirroredBytes c (send.complete.map Prod.fst) ++ tail ∧
    tail ++ rest = bundleFrame buf

def WriterFramed : Writer T → Prop
  | .receiving send => Writing c send []
  | .writing send len buf => Writing c send (len ++ buf)
  | _ => True

variable {c} {send : SendStream T} {chunk rest : Bytes}

theorem mirroredBytes_concat {resps : List T} {resp : T} {buf : Bytes}
    (h : c.encode resp = some buf) :
    mirroredBytes c (resps ++ [resp]) = mirroredBytes c resps ++ bundleFrame buf := by
  simp [mirroredBytes, encodeFrame, h]

theorem torn_of_append {tail buf : Bytes} (h : tail ++ rest = bundleFrame buf)
    (hrest : rest ≠ []) : Torn 4 tail buf := by
  rw [bundleFrame_eq] at h
  refine ⟨⟨rest,h⟩,fun heq => hrest ?_⟩
  rw [← h] at heq
  exact List.self_eq_append_right.mp heq

theorem Writing.framed (h : Writing c send rest) : Framed c send := by
  refine ⟨h.encoded,?_⟩
  by_cases hrest : rest = []
  · obtain ⟨htorn,hwritten⟩ := h.finished hrest
    exact ⟨[],by rw [hwritten, List.append_nil],by rw [htorn]; rfl⟩
  · obtain ⟨x,buf,tail,htorn,hbuf,hwritten,htail⟩ := h.pending hrest
    exact ⟨tail,hwritten,by rw [htorn]; exact ⟨buf,hbuf,torn_of_append htail hrest⟩⟩

theorem writing_opened (conn : Nat) : Writing c (.opened conn) [] where
  encoded _ hx := by cases hx
  finished _ := ⟨rfl,rfl⟩
  pending h := absurd rfl h

theorem bundleFrame_ne_nil (buf : Bytes) : bundleFrame buf ≠ [] := by
  intro h
  have hlen := congrArg List.length h
  rw [bundleFrame_eq, length_frame, List.length_nil] at hlen
  omega

theorem writing_take (h : Writing c send []) {resp : T} {buf : Bytes} (n : Nat)
    (hbuf : c.encode resp = some buf) :
    Writing c (send.take (resp,n)) (lenPrefix buf ++ buf) where
  encoded := h.encoded
  finished hnil := absurd hnil (bundleFrame_ne_nil buf)
  pending _ := by
    obtain ⟨_,hwritten⟩ := h.finished rfl
    exact ⟨(resp,n),buf,[],rfl,hbuf,by rw [List.append_nil]; exact hwritten,rfl⟩

theorem writing_write (h : Writing c send (chunk ++ rest)) (hchunk : chunk ≠ []) :
    Writing c (send.write chunk rest) rest := by
  obtain ⟨x,buf,tail,htorn,hbuf,hwritten,htail⟩ :=
    h.pending (fun hnil => hchunk (List.append_eq_nil_iff.mp hnil).1)
  cases rest with
  | nil =>
    have hstarted : send.started = send.complete ++ [x] := by rw [SendStream.started, htorn]; rfl
    refine ⟨?_,fun _ => ⟨rfl,?_⟩,fun hne => absurd rfl hne⟩
    · intro y hy
      simp only [SendStream.write, hstarted, List.mem_append, List.mem_singleton] at hy
      rcases hy with hy | rfl
      · exact h.encoded y hy
      · exact ⟨buf,hbuf⟩
    · rw [List.append_nil] at htail
      simp only [SendStream.write, hstarted, List.map_append, List.map_cons, List.map_nil]
      rw [mirroredBytes_concat hbuf, hwritten, List.append_assoc, htail]
  | cons b rest =>
    refine ⟨h.encoded,nofun,fun _ => ?_⟩
    refine ⟨x,buf,tail ++ chunk,htorn,hbuf,?_,by rw [List.append_assoc, htail]⟩
    simp only [SendStream.write]
    rw [hwritten, List.append_assoc]

theorem started_write (send : SendStream T) (chunk rest : Bytes) :
    (send.write chunk rest).started = send.started := by
  cases rest with
  | nil => exact List.append_nil _
  | cons b rest => rfl

theorem conn_write (send : SendStream T) (chunk rest : Bytes) :
    (send.write chunk rest).conn = send.conn := by
  cases rest with
  | nil => rfl
  | cons b rest => rfl

end Streams

section Invariant

variable {T : Type}

def State.started (m : State T) : List (T × Nat) := m.sendStreams.flatMap SendStream.started

def Serving (phase : RunPhase) : Prop := ∃ conn, phase = .serving conn

structure Mirrored (c : Codec T) (start : Nat) (contents : List T) (m : State T) : Prop where
  closed : ∀ send ∈ m.streams, Framed c send
  writer : WriterFramed c m.writer
  idle : m.writer = .idle ∨ Serving m.phase
  follows : Follows contents start m.rx m.started

variable {c : Codec T} {start : Nat} {shutdown : Bool} {contents : List T} {m t : State T}

theorem framed_of_writer {writer : Writer T} (h : WriterFramed c writer) {send : SendStream T}
    (hs : writer.send = some send) : Framed c send := by
  cases writer with
  | receiving s =>
    cases hs
    exact Writing.framed h
  | writing s len buf =>
    cases hs
    exact Writing.framed h
  | _ => cases hs

theorem Mirrored.framed (h : Mirrored c start contents m) : ∀ send ∈ m.sendStreams, Framed c send := by
  intro send hs
  rcases List.mem_append.mp hs with hs | hs
  · exact h.closed send hs
  · exact framed_of_writer h.writer (Option.mem_toList.mp hs)

theorem mirrored_send (h : Mirrored c start contents m) (more : List T) :
    Mirrored c start (contents ++ more) m :=
  ⟨h.closed,h.writer,h.idle,follows_send h.follows more⟩

theorem mirrored_init (contents : List T) :
    Mirrored c contents.length contents (State.init (subscribe contents)) where
  closed _ hs := by cases hs
  writer := trivial
  idle := .inl rfl
  follows := follows_subscribe contents

theorem started_eq (m : State T) :
    m.started = m.streams.flatMap SendStream.started ++ m.writer.send.elim [] SendStream.started := by
  rw [State.started, State.sendStreams, List.flatMap_append]
  cases m.writer.send with
  | none => rfl
  | some send => simp

theorem mirrored_setWriter (h : Mirrored c start contents m) (writer : Writer T) (rx : Receiver)
    (hserving : Serving m.phase) (hframed : WriterFramed c writer)
    (hfollows : Follows contents start rx
      (m.streams.flatMap SendStream.started ++ writer.send.elim [] SendStream.started)) :
    Mirrored c start contents { m.setWriter writer with rx := rx } where
  closed := h.closed
  writer := hframed
  idle := .inr hserving
  follows := by
    rw [started_eq]
    exact hfollows

theorem mirrored_endWriter (h : Mirrored c start contents m) {writer : Writer T} (phase : RunPhase)
    (hsend : writer.send = none) (hframed : WriterFramed c writer)
    (hidle : writer = .idle ∨ Serving phase) :
    Mirrored c start contents ((m.endWriter writer).enter phase) where
  closed := h.framed
  writer := hframed
  idle := hidle
  follows := by
    have hstreams : ((m.endWriter writer).enter phase).sendStreams = m.sendStreams := by
      simp [State.sendStreams, State.endWriter, State.enter, hsend]
    rw [State.started, hstreams]
    exact h.follows

theorem not_serving_of_stored {phase : RunPhase} (h : phase.stored = none) : ¬ Serving phase := by
  rintro ⟨conn,rfl⟩
  cases h

theorem Mirrored.idle_of (h : Mirrored c start contents m) (hs : ¬ Serving m.phase) :
    m.writer = .idle :=
  h.idle.resolve_right hs

theorem Mirrored.serving_of (h : Mirrored c start contents m) {writer : Writer T}
    (hw : m.writer = writer) (hne : writer ≠ .idle) : Serving m.phase :=
  h.idle.resolve_left (hw ▸ hne)

theorem mirrored_run {a : RunAction} (h : Mirrored c start contents m) (he : RunEffect m a t) :
    Mirrored c start contents t := by
  cases he with
  | moved a phase backoff hs hp =>
    exact ⟨h.closed,h.writer,.inl (h.idle_of (not_serving_of_stored hs)),h.follows⟩
  | connected hs =>
    refine ⟨h.closed,trivial,.inr ⟨_,rfl⟩,?_⟩
    have hfollows := h.follows
    rw [started_eq, h.idle_of (not_serving_of_stored hs)] at hfollows
    rw [started_eq]
    exact hfollows
  | ended branch conn hs => exact mirrored_endWriter h _ rfl trivial (.inl rfl)
  | cleared conn hs =>
    have hidle := h.idle_of (fun ⟨_,hphase⟩ => by cases hs.symm.trans hphase)
    exact ⟨h.closed,h.writer,.inl hidle,h.follows⟩

theorem Mirrored.writerFramed (h : Mirrored c start contents m) {writer : Writer T}
    (hw : m.writer = writer) : WriterFramed c writer :=
  hw ▸ h.writer

theorem Mirrored.followsWriter (h : Mirrored c start contents m) {writer : Writer T}
    (hw : m.writer = writer) : Follows contents start m.rx
      (m.streams.flatMap SendStream.started ++ writer.send.elim [] SendStream.started) := by
  have hfollows := h.follows
  rwa [started_eq, hw] at hfollows

theorem mirrored_taken (h : Mirrored c start contents m) {send : SendStream T} {resp : T}
    {rx : Receiver} {buf : Bytes} (hw : m.writer = .receiving send)
    (hr : recv contents m.rx = some (resp,rx)) (hbuf : c.encode resp = some buf) :
    Mirrored c start contents
      { m.setWriter (.writing (send.take (resp,m.rx.cursor)) (lenPrefix buf) buf) with
        rx := rx } := by
  have hwriting : Writing c send [] := h.writerFramed hw
  have hcomplete : send.started = send.complete := by
    rw [SendStream.started, (hwriting.finished rfl).1]
    exact List.append_nil _
  refine mirrored_setWriter h _ rx (h.serving_of hw (by simp))
    (writing_take hwriting m.rx.cursor hbuf) ?_
  have hnext := follows_recv (h.followsWriter hw) hr
  simp only [Writer.send, Option.elim_some, hcomplete, List.append_assoc] at hnext
  exact hnext

theorem mirrored_wrote (h : Mirrored c start contents m) {send : SendStream T}
    {len buf chunk len' buf' : Bytes} (hw : m.writer = .writing send len buf)
    (hchunk : chunk ≠ []) (hsplit : len ++ buf = chunk ++ (len' ++ buf')) :
    Mirrored c start contents
      (m.setWriter (.writing (send.write chunk (len' ++ buf')) len' buf')) := by
  have hwriting : Writing c send (len ++ buf) := h.writerFramed hw
  rw [hsplit] at hwriting
  refine mirrored_setWriter h (.writing (send.write chunk (len' ++ buf')) len' buf') m.rx
    (h.serving_of hw (by simp)) (writing_write hwriting hchunk) ?_
  simp only [Writer.send, Option.elim_some, started_write]
  exact h.followsWriter hw

theorem mirrored_writer (h : Mirrored c start contents m) (he : WriterEffect c contents m t) :
    Mirrored c start contents t := by
  cases he with
  | opened conn hs hw =>
    have hfollows := h.followsWriter hw
    exact mirrored_setWriter h (.receiving (.opened conn)) m.rx ⟨conn,hs⟩ (writing_opened conn)
      hfollows
  | returned hw => exact mirrored_endWriter h m.phase rfl trivial (.inr (h.serving_of rfl hw))
  | skipped send rx hw hrx => exact ⟨h.closed,h.writer,h.idle,follows_skip h.follows hrx⟩
  | taken send resp rx buf hw hr hbuf => exact mirrored_taken h hw hr hbuf
  | wrote send len buf chunk len' buf' hw hchunk hsplit => exact mirrored_wrote h hw hchunk hsplit
  | framed send hw =>
    have hframed := h.writerFramed hw
    have hfollows := h.followsWriter hw
    exact mirrored_setWriter h (.receiving send) m.rx (h.serving_of hw (by simp)) hframed hfollows

theorem mirrored_readersOnly (h : Mirrored c start contents m) (ho : ReadersOnly m t) :
    Mirrored c start contents t where
  closed := ho.streams ▸ h.closed
  writer := ho.writer ▸ h.writer
  idle := by
    rw [ho.writer, ho.phase]
    exact h.idle
  follows := by
    rw [started_eq, ho.writer, ho.streams, ho.rx, ← started_eq]
    exact h.follows

theorem mirrored_step {a : Action} {out : List T} (h : Mirrored c start contents m)
    (hstep : step c shutdown contents m a = some (t,out)) : Mirrored c start contents t := by
  rcases step_cases hstep with ⟨b,_,he,_⟩ | ⟨hw,_⟩ | hr
  · exact mirrored_run h he
  · exact mirrored_writer h hw
  · exact mirrored_readersOnly h hr.readersOnly

end Invariant

section Order

variable {T : Type} {c : Codec T} {start : Nat} {shutdown : Bool} {contents : List T} {m t : State T}

def State.conns (m : State T) : List Nat := m.sendStreams.map SendStream.conn

structure Ordered (m : State T) : Prop where
  increasing : m.conns.Pairwise (· < ·)
  past : ∀ conn ∈ m.conns, conn < m.nextConn
  serving : ∀ conn, m.phase = .serving conn → m.nextConn = conn + 1
  opening : m.writer = .opening → ∀ conn ∈ m.conns, conn + 1 < m.nextConn

structure SameConns (m t : State T) : Prop where
  conns : t.conns = m.conns
  nextConn : t.nextConn = m.nextConn
  phase : t.phase = m.phase ∨ ¬ Serving t.phase
  writer : t.writer ≠ .opening

theorem ordered_init (rx : Receiver) : Ordered (State.init rx : State T) where
  increasing := .nil
  past _ h := by cases h
  serving _ h := by cases h
  opening h := by cases h

theorem ordered_same (h : Ordered m) (hs : SameConns m t) : Ordered t where
  increasing := hs.conns ▸ h.increasing
  past := by
    rw [hs.conns, hs.nextConn]
    exact h.past
  serving conn hphase := by
    rw [hs.nextConn]
    rcases hs.phase with heq | hne
    · exact h.serving conn (heq ▸ hphase)
    · exact absurd ⟨conn,hphase⟩ hne
  opening hw := absurd hw hs.writer

theorem ordered_readersOnly (h : Ordered m) (ho : ReadersOnly m t) : Ordered t := by
  have hconns : t.conns = m.conns := by
    rw [State.conns, State.sendStreams, ho.streams, ho.writer]
    rfl
  refine ⟨hconns ▸ h.increasing,?_,?_,?_⟩
  · rw [hconns, ho.nextConn]
    exact h.past
  · rw [ho.phase, ho.nextConn]
    exact h.serving
  · rw [hconns, ho.writer, ho.nextConn]
    exact h.opening

theorem conns_endWriter (m : State T) {writer : Writer T} (hsend : writer.send = none) :
    (m.endWriter writer).conns = m.conns := by
  simp [State.conns, State.sendStreams, State.endWriter, hsend]

theorem conns_setWriter (writer : Writer T)
    (hconn : writer.send.map SendStream.conn = m.writer.send.map SendStream.conn) :
    (m.setWriter writer).conns = m.conns := by
  simp only [State.conns, State.sendStreams, State.setWriter, List.map_append, ← Option.toList_map,
    hconn]

theorem ordered_run {a : RunAction} (h : Ordered m) (hm : Mirrored c start contents m)
    (he : RunEffect m a t) : Ordered t := by
  cases he with
  | moved a phase backoff hs hp =>
    have hidle := hm.idle_of (not_serving_of_stored hs)
    exact ordered_same h ⟨rfl,rfl,.inr (not_serving_of_stored hp),
      fun hw => by cases hidle.symm.trans hw⟩
  | connected hs =>
    have hsame : State.conns { m with
        phase := .serving m.nextConn
        backoff := backoffInitial
        conn := some m.nextConn
        nextConn := m.nextConn + 1
        writer := .opening } = m.conns := by
      simp [State.conns, State.sendStreams, hm.idle_of (not_serving_of_stored hs), Writer.send]
    refine ⟨hsame ▸ h.increasing,?_,?_,?_⟩
    · rw [hsame]
      exact fun conn hc => Nat.lt_succ_of_lt (h.past conn hc)
    · intro conn hphase
      cases hphase
      rfl
    · rw [hsame]
      exact fun _ conn hc => Nat.succ_lt_succ (h.past conn hc)
  | ended branch conn hs => exact ordered_same h ⟨conns_endWriter m rfl,rfl,.inr nofun,nofun⟩
  | cleared conn hs =>
    have hidle := hm.idle_of (fun ⟨_,hphase⟩ => by cases hs.symm.trans hphase)
    exact ordered_same h ⟨rfl,rfl,.inr nofun,fun hw => by cases hidle.symm.trans hw⟩

theorem ordered_openOk {conn : Nat} (h : Ordered m) (hphase : m.phase = .serving conn)
    (hwriter : m.writer = .opening) : Ordered (m.setWriter (.receiving (.opened conn))) := by
  have hconns : (m.setWriter (.receiving (.opened conn))).conns = m.conns ++ [conn] := by
    simp [State.conns, State.sendStreams, State.setWriter, hwriter, Writer.send, SendStream.opened]
  have hnext := h.serving conn hphase
  refine ⟨?_,?_,h.serving,nofun⟩
  · rw [hconns]
    refine List.pairwise_append.mpr ⟨h.increasing,List.pairwise_singleton _ _,?_⟩
    intro x hx y hy
    have hlt := h.opening hwriter x hx
    rw [List.mem_singleton.mp hy]
    omega
  · rw [hconns]
    intro x hx
    rcases List.mem_append.mp hx with hx | hx
    · exact h.past x hx
    · rw [List.mem_singleton.mp hx]
      show conn < m.nextConn
      omega

theorem ordered_setWriter (h : Ordered m) (writer : Writer T) (rx : Receiver)
    (hconn : writer.send.map SendStream.conn = m.writer.send.map SendStream.conn)
    (hne : writer ≠ .opening) : Ordered { m.setWriter writer with rx := rx } :=
  ordered_same h ⟨conns_setWriter writer hconn,rfl,.inl rfl,hne⟩

theorem ordered_writer (h : Ordered m) (he : WriterEffect c contents m t) : Ordered t := by
  cases he with
  | opened conn hs hw => exact ordered_openOk h hs hw
  | returned hw =>
    exact ordered_same h ⟨conns_endWriter m rfl,rfl,.inl rfl,fun hopening => by cases hopening⟩
  | skipped send rx hw hrx => exact ⟨h.increasing,h.past,h.serving,h.opening⟩
  | taken send resp rx buf hw hr hbuf =>
    exact ordered_setWriter h _ rx (by rw [hw]; rfl) (by simp)
  | wrote send len buf chunk len' buf' hw hchunk hsplit =>
    refine ordered_setWriter h (.writing (send.write chunk (len' ++ buf')) len' buf') m.rx ?_
      (by simp)
    rw [hw]
    exact congrArg some (conn_write _ _ _)
  | framed send hw =>
    exact ordered_setWriter h (.receiving send) m.rx (by rw [hw]; rfl) (by simp)

theorem ordered_step {a : Action} {out : List T} (h : Ordered m) (hm : Mirrored c start contents m)
    (hstep : step c shutdown contents m a = some (t,out)) : Ordered t := by
  rcases step_cases hstep with ⟨b,_,he,_⟩ | ⟨hw,_⟩ | hr
  · exact ordered_run h hm he
  · exact ordered_writer h hw
  · exact ordered_readersOnly h hr.readersOnly

end Order

section Reconnects

variable {T : Type} {c : Codec T}

structure Faithful (c : Codec T) (start : Nat) (s : System T) : Prop where
  mirrored : Mirrored c start s.sent s.mirror
  ordered : Ordered s.mirror

theorem faithful_step {s t : System T} {start : Nat} {a : System.Action T}
    (h : Faithful c start s) (hstep : System.step c s a = some t) : Faithful c start t := by
  cases a with
  | exit =>
    cases hstep
    exact ⟨h.mirrored,h.ordered⟩
  | broadcast resp =>
    cases hstep
    exact ⟨mirrored_send h.mirrored [resp],h.ordered⟩
  | mirror a =>
    obtain ⟨u,hu,rfl⟩ := Option.map_eq_some_iff.mp hstep
    exact ⟨mirrored_step h.mirrored hu,ordered_step h.ordered h.mirrored hu⟩

theorem readBundleStream_framed {send : SendStream T} (h : Framed c send)
    (hencodable : ∀ x ∈ send.started, Encodable c x.1) :
    readBundleStream c send.written = send.complete.map Prod.fst := by
  obtain ⟨tail,hwritten,htail⟩ := h.bytes
  have hcomplete : ∀ resp ∈ send.complete.map Prod.fst, Encodable c resp := by
    intro resp hresp
    obtain ⟨x,hx,rfl⟩ := List.mem_map.mp hresp
    exact hencodable x (List.mem_append_left _ hx)
  rw [hwritten]
  cases htorn : send.torn with
  | none =>
    rw [htorn] at htail
    obtain rfl : tail = [] := htail
    exact readBundleStream_mirrored hcomplete (Nat.zero_le _) (torn_nil (by decide) [])
  | some x =>
    rw [htorn] at htail
    obtain ⟨buf,hbuf,htorn'⟩ := htail
    obtain ⟨buf',hbuf',hle⟩ := hencodable x (List.mem_append_right _ (by rw [htorn]; simp))
    rw [hbuf] at hbuf'
    cases hbuf'
    exact readBundleStream_mirrored hcomplete hle htorn'

theorem bundles_mirrored_across_reconnects (c : Codec T) (before : List T)
    (as : List (System.Action T)) (s : System T)
    (hrun : run (System.step c) (System.init before) as = some s) :
    (s.mirror.sendStreams.flatMap SendStream.started).Sublist
      (s.sent.zipIdx.drop before.length) ∧
    (s.mirror.sendStreams.map SendStream.conn).Pairwise (· < ·) ∧
    (∀ send ∈ s.mirror.sendStreams, Framed c send) ∧
    ((∀ resp ∈ s.sent, Encodable c resp) → ∀ send ∈ s.mirror.sendStreams,
      readBundleStream c send.written = send.complete.map Prod.fst) := by
  have hfaithful : Faithful c before.length s :=
    run_invariant (fun _ _ _ => faithful_step) ⟨mirrored_init before,ordered_init _⟩ hrun
  refine ⟨taken_sublist hfaithful.mirrored.follows,hfaithful.ordered.increasing,
    hfaithful.mirrored.framed,fun hsent send hsend => ?_⟩
  refine readBundleStream_framed (hfaithful.mirrored.framed send hsend) (fun x hx => ?_)
  have hstarted : x ∈ s.mirror.started := List.mem_flatMap.mpr ⟨send,hsend,hx⟩
  exact hsent x.1 (List.mem_of_getElem? (taken_mem hfaithful.mirrored.follows hstarted))

end Reconnects

section CutConnection

def connect : List (System.Action Bytes) :=
  [.mirror (.run .loopCheck),.mirror (.run .connectOk),.mirror (.writer .openOk)]

def cutAfterLength : List (System.Action Bytes) :=
  .mirror (.run .endpointOk) :: connect ++ [.broadcast [1],.mirror (.writer .recv),
    .mirror (.writer (.write 4)),.mirror (.run (.branchEnds .readFilters)),.mirror (.run .clear),
    .mirror (.run .pauseCheck),.mirror (.run .wake)] ++ connect ++ [.broadcast [2],.mirror (.writer .recv),
    .mirror (.writer (.write 3)),.mirror (.writer (.write 1)),.mirror (.writer (.write 1)),
    .mirror (.writer .wrote)]

theorem cut_frame_not_repeated :
    ∃ s, run (System.step bytesCodec) (System.init [[9]]) cutAfterLength = some s ∧
      s.mirror.sendStreams = [⟨0,[],some ([1],1),[1,0,0,0]⟩,⟨1,[([2],2)],none,[1,0,0,0,2]⟩] ∧
      (s.mirror.sendStreams.flatMap SendStream.started).Sublist (s.sent.zipIdx.drop 1) := by
  obtain ⟨s,hs,hstreams⟩ := exists_run_of_map (System.step bytesCodec) (System.init [[9]])
    cutAfterLength (fun s => decide (s.mirror.sendStreams =
      [⟨0,[],some ([1],1),[1,0,0,0]⟩,⟨1,[([2],2)],none,[1,0,0,0,2]⟩])) (by decide)
  exact ⟨s,hs,of_decide_eq_true hstreams,
    (bundles_mirrored_across_reconnects bytesCodec [[9]] cutAfterLength s hs).1⟩

end CutConnection

end InertiaRelayer.Mirror
