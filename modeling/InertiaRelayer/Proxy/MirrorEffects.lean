import InertiaRelayer.Proxy.Mirror

namespace InertiaRelayer.Mirror
open Frames Broadcast

def RunPhase.stored : RunPhase → Option Nat
  | .serving conn => some conn
  | .closing conn => some conn
  | _ => none

section Effects

variable {T : Type}

inductive RunEffect (m : State T) : RunAction → State T → Prop
  | moved (a : RunAction) (phase : RunPhase) (backoff : Nat) (hs : m.phase.stored = none)
      (hp : phase.stored = none) : RunEffect m a { m.enter phase with backoff := backoff }
  | connected (hs : m.phase.stored = none) :
      RunEffect m .connectOk { m with
        phase := .serving m.nextConn
        backoff := backoffInitial
        conn := some m.nextConn
        nextConn := m.nextConn + 1
        writer := .opening }
  | ended (branch : Branch) (conn : Nat) (hs : m.phase = .serving conn) :
      RunEffect m (.branchEnds branch) ((m.endWriter .idle).enter (.closing conn))
  | cleared (conn : Nat) (hs : m.phase = .closing conn) :
      RunEffect m .clear { m.enter .pausing with conn := none }

variable {c : Codec T} {shutdown : Bool} {contents : List T} {m t : State T}

theorem runEffect_enter {a : RunAction} {phase next : RunPhase} (hphase : m.phase = phase)
    (hs : phase.stored = none) (hp : next.stored = none) : RunEffect m a (m.enter next) :=
  .moved a next m.backoff (hphase ▸ hs) hp

theorem runStep_effect {a : RunAction} (hstep : runStep shutdown m a = some t) :
    RunEffect m a t := by
  cases a with
  | endpointOk | endpointFailed =>
    simp only [runStep] at hstep
    split at hstep
    · rename_i hphase
      cases hstep
      exact runEffect_enter hphase rfl rfl
    · cases hstep
  | loopCheck =>
    simp only [runStep] at hstep
    split at hstep
    · rename_i hphase
      cases hstep
      exact runEffect_enter hphase rfl (by split <;> rfl)
    · cases hstep
  | connectOk =>
    simp only [runStep] at hstep
    split at hstep
    · rename_i hphase
      cases hstep
      exact .connected (by rw [hphase]; rfl)
    · cases hstep
  | connectFailed =>
    simp only [runStep] at hstep
    split at hstep
    · rename_i hphase
      cases hstep
      exact runEffect_enter hphase rfl rfl
    · cases hstep
  | branchEnds branch =>
    simp only [runStep] at hstep
    split at hstep
    · rename_i conn hphase
      split at hstep
      · cases hstep
        exact .ended branch conn hphase
      · cases hstep
    · cases hstep
  | clear =>
    simp only [runStep] at hstep
    split at hstep
    · rename_i conn hphase
      cases hstep
      exact .cleared conn hphase
    · cases hstep
  | pauseCheck =>
    simp only [runStep] at hstep
    split at hstep
    · rename_i hphase
      cases hstep
      exact runEffect_enter hphase rfl (by split <;> rfl)
    · cases hstep
  | wake =>
    simp only [runStep] at hstep
    split at hstep
    · rename_i hphase
      cases hstep
      exact .moved _ .looping _ (by rw [hphase]; rfl) rfl
    · cases hstep

inductive ReadEffect (c : Codec T) (m : State T) : State T → List T → Prop
  | accepted (conn : Nat) (hs : m.phase = .serving conn) :
      ReadEffect c m { m with readers := m.readers ++ [⟨conn,.checking,[],[],false⟩] } []
  | changed (i : Nat) (r next : Reader) (more : Bytes) (hr : m.readers[i]? = some r)
      (hconn : next.conn = r.conn) (harrived : next.arrived = r.arrived ++ more)
      (hunread : next.unread = r.unread ++ more)
      (hreturned : r.phase = .returned → next.phase = .returned) :
      ReadEffect c m (m.setReader i next) []
  | framed (i : Nat) (r : Reader) (buf rest : Bytes) (hr : m.readers[i]? = some r)
      (hs : r.phase = .reading) (hread : readBundleFrame r.unread = some (buf,rest)) :
      ReadEffect c m
        { m.setReader i { r with phase := .checking, unread := rest } with
          delivered := m.delivered ++
            (c.decode buf).toList.map fun resp => ⟨i,r.conn,m.conn,resp⟩ }
        (c.decode buf).toList

theorem acceptStep_effect (hstep : acceptStep m = some t) : ReadEffect c m t [] := by
  unfold acceptStep at hstep
  split at hstep
  · rename_i conn hphase
    cases hstep
    exact .accepted conn hphase
  · cases hstep

theorem readEffect_phase {i : Nat} {r : Reader} (hr : m.readers[i]? = some r) (phase : ReaderPhase)
    (hphase : r.phase = .returned → phase = .returned) :
    ReadEffect c m (m.setReader i { r with phase := phase }) [] :=
  .changed i r _ [] hr rfl (List.append_nil _).symm (List.append_nil _).symm hphase

theorem frameStep_effect {i : Nat} {r : Reader} {out : List T} (hr : m.readers[i]? = some r)
    (hs : r.phase = .reading) (hstep : frameStep c m i r = some (t,out)) :
    ReadEffect c m t out := by
  unfold frameStep at hstep
  split at hstep
  · cases hstep
  · rename_i buf rest hread
    have heffect := ReadEffect.framed (c := c) i r buf rest hr hs hread
    split at hstep
    · rename_i hdecode
      cases hstep
      rw [hdecode, Option.toList_none, List.map_nil, List.append_nil] at heffect
      exact heffect
    · rename_i resp hdecode
      cases hstep
      rw [hdecode] at heffect
      exact heffect

theorem readerStep_effect {i : Nat} {r : Reader} {a : ReaderAction} {out : List T}
    (hr : m.readers[i]? = some r) (hstep : readerStep c shutdown m i r a = some (t,out)) :
    ReadEffect c m t out := by
  cases a with
  | arrive bytes =>
    simp only [readerStep] at hstep
    split at hstep
    · cases hstep
    · cases hstep
      exact .changed i r _ bytes hr rfl rfl rfl id
  | streamEnds =>
    cases hstep
    exact .changed i r _ [] hr rfl (List.append_nil _).symm (List.append_nil _).symm id
  | check =>
    simp only [readerStep] at hstep
    split at hstep
    · rename_i hs
      cases hstep
      exact readEffect_phase hr _ (fun h => by cases hs.symm.trans h)
    · cases hstep
  | frame =>
    simp only [readerStep] at hstep
    split at hstep
    · rename_i hs
      exact frameStep_effect hr hs hstep
    · cases hstep
  | fail =>
    simp only [readerStep] at hstep
    split at hstep
    · split at hstep
      · cases hstep
        exact readEffect_phase hr _ (fun _ => rfl)
      · cases hstep
    · cases hstep
  | lost =>
    simp only [readerStep] at hstep
    split at hstep
    · cases hstep
      exact readEffect_phase hr _ (fun _ => rfl)
    · cases hstep

inductive WriterEffect (c : Codec T) (contents : List T) (m : State T) : State T → Prop
  | opened (conn : Nat) (hs : m.phase = .serving conn) (hw : m.writer = .opening) :
      WriterEffect c contents m (m.setWriter (.receiving (.opened conn)))
  | returned (hw : m.writer ≠ .idle) : WriterEffect c contents m (m.endWriter .returned)
  | skipped (send : SendStream T) (rx : Receiver) (hw : m.writer = .receiving send)
      (hrx : Skips contents m.rx rx) : WriterEffect c contents m { m with rx := rx }
  | taken (send : SendStream T) (resp : T) (rx : Receiver) (buf : Bytes)
      (hw : m.writer = .receiving send) (hr : recv contents m.rx = some (resp,rx))
      (hbuf : c.encode resp = some buf) :
      WriterEffect c contents m
        { m.setWriter (.writing (send.take (resp,m.rx.cursor)) (lenPrefix buf) buf) with rx := rx }
  | wrote (send : SendStream T) (len buf chunk len' buf' : Bytes)
      (hw : m.writer = .writing send len buf) (hchunk : chunk ≠ [])
      (hsplit : len ++ buf = chunk ++ (len' ++ buf')) :
      WriterEffect c contents m
        (m.setWriter (.writing (send.write chunk (len' ++ buf')) len' buf'))
  | framed (send : SendStream T) (hw : m.writer = .writing send [] []) :
      WriterEffect c contents m (m.setWriter (.receiving send))

theorem writerEffect_returned {writer : Writer T} (hw : m.writer = writer) (hne : writer ≠ .idle) :
    WriterEffect c contents m (m.endWriter .returned) :=
  .returned (hw ▸ hne)

theorem receiveStep_effect {send : SendStream T} (hw : m.writer = .receiving send)
    (hstep : receiveStep c contents m send = some t) : WriterEffect c contents m t := by
  unfold receiveStep at hstep
  split at hstep
  · cases hstep
  · rename_i resp rx hr
    split at hstep
    · cases hstep
      exact .skipped send rx hw (skips_recv hr)
    · rename_i buf hbuf
      cases hstep
      exact .taken send resp rx buf hw hr hbuf

theorem take_ne_nil {n : Nat} {bytes : Bytes} (h : 0 < n ∧ n ≤ bytes.length) :
    bytes.take n ≠ [] := by
  intro hnil
  have hlen := congrArg List.length hnil
  rw [List.length_take_of_le h.2, List.length_nil] at hlen
  omega

theorem writeStep_effect {send : SendStream T} {len buf : Bytes} {n : Nat}
    (hw : m.writer = .writing send len buf) (hstep : writeStep m send len buf n = some t) :
    WriterEffect c contents m t := by
  unfold writeStep at hstep
  split at hstep
  · split at hstep
    · rename_i hn
      cases hstep
      exact .wrote send [] buf (buf.take n) [] (buf.drop n) hw (take_ne_nil hn)
        (List.take_append_drop n buf).symm
    · cases hstep
  · split at hstep
    · rename_i hn
      cases hstep
      refine .wrote send len buf (len.take n) (len.drop n) buf hw (take_ne_nil hn) ?_
      rw [← List.append_assoc, List.take_append_drop]
    · cases hstep

theorem writerStep_effect {a : WriterAction}
    (hstep : writerStep c shutdown contents m a = some t) : WriterEffect c contents m t := by
  cases a with
  | openOk =>
    simp only [writerStep] at hstep
    split at hstep
    · rename_i conn hphase hw
      cases hstep
      exact .opened conn hphase hw
    · cases hstep
  | recv =>
    simp only [writerStep] at hstep
    split at hstep
    · rename_i send hw
      exact receiveStep_effect hw hstep
    · cases hstep
  | lagged n =>
    simp only [writerStep] at hstep
    split at hstep
    · rename_i send hw
      obtain ⟨rx,hl,rfl⟩ := Option.map_eq_some_iff.mp hstep
      exact .skipped send rx hw (skips_lag hl)
    · cases hstep
  | write n =>
    simp only [writerStep] at hstep
    split at hstep
    · rename_i send len buf hw
      exact writeStep_effect hw hstep
    · cases hstep
  | wrote =>
    simp only [writerStep] at hstep
    split at hstep
    · rename_i send hw
      cases hstep
      exact .framed send hw
    · cases hstep
  | shutdown =>
    simp only [writerStep] at hstep
    split at hstep
    · rename_i send hw
      split at hstep
      · cases hstep
        exact writerEffect_returned hw (by simp)
      · cases hstep
    · cases hstep
  | openFailed | closed | writeFailed =>
    simp only [writerStep] at hstep
    split at hstep
    · rename_i hw
      cases hstep
      exact writerEffect_returned hw (by simp)
    · cases hstep

structure WriterOnly (m t : State T) : Prop where
  phase : t.phase = m.phase
  conn : t.conn = m.conn
  readers : t.readers = m.readers
  delivered : t.delivered = m.delivered

theorem WriterEffect.writerOnly (h : WriterEffect c contents m t) : WriterOnly m t := by
  cases h with
  | _ => exact ⟨rfl,rfl,rfl,rfl⟩

theorem step_cases {a : Action} {out : List T}
    (hstep : step c shutdown contents m a = some (t,out)) :
    (∃ b, a = .run b ∧ RunEffect m b t ∧ out = []) ∨
      (WriterEffect c contents m t ∧ out = []) ∨ ReadEffect c m t out := by
  cases a with
  | run b =>
    obtain ⟨u,hu,heq⟩ := Option.map_eq_some_iff.mp hstep
    cases heq
    exact .inl ⟨b,rfl,runStep_effect hu,rfl⟩
  | writer b =>
    obtain ⟨u,hu,heq⟩ := Option.map_eq_some_iff.mp hstep
    cases heq
    exact .inr (.inl ⟨writerStep_effect hu,rfl⟩)
  | acceptUni =>
    obtain ⟨u,hu,heq⟩ := Option.map_eq_some_iff.mp hstep
    cases heq
    exact .inr (.inr (acceptStep_effect hu))
  | reader i b =>
    simp only [step] at hstep
    split at hstep
    · cases hstep
    · rename_i r hr
      exact .inr (.inr (readerStep_effect hr hstep))

structure ReadersOnly (m t : State T) : Prop where
  phase : t.phase = m.phase
  nextConn : t.nextConn = m.nextConn
  rx : t.rx = m.rx
  writer : t.writer = m.writer
  streams : t.streams = m.streams

theorem ReadEffect.readersOnly {out : List T} (h : ReadEffect c m t out) : ReadersOnly m t := by
  cases h with
  | accepted => exact ⟨rfl,rfl,rfl,rfl,rfl⟩
  | changed => exact ⟨rfl,rfl,rfl,rfl,rfl⟩
  | framed => exact ⟨rfl,rfl,rfl,rfl,rfl⟩

end Effects

end InertiaRelayer.Mirror
