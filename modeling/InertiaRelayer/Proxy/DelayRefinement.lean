import InertiaRelayer.Proxy.DelayLoop

namespace InertiaRelayer.Proxy
open Machine

section Effects

variable {E T : Type} (delay : Nat) (onRelease : E → T → T)

def RelayerDelay.arrivedBy : RelayerDelay.Action E T → List (Nat × T)
  | .recvOk received batch => [(received,batch)]
  | _ => []

def RelayerDelay.hookedBy : RelayerDelay.Action E T → List E
  | .send env _ => [env]
  | _ => []

def DelayForward.arrivedBy : DelayForward.Action E T → List (Nat × T)
  | .recvOk received resp => [(received,resp)]
  | _ => []

def DelayForward.hookedBy : DelayForward.Action E T → List E
  | .send env => [env]
  | _ => []

inductive Effect (s : DelayState E T) : List (Nat × T) → List E → DelayState E T → Prop
  | moved (phase : Phase) (hp : phase.drain = none)
      (hd : ∀ now, s.phase = .draining now → phase = .receiving → s.due now = false) :
      Effect s [] [] (s.enter phase)
  | read (t : Nat) (phase : Phase) (hle : s.clock ≤ t) (hs : s.phase.drain = none)
      (hp : ∀ now, phase.drain = some now → now = t) :
      Effect s [] [] ({ s with clock := t }.enter phase)
  | received (t : Nat) (x : T) (phase : Phase) (hle : s.clock ≤ t) (hs : s.phase.drain = none)
      (hp : phase.drain = none) :
      Effect s [(t,x)] [] (({ s with clock := t }.receive delay t x).enter phase)
  | released (now : Nat) (env : E) (t : DelayState E T) (phase : Phase)
      (hs : s.phase = .draining now) (hr : s.release onRelease now env = some t)
      (hp : phase = .draining now ∨ phase = .ended) : Effect s [] [env] (t.enter phase)

variable {delay onRelease} {s t : DelayState E T} {arrivals : List (Nat × T)} {envs : List E}

theorem read_some {now : Nat} (h : s.read now = some t) :
    s.clock ≤ now ∧ t = { s with clock := now } := by
  unfold Loop.read at h
  split at h
  · rename_i hle
    exact ⟨hle,(Option.some.inj h).symm⟩
  · cases h

theorem release_some {now : Nat} {env : E} (h : s.release onRelease now env = some t) :
    ∃ due x rest, s.queue = (due,x) :: rest ∧ due ≤ now ∧ t = { s with
      queue := rest
      popped := s.popped ++ [⟨due,now,env,x⟩]
      sends := s.sends ++ [onRelease env x] } := by
  unfold Loop.release at h
  split at h
  · cases h
  · rename_i due x rest hq
    split at h
    · rename_i hle
      exact ⟨due,x,rest,hq,hle,(Option.some.inj h).symm⟩
    · cases h

theorem relayer_loopHead_effect {a : RelayerDelay.Action E T} (hs : s.phase = .receiving)
    (h : RelayerDelay.loopHead s a = some t) :
    Effect delay onRelease s (RelayerDelay.arrivedBy a) (RelayerDelay.hookedBy a) t := by
  cases a with
  | exit =>
    cases h
    exact .moved .ended rfl nofun
  | wait asked =>
    obtain ⟨u,hu,h⟩ := Option.bind_eq_some_iff.mp h
    obtain ⟨hle,rfl⟩ := read_some hu
    cases h
    exact .read asked _ hle (by rw [hs]; rfl) nofun
  | _ => cases h

theorem relayer_receive_effect {a : RelayerDelay.Action E T} {deadline : Nat}
    (hs : s.phase = .waiting deadline) (h : RelayerDelay.receive delay s deadline a = some t) :
    Effect delay onRelease s (RelayerDelay.arrivedBy a) (RelayerDelay.hookedBy a) t := by
  have hidle : s.phase.drain = none := by rw [hs]; rfl
  cases a with
  | recvOk received batch =>
    obtain ⟨u,hu,h⟩ := Option.bind_eq_some_iff.mp h
    obtain ⟨hle,rfl⟩ := read_some hu
    cases h
    exact .received received batch .sweeping hle hidle rfl
  | recvTimeout returned =>
    simp only [RelayerDelay.receive] at h
    split at h
    · obtain ⟨u,hu,h⟩ := Option.bind_eq_some_iff.mp h
      obtain ⟨hle,rfl⟩ := read_some hu
      cases h
      exact .read returned .sweeping hle hidle nofun
    · cases h
  | recvDisconnected =>
    cases h
    exact .moved .ended rfl nofun
  | _ => cases h

theorem drained_effect {now : Nat} (hs : s.phase = .draining now)
    (h : (if s.due now then none else some (s.enter .receiving)) = some t) :
    Effect delay onRelease s [] [] t := by
  split at h
  · cases h
  · rename_i hdue
    cases h
    refine .moved .receiving rfl ?_
    intro now' hs' _
    cases hs.symm.trans hs'
    simpa using hdue

theorem relayer_effect {a : RelayerDelay.Action E T}
    (h : RelayerDelay.step delay onRelease s a = some t) :
    Effect delay onRelease s (RelayerDelay.arrivedBy a) (RelayerDelay.hookedBy a) t := by
  unfold RelayerDelay.step at h
  split at h
  · rename_i hs
    exact relayer_loopHead_effect hs h
  · rename_i deadline hs
    exact relayer_receive_effect hs h
  · rename_i hs
    split at h
    · cases h
      exact .moved .reading rfl nofun
    · cases h
  · rename_i hs
    split at h
    · rename_i now
      obtain ⟨u,hu,h⟩ := Option.bind_eq_some_iff.mp h
      obtain ⟨hle,rfl⟩ := read_some hu
      cases h
      refine .read now (.draining now) hle (by rw [hs]; rfl) ?_
      intro now' hn
      exact (Option.some.inj hn).symm
    · cases h
  · rename_i now hs
    cases a with
    | send env isErr =>
      obtain ⟨u,hu,h⟩ := Option.bind_eq_some_iff.mp h
      cases h
      refine .released now env u _ hs hu ?_
      cases isErr
      · exact .inl rfl
      · exact .inr rfl
    | drained => exact drained_effect hs h
    | _ => cases h
  · cases h

theorem forward_effect {a : DelayForward.Action E T}
    (h : DelayForward.step delay onRelease s a = some t) :
    Effect delay onRelease s (DelayForward.arrivedBy a) (DelayForward.hookedBy a) t := by
  unfold DelayForward.step at h
  split at h
  · rename_i hs
    have hidle : s.phase.drain = none := by rw [hs]; rfl
    cases a with
    | shutdown =>
      cases h
      exact .moved .ended rfl nofun
    | releaseDue now =>
      simp only [DelayForward.select] at h
      split at h
      · obtain ⟨u,hu,h⟩ := Option.bind_eq_some_iff.mp h
        obtain ⟨hle,rfl⟩ := read_some hu
        cases h
        refine .read now (.draining now) hle hidle ?_
        intro now' hn
        exact (Option.some.inj hn).symm
      · cases h
    | recvOk received resp =>
      obtain ⟨u,hu,h⟩ := Option.bind_eq_some_iff.mp h
      obtain ⟨hle,rfl⟩ := read_some hu
      cases h
      have heffect : Effect delay onRelease s [(received,resp)] []
          (({ s with clock := received }.receive delay received resp).enter s.phase) :=
        .received received resp s.phase hle hidle hidle
      exact heffect
    | recvLagged count =>
      cases h
      exact Effect.moved s.phase hidle (fun now hn => by rw [hs] at hn; cases hn)
    | recvClosed =>
      cases h
      exact .moved .ended rfl nofun
    | _ => cases h
  · rename_i now hs
    split at h
    · rename_i env
      have heffect : Effect delay onRelease s [] [env] (t.enter s.phase) :=
        .released now env t s.phase hs h (.inl hs)
      obtain ⟨_,_,_,_,_,rfl⟩ := release_some h
      exact heffect
    · exact drained_effect hs h
    · cases h
  · cases h

theorem effect_arrived (h : Effect delay onRelease s arrivals envs t) :
    t.arrived = s.arrived ++ arrivals := by
  cases h with
  | moved | read => exact (List.append_nil _).symm
  | received => rfl
  | released now env u phase hs hr hp =>
    obtain ⟨due,x,rest,hq,hle,rfl⟩ := release_some hr
    exact (List.append_nil _).symm

theorem effect_hooked (h : Effect delay onRelease s arrivals envs t) :
    t.popped.map Popped.env = s.popped.map Popped.env ++ envs := by
  cases h with
  | moved | read | received => exact (List.append_nil _).symm
  | released now env u phase hs hr hp =>
    obtain ⟨due,x,rest,hq,hle,rfl⟩ := release_some hr
    simp [Loop.enter]

end Effects

section Refinement

variable {E T : Type} {delay : Nat} {onRelease : E → T → T} {s t : DelayState E T}
  {arrivals : List (Nat × T)} {envs : List E}

def Synced (s : DelayState E T) : Prop := ∀ now, s.phase.drain = some now → s.clock = now

structure Hooked (onRelease : E → T → T) (s : DelayState E T) : Prop where
  synced : Synced s
  mirrored : s.mirrored = s.arrived.map Prod.snd
  sent : s.sends = s.popped.map fun p => onRelease p.env p.item

theorem hooked_effect (hs : Hooked onRelease s) (h : Effect delay onRelease s arrivals envs t) :
    Hooked onRelease t := by
  cases h with
  | moved phase hp hd =>
    refine ⟨?_,hs.mirrored,hs.sent⟩
    intro n hn
    cases hp.symm.trans hn
  | read now phase hle hidle hp => exact ⟨fun n hn => (hp n hn).symm,hs.mirrored,hs.sent⟩
  | received now x phase hle hidle hp =>
    refine ⟨?_,?_,hs.sent⟩
    · intro n hn
      cases hp.symm.trans hn
    · simp [Loop.enter, Loop.receive, hs.mirrored]
  | released now env u phase hphase hr hp =>
    obtain ⟨due,x,rest,hq,hle,rfl⟩ := release_some hr
    refine ⟨?_,hs.mirrored,by simp [Loop.enter, hs.sent]⟩
    intro n hn
    have hclock := hs.synced now (by rw [hphase]; rfl)
    rcases hp with rfl | rfl
    · exact hclock.trans (Option.some.inj hn)
    · cases hn

theorem simulates_effect (hs : Hooked onRelease s)
    (h : Effect delay onRelease s arrivals envs t) :
    ∃ es, run (DelayLine.step delay) s.toLine es = some t.toLine := by
  cases h with
  | moved phase hp hd => exact ⟨[],rfl⟩
  | read now phase hle hidle hp =>
    exact ⟨[.tick now],by simp [run, DelayLine.step, Loop.toLine, Loop.enter, hle]⟩
  | received now x phase hle hidle hp =>
    exact ⟨[.arrive now x],
      by simp [run, DelayLine.step, Loop.toLine, Loop.enter, Loop.receive, hle]⟩
  | released now env u phase hphase hr hp =>
    obtain ⟨due,x,rest,hq,hle,rfl⟩ := release_some hr
    have hclock := hs.synced now (by rw [hphase]; rfl)
    exact ⟨[.emit now],
      by simp [run, DelayLine.step, Loop.toLine, Loop.enter, hq, hle, hclock]⟩

theorem popped_past_effect (hs : Hooked onRelease s) (hp : ∀ p ∈ s.popped, p.time ≤ s.clock)
    (h : Effect delay onRelease s arrivals envs t) : ∀ p ∈ t.popped, p.time ≤ t.clock := by
  cases h with
  | moved phase hphase hd => exact hp
  | read now phase hle hidle hphase => exact fun p hmem => (hp p hmem).trans hle
  | received now x phase hle hidle hphase => exact fun p hmem => (hp p hmem).trans hle
  | released now env u phase hphase hr hnext =>
    obtain ⟨due,x,rest,hq,hle,rfl⟩ := release_some hr
    have hclock := hs.synced now (by rw [hphase]; rfl)
    intro p hmem
    rcases List.mem_append.mp hmem with hmem | hmem
    · exact hp p hmem
    · rw [List.mem_singleton.mp hmem]
      exact hclock.ge

structure Conforms (delay : Nat) (onRelease : E → T → T) (arrivals : List (Nat × T))
    (envs : List E) (s : DelayState E T) : Prop where
  arrived : s.arrived = arrivals
  received : arrivals.map Prod.snd = s.popped.map Popped.item ++ s.queue.map Prod.snd
  sorted : s.queue.Pairwise fun a b => a.1 ≤ b.1
  mirrored : s.mirrored = arrivals.map Prod.snd
  delayed : arrivals.map (fun a => (a.1 + delay,a.2)) =
    s.popped.map (fun p => (p.due,p.item)) ++ s.queue
  timely : ∀ p ∈ s.popped, p.due ≤ p.time
  hooked : s.popped.map Popped.env = envs
  sent : s.sends = s.popped.map fun p => onRelease p.env p.item

theorem conforms_of_line (hs : Hooked onRelease s) (hl : DelayLine.Lawful delay s.toLine) :
    Conforms delay onRelease s.arrived (s.popped.map Popped.env) s where
  arrived := rfl
  received := by
    have h := DelayLine.items_conserved hl
    simpa [Loop.toLine, List.map_map, Function.comp_def] using h
  sorted := DelayLine.waiting_sorted hl
  mirrored := hs.mirrored
  delayed := by
    have h := hl.conserved
    simpa [Loop.toLine, List.map_map, Function.comp_def] using h
  timely p hp := hl.timely ⟨p.due,p.time,p.item⟩ (List.mem_map.mpr ⟨p,hp,rfl⟩)
  hooked := rfl
  sent := hs.sent

def DrainsDue (s t : DelayState E T) : Prop :=
  ∀ now, s.phase = .draining now → t.phase = .receiving → ∀ x ∈ t.queue, now < x.1

theorem later_of_not_due {now : Nat} (hsorted : s.queue.Pairwise fun a b => a.1 ≤ b.1)
    (hdue : s.due now = false) : ∀ x ∈ s.queue, now < x.1 := by
  unfold Loop.due at hdue
  cases hq : s.queue with
  | nil => simp
  | cons head rest =>
    rw [hq] at hsorted hdue
    have hhead : now < head.1 := by simpa using hdue
    intro x hx
    rcases List.mem_cons.mp hx with rfl | hx
    · exact hhead
    · exact hhead.trans_le ((List.pairwise_cons.mp hsorted).1 x hx)

theorem drainsDue_effect (hsorted : s.queue.Pairwise fun a b => a.1 ≤ b.1)
    (h : Effect delay onRelease s arrivals envs t) : DrainsDue s t := by
  intro now hphase hnext
  cases h with
  | moved phase hp hd => exact later_of_not_due hsorted (hd now hphase hnext)
  | read n phase hle hidle hp =>
    rw [hphase] at hidle
    cases hidle
  | received n x phase hle hidle hp =>
    rw [hphase] at hidle
    cases hidle
  | released n env u phase _ hr hp =>
    rcases hp with rfl | rfl
    · cases hnext
    · cases hnext

def DelaysThrough {α : Type} (delay : Nat) (onRelease : E → T → T)
    (step : DelayState E T → α → Option (DelayState E T)) (arrivedBy : α → List (Nat × T))
    (hookedBy : α → List E) (init : DelayState E T) : Prop :=
  ∀ as s, run step init as = some s →
    Reachable (DelayLine.step delay) init.toLine s.toLine ∧
      Conforms delay onRelease (as.flatMap arrivedBy) (as.flatMap hookedBy) s ∧
      ∀ a t, step s a = some t → DrainsDue s t

theorem delaysThrough_of_effect {α : Type} {phase : Phase} {arrivedBy : α → List (Nat × T)}
    {hookedBy : α → List E} {step : DelayState E T → α → Option (DelayState E T)}
    (hstep : ∀ s a t, step s a = some t → Effect delay onRelease s (arrivedBy a) (hookedBy a) t)
    (hphase : phase.drain = none) :
    DelaysThrough delay onRelease step arrivedBy hookedBy (Loop.start E T phase) := by
  intro as s hrun
  have hsynced : Synced (Loop.start E T phase) := by
    intro now hnow
    cases hphase.symm.trans hnow
  have hinit : Hooked onRelease (Loop.start E T phase) := ⟨hsynced,rfl,rfl⟩
  have hhooked : Hooked onRelease s :=
    run_invariant (fun s a t hs h => hooked_effect hs (hstep s a t h)) hinit hrun
  have hline : Reachable (DelayLine.step delay) (Loop.start E T phase).toLine s.toLine :=
    reachable_simulation Loop.toLine hinit (fun s a t hs h => hooked_effect hs (hstep s a t h))
      (fun s a t hs h => simulates_effect hs (hstep s a t h)) ⟨as,hrun⟩
  have harrived : s.arrived = as.flatMap arrivedBy :=
    log_of_actions Loop.arrived (fun s a t h => effect_arrived (hstep s a t h)) hrun
  have henvs : s.popped.map Popped.env = as.flatMap hookedBy :=
    log_of_actions (fun s => s.popped.map Popped.env)
      (fun s a t h => effect_hooked (hstep s a t h)) hrun
  have hconforms := conforms_of_line hhooked (DelayLine.lawful_reachable hline)
  rw [harrived, henvs] at hconforms
  exact ⟨hline,hconforms,fun a t h => drainsDue_effect hconforms.sorted (hstep s a t h)⟩

theorem relayer_delaysThrough (delay : Nat) (onRelease : E → T → T) :
    DelaysThrough delay onRelease (RelayerDelay.step delay onRelease) RelayerDelay.arrivedBy
      RelayerDelay.hookedBy RelayerDelay.init :=
  delaysThrough_of_effect (fun _ _ _ => relayer_effect) rfl

theorem forward_delaysThrough (delay : Nat) (onRelease : E → T → T) :
    DelaysThrough delay onRelease (DelayForward.step delay onRelease) DelayForward.arrivedBy
      DelayForward.hookedBy DelayForward.init :=
  delaysThrough_of_effect (fun _ _ _ => forward_effect) rfl

theorem forward_popped_past (h : Reachable (DelayForward.step delay onRelease) DelayForward.init s) :
    ∀ p ∈ s.popped, p.time ≤ s.clock := by
  have hinit : Hooked onRelease (DelayForward.init : DelayState E T) := ⟨nofun,rfl,rfl⟩
  refine (reachable_invariant (I := fun s => Hooked onRelease s ∧ ∀ p ∈ s.popped, p.time ≤ s.clock)
    ⟨hinit,fun p hmem => by cases hmem⟩ ?_ h).2
  rintro s a t ⟨hs,hp⟩ hstep
  exact ⟨hooked_effect hs (forward_effect hstep),popped_past_effect hs hp (forward_effect hstep)⟩

theorem delay_loops_refine_delay_line (delay : Nat) (onRelease : E → T → T) :
    DelaysThrough delay onRelease (RelayerDelay.step delay onRelease) RelayerDelay.arrivedBy
        RelayerDelay.hookedBy RelayerDelay.init ∧
      DelaysThrough delay onRelease (DelayForward.step delay onRelease) DelayForward.arrivedBy
        DelayForward.hookedBy DelayForward.init :=
  ⟨relayer_delaysThrough delay onRelease,forward_delaysThrough delay onRelease⟩

end Refinement

section Sample

def relayedItems : List (RelayerDelay.Action Nat Nat) :=
  [.wait 0,.recvOk 3 7,.sweep,.readNow 4,.drained,.wait 5,.recvOk 9 8,.sweep,.readNow 10,.drained,
    .wait 11,.recvTimeout 13,.sweep,.readNow 14,.send 100 false,.drained]

def forwardedItems : List (DelayForward.Action Nat Nat) :=
  [.recvOk 3 7,.recvLagged 2,.recvOk 9 8,.releaseDue 14,.send 100,.drained]

theorem two_items_through_both_loops :
    (∃ s, run (RelayerDelay.step 10 Nat.add) RelayerDelay.init relayedItems = some s ∧
      Conforms 10 Nat.add [(3,7),(9,8)] [100] s ∧ s.sends = [107] ∧ s.queue = [(19,8)]) ∧
    ∃ s, run (DelayForward.step 10 Nat.add) DelayForward.init forwardedItems = some s ∧
      Conforms 10 Nat.add [(3,7),(9,8)] [100] s ∧ s.sends = [107] ∧ s.queue = [(19,8)] := by
  obtain ⟨hrelayer,hforward⟩ := delay_loops_refine_delay_line (E := Nat) (T := Nat) 10 Nat.add
  constructor
  · obtain ⟨s,hs,hf⟩ := exists_run_of_map (RelayerDelay.step 10 Nat.add) RelayerDelay.init
      relayedItems (fun s => decide (s.sends = [107] ∧ s.queue = [(19,8)])) (by decide)
    exact ⟨s,hs,(hrelayer relayedItems s hs).2.1,of_decide_eq_true hf⟩
  · obtain ⟨s,hs,hf⟩ := exists_run_of_map (DelayForward.step 10 Nat.add) DelayForward.init
      forwardedItems (fun s => decide (s.sends = [107] ∧ s.queue = [(19,8)])) (by decide)
    exact ⟨s,hs,(hforward forwardedItems s hs).2.1,of_decide_eq_true hf⟩

end Sample

end InertiaRelayer.Proxy
