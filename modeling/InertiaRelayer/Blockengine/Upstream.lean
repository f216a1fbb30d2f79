import InertiaRelayer.Blockengine.Effects

namespace InertiaRelayer.Blockengine
open Machine Proxy

section Upstream

variable {T : Type} {w : Wiring T} {s t : State T}

structure Held (st : Stream T) : Prop where
  attached : st.upstream = true → st.cancelled = false → st.pump = .running
  lost : st.pump = .lost → st.cancelled = true

def CancelledFirst (st : Stream T) : TaskAction → Prop
  | .pumpEnds => st.cancelled = true
  | _ => True

def UpstreamKept (s : State T) : Action T → Prop
  | .task i a => CancelledFirst (s.streams i) a
  | _ => True

instance (st : Stream T) : ∀ a, Decidable (CancelledFirst st a)
  | .pumpEnds => inferInstanceAs (Decidable (st.cancelled = true))
  | .upstreamOk | .upstreamDenied | .upstreamFailed | .drop | .pumpCancelled | .bridgeExit
  | .bridgeCancelled => .isTrue trivial

instance (s : State T) : ∀ a, Decidable (UpstreamKept s a)
  | .task i a => inferInstanceAs (Decidable (CancelledFirst (s.streams i) a))
  | .exit | .watch | .subscribe | .pumpItem .. | .poll .. | .lagged .. | .delay _ | .mirror _ =>
      .isTrue trivial

theorem held_of_cancelled {st : Stream T} (h : st.cancelled = true) : Held st where
  attached _ hc := by cases h.symm.trans hc
  lost _ := h

theorem held_of_proxyOnly {st : Stream T} (hu : st.upstream = false) (hp : st.pump = .none) :
    Held st where
  attached ha := by cases hu.symm.trans ha
  lost hl := by cases hp.symm.trans hl

theorem held_task {st next : Stream T} {a : TaskAction} (h : Held st)
    (hkept : CancelledFirst st a) (he : TaskEffect st a next) : Held next := by
  cases he with
  | served a upstream hp =>
    cases upstream with
    | true => exact ⟨fun _ _ => rfl,fun hlost => by cases hlost⟩
    | false => exact held_of_proxyOnly rfl rfl
  | refused hp => exact ⟨h.attached,h.lost⟩
  | dropped hp => exact held_of_cancelled rfl
  | lost hp => exact held_of_cancelled hkept
  | stopped hp hc => exact held_of_cancelled hc
  | exited hb => exact held_of_cancelled rfl
  | bridged hb hc => exact held_of_cancelled hc

theorem held_step {a : Action T} (h : ∀ i, Held (s.streams i)) (hkept : UpstreamKept s a)
    (hstep : step w s a = some t) : ∀ i, Held (t.streams i) := by
  cases step_effect hstep with
  | exited => exact h
  | watched => exact h
  | subscribed => exact setStream_forall (P := fun _ st => Held st) h (held_of_proxyOnly rfl rfl)
  | task i a st hst =>
    exact setStream_forall (P := fun _ st => Held st) h
      (held_task (h i) hkept (taskStep_effect hst))
  | pumped i item hp =>
    exact setStream_forall (P := fun _ st => Held st) h ⟨(h i).attached,(h i).lost⟩
  | ended i now hc =>
    exact setStream_forall (P := fun _ st => Held st) h ⟨(h i).attached,(h i).lost⟩
  | delivered i now out rx hp hc hr ht =>
    exact setStream_forall (P := fun _ st => Held st) h ⟨(h i).attached,(h i).lost⟩
  | lagged i n rx hp hl =>
    exact setStream_forall (P := fun _ st => Held st) h ⟨(h i).attached,(h i).lost⟩
  | delayed => exact h
  | mirrored => exact h

theorem poll_cancelled {i now : Nat} (hc : (s.streams i).cancelled = true)
    (hstep : step w s (.poll i now) = some t) :
    (t.streams i).ended = true ∧ (t.streams i).delivered = (s.streams i).delivered := by
  cases step_effect hstep with
  | ended i now hc => simp [State.setStream]
  | delivered i now out rx hp hc' hr ht =>
    rw [hc] at hc'
    cases hc'

theorem upstream_attached_of_kept (w : Wiring T) (as : List (Action T)) (s : State T)
    (hrun : run (step w) init as = some s) (hkept : Along (step w) UpstreamKept init as) (i : Nat) :
    ((s.streams i).upstream = true → (s.streams i).cancelled = false →
      (s.streams i).pump = .running) ∧
    ((s.streams i).pump = .lost → ∀ now t, step w s (.poll i now) = some t →
      (t.streams i).ended = true ∧ (t.streams i).delivered = (s.streams i).delivered) := by
  have hinit : ∀ i, Held ((init : State T).streams i) := fun _ => held_of_proxyOnly rfl rfl
  have hheld := run_invariant_along (I := fun s => ∀ i, Held (s.streams i))
    (fun _ _ _ => held_step) hinit hkept hrun
  exact ⟨(hheld i).attached,fun hlost now t hstep => poll_cancelled ((hheld i).lost hlost) hstep⟩

end Upstream

section LostUpstream

def openedStream : List (Action SubscribePacketsResponse) :=
  [.subscribe,.task 0 .upstreamOk]

theorem lost_upstream_stays_open :
    ∃ s, run (step packetWiring) init (openedStream ++ [.task 0 .pumpEnds]) = some s ∧
      (s.streams 0).upstream = true ∧ (s.streams 0).cancelled = false ∧
      (s.streams 0).pump = .lost ∧ ∀ now, step packetWiring s (.poll 0 now) = none := by
  obtain ⟨s,hs,hopen⟩ := exists_run_of_map (step packetWiring) init
    (openedStream ++ [.task 0 .pumpEnds]) (fun s => decide ((s.streams 0).phase = .serving ∧
      (s.streams 0).upstream = true ∧ (s.streams 0).cancelled = false ∧
      (s.streams 0).pump = .lost) && s.outbound.isEmpty) (by decide)
  obtain ⟨hflags,hempty⟩ := (Bool.and_eq_true _ _).mp hopen
  obtain ⟨hphase,hupstream,hcancelled,hpump⟩ := of_decide_eq_true hflags
  refine ⟨s,hs,hupstream,hcancelled,hpump,fun now => ?_⟩
  simp [step, pollStep, hphase, hcancelled, List.isEmpty_iff.mp hempty, Broadcast.recv]

def otherDropped : List (Action SubscribePacketsResponse) :=
  openedStream ++ [.subscribe,.task 1 .upstreamOk,.task 1 .drop,.task 1 .pumpEnds]

theorem open_stream_keeps_pump :
    ∃ s, run (step packetWiring) init otherDropped = some s ∧
      (s.streams 1).pump = .lost ∧ (s.streams 0).upstream = true ∧
      (s.streams 0).cancelled = false ∧ (s.streams 0).pump = .running := by
  obtain ⟨s,hs,hflags⟩ := exists_run_of_map (step packetWiring) init otherDropped
    (fun s => decide ((s.streams 1).pump = .lost ∧ (s.streams 0).upstream = true ∧
      (s.streams 0).cancelled = false)) (by decide)
  obtain ⟨hlost,hupstream,hcancelled⟩ := of_decide_eq_true hflags
  obtain ⟨hattached,_⟩ := upstream_attached_of_kept packetWiring otherDropped s hs (by decide) 0
  exact ⟨s,hs,hlost,hupstream,hcancelled,hattached hupstream hcancelled⟩

end LostUpstream

end InertiaRelayer.Blockengine
