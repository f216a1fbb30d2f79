import InertiaRelayer.Proxy.MirrorEffects
import Mathlib.Data.List.Chain

namespace InertiaRelayer.Mirror
open Machine

section Pace

variable {T : Type} {c : Codec T} {s t : System T} {a : System.Action T} {log : List Nat}

inductive Pace where
  | attempt
  | slept (ms : Nat)
deriving DecidableEq

def Pace.duration : Pace → Option Nat
  | .attempt => none
  | .slept ms => some ms

def paceAt (s : System T) : System.Action T → List Pace
  | .mirror (.run .loopCheck) =>
      match s.mirror.phase with
      | .looping => if s.shutdown then [] else [.attempt]
      | _ => []
  | .mirror (.run .pauseCheck) =>
      match s.mirror.phase with
      | .pausing => if s.shutdown then [] else [.slept s.mirror.backoff]
      | _ => []
  | _ => []

def NoConnect (_ : System T) (a : System.Action T) : Prop := a ≠ .mirror (.run .connectOk)

instance (s : System T) : ∀ a, Decidable (NoConnect s a)
  | .mirror (.run .connectOk) => .isFalse fun h => h rfl
  | .mirror (.run .endpointOk) | .mirror (.run .endpointFailed) | .mirror (.run .loopCheck)
  | .mirror (.run .connectFailed) | .mirror (.run (.branchEnds _)) | .mirror (.run .clear)
  | .mirror (.run .pauseCheck) | .mirror (.run .wake)
  | .mirror (.writer _) | .mirror .acceptUni | .mirror (.reader _ _) | .exit
  | .broadcast _ => .isTrue (by simp [NoConnect])

inductive Turn (a : System.Action T) (b : Nat) : RunPhase → List Pace → RunPhase → Nat → Prop
  | stays (p : RunPhase) : Turn a b p [] p b
  | starts : Turn a b .starting [] .looping b
  | returns : Turn a b .starting [] .stopped b
  | attempts : Turn a b .looping [.attempt] .connecting b
  | connects (n : Nat) (ha : a = .mirror (.run .connectOk)) :
      Turn a b .connecting [] (.serving n) backoffInitial
  | fails : Turn a b .connecting [] .pausing b
  | closes (n : Nat) : Turn a b (.serving n) [] (.closing n) b
  | clears (n : Nat) : Turn a b (.closing n) [] .pausing b
  | sleeps : Turn a b .pausing [.slept b] .sleeping b
  | wakes : Turn a b .sleeping [] .looping (min (b * 2) backoffMax)
  | leaves : Turn a b .looping [] .stopped b
  | breaks : Turn a b .pausing [] .stopped b

theorem writer_backoff {contents : List T} {m n : State T} (h : WriterEffect c contents m n) :
    n.backoff = m.backoff := by
  cases h with
  | _ => rfl

theorem read_backoff {m n : State T} {out : List T} (h : ReadEffect c m n out) :
    n.backoff = m.backoff := by
  cases h with
  | _ => rfl

theorem turn_run {b : RunAction} {m : State T} (hrun : runStep s.shutdown s.mirror b = some m) :
    Turn (.mirror (.run b) : System.Action T) s.mirror.backoff s.mirror.phase
      (paceAt s (.mirror (.run b))) m.phase m.backoff := by
  cases b with
  | endpointOk =>
    simp only [runStep] at hrun
    split at hrun
    · rename_i hphase
      cases hrun
      rw [hphase]
      exact .starts
    · cases hrun
  | endpointFailed =>
    simp only [runStep] at hrun
    split at hrun
    · rename_i hphase
      cases hrun
      rw [hphase]
      exact .returns
    · cases hrun
  | loopCheck =>
    simp only [runStep] at hrun
    split at hrun
    · rename_i hphase
      cases hrun
      simp only [paceAt, hphase]
      cases s.shutdown with
      | true => exact .leaves
      | false => exact .attempts
    · cases hrun
  | connectOk =>
    simp only [runStep] at hrun
    split at hrun
    · rename_i hphase
      cases hrun
      rw [hphase]
      exact .connects _ rfl
    · cases hrun
  | connectFailed =>
    simp only [runStep] at hrun
    split at hrun
    · rename_i hphase
      cases hrun
      rw [hphase]
      exact .fails
    · cases hrun
  | branchEnds branch =>
    simp only [runStep] at hrun
    split at hrun
    · rename_i conn hphase
      split at hrun
      · cases hrun
        rw [hphase]
        exact .closes conn
      · cases hrun
    · cases hrun
  | clear =>
    simp only [runStep] at hrun
    split at hrun
    · rename_i conn hphase
      cases hrun
      rw [hphase]
      exact .clears conn
    · cases hrun
  | pauseCheck =>
    simp only [runStep] at hrun
    split at hrun
    · rename_i hphase
      cases hrun
      simp only [paceAt, hphase]
      cases s.shutdown with
      | true => exact .breaks
      | false => exact .sleeps
    · cases hrun
  | wake =>
    simp only [runStep] at hrun
    split at hrun
    · rename_i hphase
      cases hrun
      rw [hphase]
      exact .wakes
    · cases hrun

theorem turn_step (hstep : System.step c s a = some t) :
    Turn a s.mirror.backoff s.mirror.phase (paceAt s a) t.mirror.phase t.mirror.backoff := by
  cases a with
  | exit =>
    cases hstep
    exact .stays _
  | broadcast resp =>
    cases hstep
    exact .stays _
  | mirror a =>
    obtain ⟨⟨m,out⟩,hm,rfl⟩ := Option.map_eq_some_iff.mp hstep
    cases a with
    | run b =>
      obtain ⟨n,hn,heq⟩ := Option.map_eq_some_iff.mp hm
      cases heq
      exact turn_run hn
    | _ =>
      rcases step_cases hm with ⟨_,ha,_⟩ | ⟨hw,_⟩ | hr
      · cases ha
      · rw [hw.writerOnly.phase, writer_backoff hw]
        exact .stays _
      · rw [hr.readersOnly.phase, read_backoff hr]
        exact .stays _

end Pace

section Backoff

variable {T : Type} {a : System.Action T} {log events : List Pace} {p q : RunPhase} {b d : Nat}

def pause (k : Nat) : Nat := min (backoffInitial * 2 ^ k) backoffMax

theorem pause_succ (k : Nat) : min (pause k * 2) backoffMax = pause (k + 1) := by
  unfold pause backoffMax
  rw [Nat.pow_succ, ← Nat.mul_assoc]
  omega

def RunPhase.rested : RunPhase → Bool
  | .starting | .looping | .sleeping => true
  | _ => false

structure Rested (log : List Pace) (p : RunPhase) (b : Nat) : Prop where
  apart : log.IsChain fun x y => x = .attempt → y ≠ .attempt
  last : p.rested = true → log.getLast? ≠ some .attempt
  bounded : backoffInitial ≤ b ∧ b ≤ backoffMax
  slept : ∀ ms, .slept ms ∈ log → backoffInitial ≤ ms ∧ ms ≤ backoffMax

theorem rested_start : Rested [] .starting backoffInitial where
  apart := .nil
  last _ hlast := by cases hlast
  bounded := by decide
  slept _ h := by cases h

theorem rested_quiet (h : Rested log p b) (hq : q.rested = true → p.rested = true)
    (hd : backoffInitial ≤ d ∧ d ≤ backoffMax) : Rested (log ++ []) q d := by
  rw [List.append_nil]
  exact ⟨h.apart,fun hr => h.last (hq hr),hd,h.slept⟩

theorem rested_turn (h : Rested log p b) (ht : Turn a b p events q d) :
    Rested (log ++ events) q d := by
  cases ht with
  | stays => exact rested_quiet h id h.bounded
  | connects => exact rested_quiet h nofun (by decide)
  | starts => exact rested_quiet h (fun _ => rfl) h.bounded
  | returns | fails | closes | clears | leaves | breaks => exact rested_quiet h nofun h.bounded
  | wakes =>
    refine rested_quiet h (fun _ => rfl) ⟨?_,Nat.min_le_right _ _⟩
    have hb := h.bounded
    unfold backoffInitial backoffMax at hb ⊢
    omega
  | attempts =>
    refine ⟨List.isChain_append.mpr ⟨h.apart,.singleton _,?_⟩,nofun,h.bounded,fun ms hms => ?_⟩
    · intro x hx y _ hattempt
      rw [hattempt] at hx
      exact absurd hx (h.last rfl)
    · exact h.slept ms (by simpa using hms)
  | sleeps =>
    refine ⟨List.isChain_append.mpr ⟨h.apart,.singleton _,?_⟩,fun _ => by simp,h.bounded,
      fun ms hms => ?_⟩
    · intro x _ y hy _ hattempt
      obtain rfl : Pace.slept b = y := by simpa using hy
      cases hattempt
    · rcases List.mem_append.mp hms with hms | hms
      · exact h.slept ms hms
      · obtain rfl : ms = b := by simpa using hms
        exact h.bounded

def Owed : RunPhase → Nat → Nat → Prop
  | .sleeping, n, b => ∃ k, n = k + 1 ∧ b = pause k
  | _, n, b => b = pause n

def Doubled (log : List Pace) (p : RunPhase) (b : Nat) : Prop :=
  ∃ n, log.filterMap Pace.duration = (List.range n).map pause ∧ Owed p n b

theorem owed_start (hp : p ≠ .sleeping) (hb : b = backoffInitial) : Owed p 0 b := by
  cases p with
  | sleeping => exact absurd rfl hp
  | _ => exact hb

theorem doubled_turn (h : Doubled log p b) (ha : a ≠ .mirror (.run .connectOk))
    (ht : Turn a b p events q d) : Doubled (log ++ events) q d := by
  obtain ⟨n,hlog,howed⟩ := h
  unfold Doubled
  rw [List.filterMap_append, hlog]
  cases ht with
  | stays => exact ⟨n,List.append_nil _,howed⟩
  | connects _ hconnect => exact absurd hconnect ha
  | starts | returns | attempts | fails | closes | clears | leaves | breaks =>
    exact ⟨n,List.append_nil _,howed⟩
  | sleeps =>
    refine ⟨n + 1,?_,n,rfl,howed⟩
    have hb : b = pause n := howed
    rw [List.range_succ, List.map_append, hb]
    rfl
  | wakes =>
    obtain ⟨k,rfl,rfl⟩ := howed
    exact ⟨k + 1,List.append_nil _,pause_succ k⟩

theorem reconnect_backoff (c : Codec T) (before : List T) (as : List (System.Action T))
    (s : System T) (hrun : run (System.step c) (System.init before) as = some s) :
    let log := collect (System.step c) paceAt (System.init before) as
    log.IsChain (fun x y => x = .attempt → y ≠ .attempt) ∧
    (∀ ms, .slept ms ∈ log → backoffInitial ≤ ms ∧ ms ≤ backoffMax) ∧
    ∀ bs t, s.mirror.backoff = backoffInitial → s.mirror.phase ≠ .sleeping →
      run (System.step c) s bs = some t → Along (System.step c) NoConnect s bs →
      ∃ n, (collect (System.step c) paceAt s bs).filterMap Pace.duration =
        (List.range n).map fun k => min (backoffInitial * 2 ^ k) backoffMax := by
  have hrested : Rested (collect (System.step c) paceAt (System.init before) as)
      s.mirror.phase s.mirror.backoff :=
    collect_history (I := fun log s => Rested log s.mirror.phase s.mirror.backoff)
      (fun _ _ _ _ hs hstep => rested_turn hs (turn_step hstep)) rested_start hrun
  refine ⟨hrested.apart,hrested.slept,fun bs t hfresh hawake hbs hc => ?_⟩
  have hstart : Doubled [] s.mirror.phase s.mirror.backoff := ⟨0,rfl,owed_start hawake hfresh⟩
  obtain ⟨n,hn,_⟩ := collect_history_along
    (I := fun log s => Doubled log s.mirror.phase s.mirror.backoff)
    (fun _ _ _ _ hs ha hstep => doubled_turn hs ha (turn_step hstep)) hstart hc hbs
  exact ⟨n,hn⟩

end Backoff

section Sample

def unitCodec : Codec Unit := ⟨fun _ => some [],fun _ => some (),fun _ _ _ => rfl⟩

def failedAttempt : List (System.Action Unit) :=
  [.mirror (.run .loopCheck),.mirror (.run .connectFailed),.mirror (.run .pauseCheck),
    .mirror (.run .wake)]

def failedAttempts : List (System.Action Unit) :=
  .mirror (.run .endpointOk) :: (List.replicate 6 failedAttempt).flatten

theorem failed_attempts_back_off :
    ∃ s, run (System.step unitCodec) (System.init []) failedAttempts = some s ∧
      (collect (System.step unitCodec) paceAt (System.init []) failedAttempts).filterMap
        Pace.duration = [250,500,1000,2000,4000,5000] ∧
      ∃ n, (collect (System.step unitCodec) paceAt (System.init []) failedAttempts).filterMap
        Pace.duration = (List.range n).map fun k => min (backoffInitial * 2 ^ k) backoffMax := by
  obtain ⟨s,hs,_⟩ := exists_run_of_map (System.step unitCodec) (System.init []) failedAttempts
    (fun _ => true) (by decide +kernel)
  have hpaced := (reconnect_backoff unitCodec [] [] (System.init []) rfl).2.2 failedAttempts s rfl
    nofun hs (by decide +kernel)
  exact ⟨s,hs,by decide +kernel,hpaced⟩

end Sample

end InertiaRelayer.Mirror
