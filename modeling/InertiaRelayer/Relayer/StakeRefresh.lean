import InertiaRelayer.Relayer.StakedNodes
import Mathlib.Data.List.Chain

namespace InertiaRelayer.StakedNodesUpdater
open Machine

section Refresh

variable {ε : Type}

def start (started : Nat) : Updater := ⟨started,⟨∅,∅⟩,false⟩

def requestedAt (fromStr : String → Option Pubkey) (u : Updater) (i : Iteration ε) :
    List (Nat × Except ε RpcVoteAccountStatus) :=
  if i.exit then []
  else
    match dueRefresh fromStr u i with
    | none | some (.ok false,_) => []
    | some _ => [(i.finished,i.voteAccounts)]

def answered : Nat × Except ε RpcVoteAccountStatus → List (Nat × RpcVoteAccountStatus)
  | (finished,.ok status) => [(finished,status)]
  | (_,.error _) => []

def Clocked (_ : Updater) (i : Iteration ε) : Prop := i.due ≤ i.checked ∧ i.checked ≤ i.finished

instance : DecidableRel (Clocked (ε := ε)) :=
  fun _ i => inferInstanceAs (Decidable (i.due ≤ i.checked ∧ i.checked ≤ i.finished))

variable (fromStr : String → Option Pubkey) (overrides : KeyMap Pubkey Nat)

def stakedNodes (status : RpcVoteAccountStatus) : StakedNodes :=
  ⟨KeyMap.collect (stakeEntries fromStr status),overrides⟩

def published (answers : List (Nat × RpcVoteAccountStatus)) : StakedNodes :=
  (answers.getLast?.map fun a => stakedNodes fromStr overrides a.2).getD ⟨∅,∅⟩

variable {fromStr overrides} {u t : Updater} {i : Iteration ε}

theorem requested_other (hexit : i.exit = false)
    (hcall : ∀ r, dueRefresh fromStr u i ≠ some (.ok true,r)) :
    (requestedAt fromStr u i).flatMap answered = [] := by
  simp only [requestedAt, hexit, Bool.false_eq_true, if_false]
  split
  · rfl
  · rfl
  · rename_i result hfalse hr
    obtain ⟨result,r⟩ := result
    cases result with
    | error e => simp [tryRefresh_error (dueRefresh_some hr).2, answered]
    | ok b =>
      cases b with
      | true => exact absurd hr (hcall r)
      | false => exact absurd rfl (hfalse r)

theorem requested_ok {r : Refresh} {status : RpcVoteAccountStatus} (hexit : i.exit = false)
    (hcall : dueRefresh fromStr u i = some (.ok true,r)) (hstatus : i.voteAccounts = .ok status) :
    (requestedAt fromStr u i).flatMap answered = [(i.finished,status)] := by
  simp [requestedAt, hexit, hcall, hstatus, answered]

theorem step_refresh (hstep : step fromStr overrides u i = some t) :
    (requestedAt fromStr u i).flatMap answered = [] ∧ t.lastStakes = u.lastStakes ∧
        t.sharedStakedNodes = u.sharedStakedNodes ∨
      ∃ status, (requestedAt fromStr u i).flatMap answered = [(i.finished,status)] ∧
        t.lastStakes = i.finished ∧ t.sharedStakedNodes = stakedNodes fromStr overrides status ∧
        u.lastStakes + nanos 60 ≤ i.due := by
  cases step_effect hstep with
  | exited hexit => exact .inl ⟨by simp [requestedAt, hexit],rfl,rfl⟩
  | refreshed status r hexit hdue hcall hstatus =>
    exact .inr ⟨status,requested_ok hexit hcall hstatus,rfl,rfl,hdue⟩
  | unchanged hexit hcall => exact .inl ⟨requested_other hexit hcall,rfl,rfl⟩

structure Refreshed (fromStr : String → Option Pubkey) (overrides : KeyMap Pubkey Nat)
    (started : Nat) (answers : List (Nat × RpcVoteAccountStatus)) (u : Updater) : Prop where
  lastStakes : u.lastStakes = (answers.map Prod.fst).getLast?.getD started
  spaced : (started :: answers.map Prod.fst).IsChain (fun a b => a + nanos 60 ≤ b)
  nodes : u.sharedStakedNodes = published fromStr overrides answers

theorem refreshed_step {started : Nat} {answers : List (Nat × RpcVoteAccountStatus)}
    (h : Refreshed fromStr overrides started answers u) (hclock : Clocked u i)
    (hstep : step fromStr overrides u i = some t) :
    Refreshed fromStr overrides started (answers ++ (requestedAt fromStr u i).flatMap answered) t := by
  rcases step_refresh hstep with ⟨hnone,hlast,hnodes⟩ | ⟨status,hone,hlast,hnodes,hlate⟩
  · rw [hnone, List.append_nil]
    exact ⟨hlast.trans h.lastStakes,h.spaced,hnodes.trans h.nodes⟩
  · rw [hone]
    refine ⟨by simp [hlast],?_,by simp [published, hnodes]⟩
    rw [List.map_append, ← List.cons_append]
    refine List.isChain_append.mpr ⟨h.spaced,.singleton _,?_⟩
    intro a ha b hb
    cases hb
    have hlastStakes : u.lastStakes = a := by
      rw [h.lastStakes]
      rw [List.getLast?_cons] at ha
      exact Option.some.inj ha
    have hfinished := hclock.1.trans hclock.2
    show a + nanos 60 ≤ i.finished
    omega

theorem requested_of_due (hexit : i.exit = false) (hclock : Clocked u i)
    (hdue : (i.due - u.lastStakes) / nanos 1 ≥ 60) :
    requestedAt fromStr u i = [(i.finished,i.voteAccounts)] := by
  have hcall : dueRefresh fromStr u i = some (tryRefreshPkToStake fromStr i.checked i.voteAccounts
      i.finished ⟨u.lastStakes,∅⟩) := if_pos hdue
  have hnot := tryRefresh_of_due fromStr i.voteAccounts i.finished ∅ hdue hclock.1
  simp only [requestedAt, hexit, Bool.false_eq_true, if_false, hcall]
  split
  · rename_i heq
    cases heq
  · rename_i heq
    rw [Option.some.inj heq] at hnot
    exact absurd rfl hnot
  · rfl

theorem retried (hexit : i.exit = false) (hfailed : ∀ status, i.voteAccounts ≠ .ok status)
    (hstep : step fromStr overrides u i = some t) : t = u := by
  cases step_effect hstep with
  | exited h => cases hexit.symm.trans h
  | refreshed status r _ _ _ h => exact absurd h (hfailed status)
  | unchanged => rfl

theorem stake_refresh_cadence (fromStr : String → Option Pubkey) (overrides : KeyMap Pubkey Nat)
    (started : Nat) (is : List (Iteration ε)) (u : Updater)
    (hrun : run (step fromStr overrides) (start started) is = some u)
    (hclock : Along (step fromStr overrides) Clocked (start started) is) :
    let requests := collect (step fromStr overrides) (requestedAt fromStr) (start started) is
    (started :: (requests.flatMap answered).map Prod.fst).IsChain (fun a b => a + nanos 60 ≤ b) ∧
    u.sharedStakedNodes = published fromStr overrides (requests.flatMap answered) ∧
    (∀ i : Iteration ε, i.exit = false → Clocked u i → (i.due - u.lastStakes) / nanos 1 ≥ 60 →
      requestedAt fromStr u i = [(i.finished,i.voteAccounts)]) ∧
    ∀ (i : Iteration ε) t, i.exit = false → (∀ status, i.voteAccounts ≠ .ok status) →
      step fromStr overrides u i = some t → t = u := by
  have hinit : Refreshed fromStr overrides started [] (start started) := ⟨rfl,.singleton _,rfl⟩
  have hrefreshed := collect_history_along (fun _ _ _ _ => refreshed_step) hinit hclock hrun
  rw [collect_flatMap] at hrefreshed
  refine ⟨hrefreshed.spaced,hrefreshed.nodes,?_,fun i t hexit hfailed => retried hexit hfailed⟩
  exact fun i hexit hclock hdue => requested_of_due hexit hclock hdue

end Refresh

section Sample

def nodeNamed (name : String) : Option Pubkey := if name = "node" then some nodeKey else none

def iterationAt (secs : Nat) (voteAccounts : Except String RpcVoteAccountStatus) :
    Iteration String := ⟨false,nanos secs,nanos secs,voteAccounts,nanos secs⟩

def nodeStatus : RpcVoteAccountStatus := ⟨[⟨"node",5⟩],[]⟩

def failedThenRetried : List (Iteration String) :=
  [iterationAt 59 (.ok nodeStatus),iterationAt 60 (.error "timeout"),iterationAt 61 (.ok nodeStatus),
    iterationAt 62 (.ok ⟨[],[]⟩)]

theorem failed_refresh_retried :
    ∃ u, run (step nodeNamed ∅) (start 0) failedThenRetried = some u ∧
      collect (step nodeNamed ∅) (requestedAt nodeNamed) (start 0) failedThenRetried =
        [(nanos 60,.error "timeout"),(nanos 61,.ok nodeStatus)] ∧
      u.sharedStakedNodes = stakedNodes nodeNamed ∅ nodeStatus := by
  obtain ⟨u,hu,_⟩ := exists_run_of_map (step nodeNamed ∅) (start 0) failedThenRetried
    (fun _ => true) (by decide)
  have hrequests : collect (step nodeNamed ∅) (requestedAt nodeNamed) (start 0) failedThenRetried =
      [(nanos 60,.error "timeout"),(nanos 61,.ok nodeStatus)] := rfl
  obtain ⟨_,hnodes,_⟩ := stake_refresh_cadence nodeNamed ∅ 0 failedThenRetried u hu (by decide)
  rw [hrequests] at hnodes
  exact ⟨u,hu,hrequests,hnodes⟩

end Sample

end InertiaRelayer.StakedNodesUpdater
