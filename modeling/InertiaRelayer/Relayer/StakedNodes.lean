import InertiaRelayer.Auth.Reference
import InertiaRelayer.Library.Machine
import Mathlib.Algebra.BigOperators.Group.List.Basic
import Mathlib.Algebra.Order.BigOperators.Group.List

namespace InertiaRelayer.StakedNodesUpdater

structure RpcVoteAccountInfo where
  nodePubkey : String
  activatedStake : Nat
deriving DecidableEq

structure RpcVoteAccountStatus where
  current : List RpcVoteAccountInfo
  delinquent : List RpcVoteAccountInfo

def nanos (secs : Nat) : Nat := secs * 1000000000

def pkToStakeRefreshDuration : Nat := nanos 5

structure Refresh where
  lastStakes : Nat
  pubkeyStakeMap : KeyMap Pubkey Nat

section Updater

variable {ε : Type} (fromStr : String → Option Pubkey)

def stakeEntries (status : RpcVoteAccountStatus) : List (Pubkey × Nat) :=
  (status.current ++ status.delinquent).filterMap
    (fun a => (fromStr a.nodePubkey).map (fun n => (n,a.activatedStake)))

def tryRefreshPkToStake (checked : Nat) (voteAccounts : Except ε RpcVoteAccountStatus)
    (finished : Nat) (r : Refresh) : Except ε Bool × Refresh :=
  if checked - r.lastStakes > pkToStakeRefreshDuration then
    match voteAccounts with
    | .error e => (.error e,r)
    | .ok status => (.ok true,⟨finished,KeyMap.collect (stakeEntries fromStr status)⟩)
  else (.ok false,r)

structure StakedNodes where
  stakes : KeyMap Pubkey Nat
  overrides : KeyMap Pubkey Nat

structure Updater where
  lastStakes : Nat
  sharedStakedNodes : StakedNodes
  exited : Bool

structure Iteration (ε : Type) where
  exit : Bool
  due : Nat
  checked : Nat
  voteAccounts : Except ε RpcVoteAccountStatus
  finished : Nat

def dueRefresh (u : Updater) (i : Iteration ε) : Option (Except ε Bool × Refresh) :=
  if (i.due - u.lastStakes) / nanos 1 ≥ 60 then
    some (tryRefreshPkToStake fromStr i.checked i.voteAccounts i.finished ⟨u.lastStakes,∅⟩)
  else none

def step (overrides : KeyMap Pubkey Nat) (u : Updater) (i : Iteration ε) : Option Updater :=
  if u.exited then none
  else if i.exit then some { u with exited := true }
  else
    match dueRefresh fromStr u i with
    | some (.ok true,r) =>
        some { u with
          lastStakes := r.lastStakes
          sharedStakedNodes := ⟨r.pubkeyStakeMap,overrides⟩ }
    | some (.ok false,r) => some { u with lastStakes := r.lastStakes }
    | some (.error _,r) => some { u with lastStakes := r.lastStakes }
    | none => some u

def accountsOf (status : RpcVoteAccountStatus) (n : Pubkey) : List RpcVoteAccountInfo :=
  (status.current ++ status.delinquent).filter (fun a => fromStr a.nodePubkey = some n)

def totalStake (accounts : List RpcVoteAccountInfo) : Nat :=
  (accounts.map RpcVoteAccountInfo.activatedStake).sum

def CreditsTotals (status : RpcVoteAccountStatus) (m : KeyMap Pubkey Nat) : Prop :=
  ∀ n, m.lookup n =
    if accountsOf fromStr status n = [] then none
    else some (totalStake (accountsOf fromStr status n))

def LastCarriesAll (status : RpcVoteAccountStatus) : Prop :=
  ∀ n, ∀ a ∈ (accountsOf fromStr status n).dropLast, a.activatedStake = 0

end Updater

variable {ε : Type} {fromStr : String → Option Pubkey}

theorem tryRefresh_ok {checked finished : Nat} {voteAccounts : Except ε RpcVoteAccountStatus}
    {r r' : Refresh}
    (h : tryRefreshPkToStake fromStr checked voteAccounts finished r = (.ok true,r')) :
    ∃ status, voteAccounts = .ok status ∧
      r' = ⟨finished,KeyMap.collect (stakeEntries fromStr status)⟩ := by
  unfold tryRefreshPkToStake at h
  split at h
  · cases voteAccounts with
    | error e => cases h
    | ok status =>
      cases h
      exact ⟨status,rfl,rfl⟩
  · cases h

theorem tryRefresh_other {checked finished : Nat} {voteAccounts : Except ε RpcVoteAccountStatus}
    {r r' : Refresh} {result : Except ε Bool} (hne : result ≠ .ok true)
    (h : tryRefreshPkToStake fromStr checked voteAccounts finished r = (result,r')) : r' = r := by
  unfold tryRefreshPkToStake at h
  split at h
  · cases voteAccounts with
    | error e => exact (Prod.mk.inj h).2.symm
    | ok status => exact absurd (Prod.mk.inj h).1.symm hne
  · exact (Prod.mk.inj h).2.symm

theorem tryRefresh_error {checked finished : Nat} {voteAccounts : Except ε RpcVoteAccountStatus}
    {r r' : Refresh} {e : ε}
    (h : tryRefreshPkToStake fromStr checked voteAccounts finished r = (.error e,r')) :
    voteAccounts = .error e := by
  unfold tryRefreshPkToStake at h
  split at h
  · cases voteAccounts with
    | error e => exact congrArg Except.error (Except.error.inj (Prod.mk.inj h).1)
    | ok status => cases h
  · cases h

theorem stakes_stakeEntries (status : RpcVoteAccountStatus) (n : Pubkey) :
    ((stakeEntries fromStr status).filter (fun e => e.1 = n)).map Prod.snd =
      (accountsOf fromStr status n).map RpcVoteAccountInfo.activatedStake := by
  unfold stakeEntries accountsOf
  induction status.current ++ status.delinquent with
  | nil => rfl
  | cons a accounts ih =>
    cases hparse : fromStr a.nodePubkey with
    | none => simpa [hparse] using ih
    | some n' =>
      by_cases hn : n' = n
      · simpa [hparse, hn] using ih
      · simpa [hparse, hn] using ih

theorem lookup_stakeMap (status : RpcVoteAccountStatus) (n : Pubkey) :
    (KeyMap.collect (stakeEntries fromStr status)).lookup n =
      ((accountsOf fromStr status n).map RpcVoteAccountInfo.activatedStake).getLast? := by
  rw [KeyMap.lookup_collect, stakes_stakeEntries]

theorem getLast_eq_total_iff (accounts : List RpcVoteAccountInfo) :
    ((accounts.map RpcVoteAccountInfo.activatedStake).getLast? =
      if accounts = [] then none else some (totalStake accounts)) ↔
      ∀ a ∈ accounts.dropLast, a.activatedStake = 0 := by
  induction accounts using List.reverseRecOn with
  | nil => simp
  | append_singleton init last _ =>
    have hne : init ++ [last] ≠ [] := by simp
    rw [if_neg hne, List.dropLast_concat]
    simp only [totalStake, List.map_append, List.map_cons, List.map_nil, List.getLast?_concat,
      List.sum_append, List.sum_cons, List.sum_nil, Option.some.injEq]
    have hzero : (init.map RpcVoteAccountInfo.activatedStake).sum = 0 ↔
        ∀ a ∈ init, a.activatedStake = 0 := by
      rw [List.sum_eq_zero_iff]
      simp
    rw [← hzero]
    omega

theorem creditsTotals_iff (status : RpcVoteAccountStatus) :
    CreditsTotals fromStr status (KeyMap.collect (stakeEntries fromStr status)) ↔
      LastCarriesAll fromStr status := by
  unfold CreditsTotals LastCarriesAll
  apply forall_congr'
  intro n
  rw [lookup_stakeMap]
  exact getLast_eq_total_iff _

theorem creditsTotals_perm {status status' : RpcVoteAccountStatus} {m m' : KeyMap Pubkey Nat}
    (hperm : (status.current ++ status.delinquent).Perm (status'.current ++ status'.delinquent))
    (h : CreditsTotals fromStr status m) (h' : CreditsTotals fromStr status' m') (n : Pubkey) :
    m.lookup n = m'.lookup n := by
  have haccounts : (accountsOf fromStr status n).Perm (accountsOf fromStr status' n) :=
    hperm.filter _
  have hnil : accountsOf fromStr status n = [] ↔ accountsOf fromStr status' n = [] := by
    rw [← List.length_eq_zero_iff, haccounts.length_eq, List.length_eq_zero_iff]
  have htotal : totalStake (accountsOf fromStr status n) =
      totalStake (accountsOf fromStr status' n) :=
    (haccounts.map _).sum_eq
  rw [h n, h' n, htotal]
  simp only [hnil]

theorem current_le_credited {status : RpcVoteAccountStatus} {m : KeyMap Pubkey Nat}
    (h : CreditsTotals fromStr status m) {n : Pubkey} {stake : Nat}
    (hstake : m.lookup n = some stake) :
    totalStake (accountsOf fromStr ⟨status.current,[]⟩ n) ≤ stake := by
  rw [h n] at hstake
  split at hstake
  · cases hstake
  · cases hstake
    simp only [totalStake, accountsOf, List.append_nil, List.filter_append, List.map_append,
      List.sum_append]
    omega

theorem tryRefresh_of_due (fromStr : String → Option Pubkey) {due checked lastStakes : Nat}
    (voteAccounts : Except ε RpcVoteAccountStatus) (finished : Nat) (m : KeyMap Pubkey Nat)
    (hdue : (due - lastStakes) / nanos 1 ≥ 60) (hle : due ≤ checked) :
    (tryRefreshPkToStake fromStr checked voteAccounts finished ⟨lastStakes,m⟩).1 ≠ .ok false := by
  have hlong : checked - lastStakes > pkToStakeRefreshDuration := by
    simp only [nanos, pkToStakeRefreshDuration] at hdue ⊢
    omega
  unfold tryRefreshPkToStake
  rw [if_pos hlong]
  cases voteAccounts with
  | error e => simp
  | ok status => simp

theorem dueRefresh_some {u : Updater} {i : Iteration ε} {result : Except ε Bool × Refresh}
    (h : dueRefresh fromStr u i = some result) :
    u.lastStakes + nanos 60 ≤ i.due ∧
      tryRefreshPkToStake fromStr i.checked i.voteAccounts i.finished ⟨u.lastStakes,∅⟩ = result := by
  obtain ⟨hdue,heq⟩ := Option.ite_none_right_eq_some.mp h
  refine ⟨?_,Option.some.inj heq⟩
  simp only [nanos] at hdue ⊢
  omega

inductive Effect (fromStr : String → Option Pubkey) (overrides : KeyMap Pubkey Nat)
    (u : Updater) (i : Iteration ε) : Updater → Prop
  | exited (h : i.exit = true) : Effect fromStr overrides u i { u with exited := true }
  | refreshed (status : RpcVoteAccountStatus) (r : Refresh) (hexit : i.exit = false)
      (hdue : u.lastStakes + nanos 60 ≤ i.due)
      (hcall : dueRefresh fromStr u i = some (.ok true,r)) (h : i.voteAccounts = .ok status) :
      Effect fromStr overrides u i { u with
        lastStakes := i.finished
        sharedStakedNodes := ⟨KeyMap.collect (stakeEntries fromStr status),overrides⟩ }
  | unchanged (hexit : i.exit = false)
      (hcall : ∀ r, dueRefresh fromStr u i ≠ some (.ok true,r)) : Effect fromStr overrides u i u

theorem step_effect {overrides : KeyMap Pubkey Nat} {u u' : Updater} {i : Iteration ε}
    (h : step fromStr overrides u i = some u') : Effect fromStr overrides u i u' := by
  obtain ⟨_,h⟩ := Option.ite_none_left_eq_some.mp h
  split at h
  case isTrue hexit =>
    cases h
    exact .exited hexit
  case isFalse hexit =>
    have hexit : i.exit = false := by simpa using hexit
    split at h
    case h_1 r hr =>
      obtain ⟨hdue,hcall⟩ := dueRefresh_some hr
      obtain ⟨status,hstatus,rfl⟩ := tryRefresh_ok hcall
      cases h
      exact .refreshed status _ hexit hdue hr hstatus
    case h_2 r hr =>
      cases tryRefresh_other (by simp) (dueRefresh_some hr).2
      cases h
      exact .unchanged hexit (by simp [hr])
    case h_3 e r hr =>
      cases tryRefresh_other (by simp) (dueRefresh_some hr).2
      cases h
      exact .unchanged hexit (by simp [hr])
    case h_4 hr =>
      cases h
      exact .unchanged hexit (by simp [hr])

theorem stake_map_totals_iff (fromStr : String → Option Pubkey)
    (status : RpcVoteAccountStatus) (checked finished : Nat) (r r' : Refresh)
    (h : tryRefreshPkToStake fromStr checked (.ok status : Except ε RpcVoteAccountStatus)
      finished r = (.ok true,r')) :
    (CreditsTotals fromStr status r'.pubkeyStakeMap ↔ LastCarriesAll fromStr status) ∧
    (∀ n, (∃ stake, r'.pubkeyStakeMap.lookup n = some stake) ↔
      accountsOf fromStr status n ≠ []) ∧
    (LastCarriesAll fromStr status → ∀ (status' : RpcVoteAccountStatus) (s s' : Refresh),
      (status.current ++ status.delinquent).Perm (status'.current ++ status'.delinquent) →
      LastCarriesAll fromStr status' →
      tryRefreshPkToStake fromStr checked (.ok status' : Except ε RpcVoteAccountStatus)
        finished s = (.ok true,s') →
      ∀ n, r'.pubkeyStakeMap.lookup n = s'.pubkeyStakeMap.lookup n) ∧
    (LastCarriesAll fromStr status → ∀ n stake, r'.pubkeyStakeMap.lookup n = some stake →
      totalStake (accountsOf fromStr ⟨status.current,[]⟩ n) ≤ stake) := by
  obtain ⟨_,heq,rfl⟩ := tryRefresh_ok h
  cases heq
  refine ⟨creditsTotals_iff status,?_,?_,?_⟩
  · intro n
    rw [lookup_stakeMap, ← Option.isSome_iff_exists, List.getLast?_isSome]
    simp
  · intro hlast status' s s' hperm hlast' h' n
    obtain ⟨_,heq,rfl⟩ := tryRefresh_ok h'
    cases heq
    exact creditsTotals_perm hperm ((creditsTotals_iff _).mpr hlast)
      ((creditsTotals_iff _).mpr hlast') n
  · intro hlast n stake hstake
    exact current_le_credited ((creditsTotals_iff _).mpr hlast) hstake

def nodeKey : Pubkey := ⟨List.replicate 32 7,by decide⟩

def nodeAccount (activatedStake : Nat) : RpcVoteAccountInfo :=
  ⟨Auth.pubkeyText.text nodeKey,activatedStake⟩

theorem fromStr_nodeAccount (activatedStake : Nat) :
    Auth.pubkeyText.parse (nodeAccount activatedStake).nodePubkey = some nodeKey :=
  Auth.pubkeyText.parse_text nodeKey

theorem accountsOf_nodeAccounts (a b : Nat) (n : Pubkey) :
    accountsOf Auth.pubkeyText.parse ⟨[nodeAccount a],[nodeAccount b]⟩ n =
      if nodeKey = n then [nodeAccount a,nodeAccount b] else [] := by
  by_cases hn : nodeKey = n
  · simp [accountsOf, fromStr_nodeAccount, hn]
  · simp [accountsOf, fromStr_nodeAccount, hn]

theorem stake_map_totals_moved_node :
    ∃ r', tryRefreshPkToStake Auth.pubkeyText.parse (nanos 61)
        (.ok ⟨[nodeAccount 0],[nodeAccount 5]⟩ : Except String RpcVoteAccountStatus)
        (nanos 62) ⟨0,∅⟩ = (.ok true,r') ∧
      CreditsTotals Auth.pubkeyText.parse ⟨[nodeAccount 0],[nodeAccount 5]⟩
        r'.pubkeyStakeMap := by
  have hrefresh : tryRefreshPkToStake Auth.pubkeyText.parse (nanos 61)
      (.ok ⟨[nodeAccount 0],[nodeAccount 5]⟩ : Except String RpcVoteAccountStatus)
      (nanos 62) ⟨0,∅⟩ = (.ok true,_) := rfl
  refine ⟨_,hrefresh,(stake_map_totals_iff _ _ _ _ _ _ hrefresh).1.mpr ?_⟩
  intro n a ha
  rw [accountsOf_nodeAccounts] at ha
  split at ha
  · cases List.mem_singleton.mp ha
    rfl
  · cases ha

theorem delinquent_entry_replaces_current :
    ∃ r' s', tryRefreshPkToStake Auth.pubkeyText.parse (nanos 61)
        (.ok ⟨[nodeAccount 5],[nodeAccount 3]⟩ : Except String RpcVoteAccountStatus)
        (nanos 62) ⟨0,∅⟩ = (.ok true,r') ∧
      tryRefreshPkToStake Auth.pubkeyText.parse (nanos 61)
        (.ok ⟨[nodeAccount 3],[nodeAccount 5]⟩ : Except String RpcVoteAccountStatus)
        (nanos 62) ⟨0,∅⟩ = (.ok true,s') ∧
      totalStake (accountsOf Auth.pubkeyText.parse
        ⟨[nodeAccount 5],[nodeAccount 3]⟩ nodeKey) = 8 ∧
      r'.pubkeyStakeMap.lookup nodeKey = some 3 ∧
      s'.pubkeyStakeMap.lookup nodeKey = some 5 := by
  refine ⟨_,_,rfl,rfl,?_,?_,?_⟩
  · rw [accountsOf_nodeAccounts, if_pos rfl]
    rfl
  · rw [lookup_stakeMap, accountsOf_nodeAccounts, if_pos rfl]
    rfl
  · rw [lookup_stakeMap, accountsOf_nodeAccounts, if_pos rfl]
    rfl

end InertiaRelayer.StakedNodesUpdater
