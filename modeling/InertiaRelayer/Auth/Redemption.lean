import InertiaRelayer.Auth.Session

namespace InertiaRelayer.Auth
open Machine

def Handler.redeems (ip : IpAddr) : Handler → Bool
  | .redeeming _ ip' _ _ _ => decide (ip' = ip)
  | _ => false

def Handler.writes : Handler → Option IpAddr
  | .pushing _ ip _ _ => some ip
  | .redeeming _ ip _ _ _ => some ip
  | _ => none

def NoOtherRedeemer (s : State) (h : Nat) : Option IpAddr → Prop
  | none => True
  | some ip => ∀ e ∈ s.handlers.entries, e.1 ≠ h → e.2.redeems ip = false

instance (s : State) (h : Nat) : ∀ ip, Decidable (NoOtherRedeemer s h ip)
  | none => .isTrue trivial
  | some _ => by unfold NoOtherRedeemer; infer_instance

def NoOverlap (s : State) : Action → Prop
  | .challengePush h => NoOtherRedeemer s h (s.handler h).writes
  | .tokensRemove h => NoOtherRedeemer s h (s.handler h).writes
  | _ => True

instance (s : State) : ∀ a, Decidable (NoOverlap s a)
  | .challengePush h => inferInstanceAs (Decidable (NoOtherRedeemer s h (s.handler h).writes))
  | .tokensRemove h => inferInstanceAs (Decidable (NoOtherRedeemer s h (s.handler h).writes))
  | .challengeStart .. | .challengeLookup .. | .challengeAnswer .. | .tokensLookup ..
  | .refresh .. | .relayerRequest .. | .expire .. | .abort .. => .isTrue trivial

def Redeemed (log : List Event) (ip : IpAddr) (serial : Nat) : Prop :=
  ∃ c req response, Event.redeemed ip serial c req response ∈ log

def RedeemsExactly (s : State) : Action → Prop
  | .tokensRemove h => ∀ req ip serial c response,
      s.handler h = .redeeming req ip serial c response →
        ¬ Redeemed s.log ip serial ∧
          ∀ c', s.challenges.getPriority ip = some c' → s.pushes ip = serial ∧ c' = c
  | _ => True

structure Redemption (s : State) : Prop where
  bound : ∀ ip serial, Redeemed s.log ip serial → serial ≤ s.pushes ip
  unredeemed : ∀ ip c, s.challenges.getPriority ip = some c → ¬ Redeemed s.log ip (s.pushes ip)
  redeeming : ∀ h req ip serial c response, s.handler h = .redeeming req ip serial c response →
    serial ≤ s.pushes ip ∧ ¬ Redeemed s.log ip serial ∧
      ∀ c', s.challenges.getPriority ip = some c' → s.pushes ip = serial ∧ c' = c

variable {p : Platform} {s t : State} {a : Action}

theorem not_redeems_of_noOther {h h' : Nat} {ip ip' : IpAddr} {req : GenerateAuthTokensRequest}
    {serial : Nat} {c : AuthChallenge} {response : GenerateAuthTokensResponse}
    (hno : NoOtherRedeemer s h (some ip)) (hne : h' ≠ h)
    (hs : s.handler h' = .redeeming req ip' serial c response) : ip' ≠ ip := by
  have he := State.entry_of_handler (s := s) (h := h') (by rw [hs]; simp)
  have hr := hno _ he hne
  rw [hs] at hr
  simpa [Handler.redeems] using hr

theorem redeemed_cons_other {log : List Event} {e : Event} {ip : IpAddr} {serial : Nat}
    (he : ∀ serial c req response, e ≠ .redeemed ip serial c req response) :
    Redeemed (e :: log) ip serial ↔ Redeemed log ip serial := by
  constructor
  · rintro ⟨c,req,response,hm⟩
    rcases List.mem_cons.mp hm with hm | hm
    · exact absurd hm.symm (he serial c req response)
    · exact ⟨c,req,response,hm⟩
  · rintro ⟨c,req,response,hm⟩
    exact ⟨c,req,response,List.mem_cons_of_mem _ hm⟩

theorem redemption_setHandler (hs : Redemption s) (h : Nat) {x : Handler}
    (hx : ∀ req ip serial c response, x = .redeeming req ip serial c response →
      serial ≤ s.pushes ip ∧ ¬ Redeemed s.log ip serial ∧
        ∀ c', s.challenges.getPriority ip = some c' → s.pushes ip = serial ∧ c' = c) :
    Redemption (s.setHandler h x) where
  bound := hs.bound
  unredeemed := hs.unredeemed
  redeeming n req ip serial c response hn := by
    rw [State.setHandler_handler] at hn
    split at hn
    · exact hx req ip serial c response hn
    · exact hs.redeeming n req ip serial c response hn

theorem redemption_record (hs : Redemption s) {e : Event}
    (he : ∀ ip serial c req response, e ≠ .redeemed ip serial c req response) :
    Redemption (s.record e) where
  bound ip serial h := hs.bound ip serial ((redeemed_cons_other (he ip)).mp h)
  unredeemed ip c hc h := hs.unredeemed ip c hc ((redeemed_cons_other (he ip)).mp h)
  redeeming n req ip serial c response hn := by
    obtain ⟨hle,hnot,hsame⟩ := hs.redeeming n req ip serial c response hn
    exact ⟨hle,fun h => hnot ((redeemed_cons_other (he ip)).mp h),hsame⟩

theorem redemption_quiet (hs : Redemption s) (h : Nat) {x : Handler} (hx : x.quiet = true) :
    Redemption (s.setHandler h x) := by
  apply redemption_setHandler hs h
  rintro req ip serial c response rfl
  cases hx

theorem redemption_store (hs : Redemption s) {h : Nat} {ip : IpAddr} (c : AuthChallenge)
    (req : GenerateAuthChallengeRequest) (r : Readings) (hidle : s.handler h = .idle)
    (hno : NoOtherRedeemer s h (some ip)) : Redemption (s.store ip c req r) where
  bound ip' serial hr := by
    have hle := hs.bound ip' serial ((redeemed_cons_other (by simp)).mp hr)
    by_cases heq : ip' = ip
    · subst heq
      simpa [State.store] using Nat.le_succ_of_le hle
    · simpa [State.store, Function.update_of_ne heq] using hle
  unredeemed ip' c' hc hr := by
    have hr' : Redeemed s.log ip' _ := (redeemed_cons_other (by simp)).mp hr
    rcases AuthChallenges.getPriority_push hc with ⟨rfl,rfl⟩ | ⟨hne,hc⟩
    · have hle := hs.bound ip' _ hr'
      simp [State.store] at hle
    · simp only [State.store, Function.update_of_ne hne] at hr'
      exact hs.unredeemed ip' c' hc hr'
  redeeming n req' ip' serial c' response hn := by
    have hn' : s.handler n = .redeeming req' ip' serial c' response := hn
    have hnh : n ≠ h := by
      rintro rfl
      rw [hidle] at hn'
      cases hn'
    have hne := not_redeems_of_noOther hno hnh hn'
    obtain ⟨hle,hnot,hsame⟩ := hs.redeeming n req' ip' serial c' response hn'
    refine ⟨?_,fun hr => hnot ((redeemed_cons_other (by simp)).mp hr),?_⟩
    · simpa [State.store, Function.update_of_ne hne] using hle
    · intro c'' hc
      rcases AuthChallenges.getPriority_push hc with ⟨rfl,_⟩ | ⟨_,hc⟩
      · exact absurd rfl hne
      · simpa [State.store, Function.update_of_ne hne] using hsame c'' hc

theorem redemption_redeem (hs : Redemption s) {h : Nat} {req : GenerateAuthTokensRequest}
    {ip : IpAddr} {serial : Nat} {c : AuthChallenge} {response : GenerateAuthTokensResponse}
    (hh : s.handler h = .redeeming req ip serial c response)
    (hno : NoOtherRedeemer s h (some ip)) :
    Redemption (((s.setHandler h .idle).remove ip).record
      (.redeemed ip serial c req response)) where
  bound ip' serial' hr := by
    obtain ⟨c',req',response',hm⟩ := hr
    rcases List.mem_cons.mp hm with hm | hm
    · cases hm
      exact (hs.redeeming h req ip serial c response hh).1
    · exact hs.bound ip' serial' ⟨c',req',response',hm⟩
  unredeemed ip' c' hc hr := by
    obtain ⟨hne,hc⟩ := AuthChallenges.getPriority_remove hc
    exact hs.unredeemed ip' c' hc ((redeemed_cons_other (by simp [hne.symm])).mp hr)
  redeeming n req' ip' serial' c' response' hn := by
    simp only [State.record_handler, State.remove_handler, State.setHandler_handler] at hn
    split at hn
    · cases hn
    · rename_i hnh
      have hne := not_redeems_of_noOther hno hnh hn
      obtain ⟨hle,hnot,hsame⟩ := hs.redeeming n req' ip' serial' c' response' hn
      refine ⟨hle,fun hr => hnot ((redeemed_cons_other (by simp [hne.symm])).mp hr),?_⟩
      intro c'' hc
      exact hsame c'' (AuthChallenges.getPriority_remove hc).2

theorem redemption_expire (hs : Redemption s) (clock : Nat → Int) :
    Redemption (s.expire p clock) where
  bound := hs.bound
  unredeemed ip c hc := hs.unredeemed ip c (AuthChallenges.getPriority_removeAllExpired hc)
  redeeming n req ip serial c response hn := by
    obtain ⟨hle,hnot,hsame⟩ := hs.redeeming n req ip serial c response hn
    exact ⟨hle,hnot,fun c' hc => hsame c' (AuthChallenges.getPriority_removeAllExpired hc)⟩

theorem redemption_init : Redemption init where
  bound ip serial h := by
    obtain ⟨c,req,response,hm⟩ := h
    cases hm
  unredeemed ip c h := by simp [init, AuthChallenges.getPriority] at h
  redeeming n req ip serial c response h := by simp [init, State.handler] at h

theorem noOther_setHandler {h : Nat} {ip : IpAddr} {x : Handler}
    (hno : NoOtherRedeemer s h (some ip)) :
    NoOtherRedeemer (s.setHandler h x) h (some ip) := by
  intro e he hne
  have hx := State.handler_of_entry he
  rw [State.setHandler_handler, if_neg hne] at hx
  by_cases hidle : e.2 = .idle
  · rw [hidle]
    rfl
  · have hentry := State.entry_of_handler (s := s) (h := e.1) (by rw [hx]; exact hidle)
    rw [hx] at hentry
    exact hno e hentry hne

theorem redemption_step (hs : Redemption s) (hc : NoOverlap s a)
    (hstep : step p s a = some t) : Redemption t := by
  cases step_effect hstep with
  | unchanged => exact hs
  | quiet a h x hx => exact redemption_quiet hs h hx
  | answered h req ip c r token =>
    exact redemption_record (redemption_quiet hs h (x := .idle) rfl) (by simp)
  | prepared h req ip found c r => exact redemption_setHandler hs h (by simp)
  | pushed h req ip c r hh =>
    simp only [NoOverlap, hh, Handler.writes] at hc
    have hidle := redemption_quiet hs h (x := .idle) rfl
    have hstored := redemption_store hidle c req r (h := h)
      (by simp [State.setHandler_handler]) (noOther_setHandler hc)
    exact redemption_record hstored (by simp)
  | validated h req ip key c response hget =>
    apply redemption_setHandler hs h
    intro req' ip' serial' c' response' heq
    cases heq
    exact ⟨le_rfl,hs.unredeemed ip c hget,fun c' hc' =>
      ⟨rfl,Option.some.inj (hc'.symm.trans hget)⟩⟩
  | redeemed h req ip serial c response hh =>
    simp only [NoOverlap, hh, Handler.writes] at hc
    exact redemption_redeem hs hh hc
  | refreshed => exact redemption_record hs (by simp)
  | admitted => exact redemption_record hs (by simp)
  | expired clock => exact redemption_expire hs clock

theorem redemption_atomic_of_no_overlap (p : Platform) (as : List Action)
    (hc : Along (step p) NoOverlap init as) : Along (step p) RedeemsExactly init as := by
  refine along_of_invariant (fun _ _ _ => redemption_step) ?_ redemption_init hc
  intro s a hs _
  cases a with
  | tokensRemove h =>
    intro req ip serial c response hh
    exact (hs.redeeming h req ip serial c response hh).2
  | _ => trivial

def overlappingRedemption : List Action :=
  [.challengeStart 0 (challengeRequest validatorKey),.challengeLookup 0,
    .challengeAnswer 0 (readingsAt 0) "abcdefghi",.challengePush 0,
    .tokensLookup 0 (tokensRequest validatorKey "abcdefghi"),
    .tokensLookup 1 (tokensRequest validatorKey "abcdefghi"),.tokensRemove 1,
    .challengeStart 2 (challengeRequest validatorKey),.challengeLookup 2,
    .challengeAnswer 2 (readingsAt nanosPerSec) "jklmnopqr",.challengePush 2]

def redeemedAgain (s : State) (h : Nat) : Bool :=
  match s.handler h with
  | .redeeming _ ip serial _ _ =>
      decide (s.pushes ip ≠ serial) && (s.challenges.getPriority ip).isSome &&
        s.log.any fun
          | .redeemed ip' serial' _ _ _ => decide (ip' = ip ∧ serial' = serial)
          | _ => false
  | _ => false

theorem not_redeemsExactly_of_again {h : Nat} (hs : redeemedAgain s h = true) :
    ¬ RedeemsExactly s (.tokensRemove h) := by
  intro hexact
  unfold redeemedAgain at hs
  split at hs
  · rename_i req ip serial c response hh
    obtain ⟨⟨hne,hsome⟩,_⟩ : (s.pushes ip ≠ serial ∧
        (s.challenges.getPriority ip).isSome = true) ∧ _ := by
      simpa only [Bool.and_eq_true, decide_eq_true_eq] using hs
    obtain ⟨c',hc'⟩ := Option.isSome_iff_exists.mp hsome
    exact hne ((hexact req ip serial c response hh).2 c' hc').1
  · cases hs

theorem challenge_redeemed_twice :
    Clocked (overlappingRedemption ++ [.tokensRemove 0]) ∧
      (∃ s, run (step referencePlatform) init (overlappingRedemption ++ [.tokensRemove 0]) =
        some s) ∧
      ¬ Along (step referencePlatform) RedeemsExactly init
        (overlappingRedemption ++ [.tokensRemove 0]) := by
  obtain ⟨s,hs,ha⟩ := exists_run_of_map (step referencePlatform) init
    overlappingRedemption (fun s => redeemedAgain s 0) (by decide +kernel)
  refine ⟨by decide,?_,fun hall => not_redeemsExactly_of_again ha (along_append hall hs).1⟩
  obtain ⟨t,ht,_⟩ := exists_run_of_map (step referencePlatform) init
    (overlappingRedemption ++ [.tokensRemove 0]) (fun _ => true) (by decide +kernel)
  exact ⟨t,ht⟩

def interleavedRedemptions : List Action :=
  [.challengeStart 0 (challengeRequest validatorKey),.challengeLookup 0,
    .challengeAnswer 0 (readingsAt 0) "abcdefghi",.challengePush 0,
    .challengeStart 1 (fromNeighbour (challengeRequest validatorKey)),
    .tokensLookup 0 (tokensRequest validatorKey "abcdefghi"),.challengeLookup 1,
    .challengeAnswer 1 (readingsAt nanosPerSec) "jklmnopqr",.challengePush 1,
    .tokensLookup 2 (fromNeighbour (tokensRequest validatorKey "jklmnopqr")),
    .tokensRemove 0,.tokensRemove 2]

def redemptions (s : State) : Nat :=
  s.log.countP fun
    | .redeemed .. => true
    | _ => false

theorem interleaved_redemptions_atomic :
    ∃ s, run (step referencePlatform) init interleavedRedemptions = some s ∧ redemptions s = 2 ∧
      Along (step referencePlatform) NoOverlap init interleavedRedemptions ∧
      Along (step referencePlatform) RedeemsExactly init interleavedRedemptions := by
  obtain ⟨s,hs,htwo⟩ := exists_run_of_map (step referencePlatform) init interleavedRedemptions
    (fun s => decide (redemptions s = 2)) (by decide +kernel)
  have hc : Along (step referencePlatform) NoOverlap init interleavedRedemptions := by
    decide +kernel
  exact ⟨s,hs,of_decide_eq_true htwo,hc,
    redemption_atomic_of_no_overlap referencePlatform interleavedRedemptions hc⟩

end InertiaRelayer.Auth
