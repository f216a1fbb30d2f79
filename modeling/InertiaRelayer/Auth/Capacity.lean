import InertiaRelayer.Auth.Sequential
import InertiaRelayer.Auth.Session

namespace InertiaRelayer.Auth
open Machine

def Handler.inFlight : Handler → Bool
  | .entered _ _ => true
  | .looked _ _ _ => true
  | .pushing _ _ _ _ => true
  | _ => false

def State.inFlight (s : State) : Nat := s.handlers.count Handler.inFlight

def State.load (s : State) : Nat := s.challenges.len + s.inFlight

def HasRoom (s : State) : Action → Prop
  | .challengeStart _ _ =>
      authChallengesCapacity ≤ s.challenges.len ∨ s.load < authChallengesCapacity
  | _ => True

instance (s : State) : ∀ a, Decidable (HasRoom s a)
  | .challengeStart _ _ => inferInstanceAs (Decidable
      (authChallengesCapacity ≤ s.challenges.len ∨ s.load < authChallengesCapacity))
  | .challengeLookup .. | .challengeAnswer .. | .challengePush .. | .tokensLookup ..
  | .tokensRemove .. | .refresh .. | .relayerRequest .. | .expire .. | .abort .. =>
      .isTrue trivial

section Load

variable {p : Platform} {s t : State} {a : Action} {h : Nat}

theorem inFlight_setHandler (s : State) (h : Nat) (x : Handler) :
    (s.setHandler h x).inFlight + (s.handler h).inFlight.toNat =
      s.inFlight + x.inFlight.toNat := by
  have hcount := KeyMap.count_insert Handler.inFlight s.handlers h x
  have hold : s.handlers.countAt Handler.inFlight h = (s.handler h).inFlight.toNat := by
    unfold KeyMap.countAt State.handler
    cases s.handlers.lookup h <;> rfl
  rwa [hold] at hcount

theorem inFlight_setHandler_le {x : Handler} (hx : x.inFlight = true → (s.handler h).inFlight) :
    (s.setHandler h x).inFlight ≤ s.inFlight := by
  have hcount := inFlight_setHandler s h x
  cases hold : (s.handler h).inFlight with
  | true =>
    have hle := Bool.toNat_le x.inFlight
    rw [hold, Bool.toNat_true] at hcount
    omega
  | false =>
    have hnew : x.inFlight = false := by
      rw [hold] at hx
      simpa using hx
    rw [hold, hnew] at hcount
    omega

theorem load_setHandler_le {x : Handler} (hx : x.inFlight = true → (s.handler h).inFlight) :
    (s.setHandler h x).load ≤ s.load :=
  Nat.add_le_add_left (inFlight_setHandler_le hx) _

theorem load_idle_le {x : Handler} (hx : x.inFlight = false) :
    (s.setHandler h x).load ≤ s.load :=
  load_setHandler_le (fun hflight => by cases hx.symm.trans hflight)

theorem load_answerStep {req : GenerateAuthChallengeRequest} {ip : IpAddr}
    {found : Option AuthChallenge} {r : Readings} {token : String}
    (hs : s.handler h = .looked req ip found) :
    (answerStep p s h req ip found r token).load ≤ s.load := by
  have hold : (s.handler h).inFlight = true := by rw [hs]; rfl
  unfold answerStep
  split
  · exact load_idle_le rfl
  · rename_i challenge ha
    show (s.setHandler h .idle).load ≤ s.load
    exact load_idle_le rfl
  · exact load_setHandler_le (fun _ => hold)

theorem load_push {req : GenerateAuthChallengeRequest} {ip : IpAddr} {entry : AuthChallenge}
    {r : Readings} (hs : s.handler h = .pushing req ip entry r) :
    (((s.setHandler h .idle).store ip entry req r).record
      (.answered ip req entry.challenge)).load ≤ s.load := by
  have hcount := inFlight_setHandler s h .idle
  have hsize := KeyMap.size_insert_le s.challenges ip entry
  have hold : (s.handler h).inFlight = true := by rw [hs]; rfl
  have hidle : Handler.inFlight .idle = false := rfl
  rw [hold, hidle, Bool.toNat_true, Bool.toNat_false] at hcount
  show KeyMap.size (s.challenges.insert ip entry) + (s.setHandler h .idle).inFlight ≤
    s.challenges.size + s.inFlight
  omega

theorem admitChallenge_ok {len : Nat} {req : Request GenerateAuthChallengeRequest} {ip : IpAddr}
    (h : admitChallenge len req = .ok ip) : len < authChallengesCapacity := by
  obtain ⟨_,_,h⟩ := bind_ok h
  split at h
  · cases h
  · rename_i hlen
    exact Nat.lt_of_not_le hlen

theorem load_entered (s : State) (h : Nat) (req : GenerateAuthChallengeRequest) (ip : IpAddr) :
    (s.setHandler h (.entered req ip)).load ≤ s.load + 1 := by
  have hcount := inFlight_setHandler s h (.entered req ip)
  have hle := Bool.toNat_le (Handler.entered req ip).inFlight
  show s.challenges.len + _ ≤ s.challenges.len + s.inFlight + 1
  omega

theorem load_remove (s : State) (h : Nat) (ip : IpAddr) :
    ((s.setHandler h .idle).remove ip).load ≤ s.load :=
  (Nat.add_le_add_right (KeyMap.size_erase_le s.challenges ip) _).trans (load_idle_le rfl)

theorem load_step (hstep : step p s a = some t) :
    t.load ≤ s.load ∨ (t.load ≤ s.load + 1 ∧ s.challenges.len < authChallengesCapacity ∧
      ∃ h req, a = .challengeStart h req) := by
  cases a with
  | challengeStart n req =>
    obtain rfl | ⟨ip,hclient,rfl⟩ := challengeStart_inv hstep
    · exact .inl le_rfl
    · exact .inr ⟨load_entered s n _ ip,admitChallenge_ok hclient,n,req,rfl⟩
  | challengeLookup n =>
    obtain ⟨req,ip,hs,rfl⟩ := challengeLookup_inv hstep
    exact .inl (load_setHandler_le (fun _ => by rw [hs]; rfl))
  | challengeAnswer n r token =>
    obtain ⟨req,ip,found,hs,_,rfl⟩ := challengeAnswer_inv hstep
    exact .inl (load_answerStep hs)
  | challengePush n =>
    obtain ⟨req,ip,entry,r,hs,rfl⟩ := challengePush_inv hstep
    exact .inl (load_push hs)
  | tokensLookup n req =>
    left
    obtain rfl | ⟨ip,key,_,rfl⟩ := tokensLookup_inv hstep
    · exact le_rfl
    · obtain heq | ⟨entry,response,heq⟩ := redeemStep_cases p s n req.message ip key
      · rw [heq]
      · rw [heq]
        exact load_idle_le rfl
  | tokensRemove n =>
    obtain ⟨req,ip,serial,entry,response,hs,rfl⟩ := tokensRemove_inv hstep
    exact .inl (load_remove s n ip)
  | refresh req now issued =>
    left
    obtain ⟨_,rfl⟩ := refresh_inv hstep
    obtain heq | ⟨claims,token,heq⟩ := refreshStep_cases p s req now issued
    · rw [heq]
    · rw [heq]
      exact le_rfl
  | relayerRequest metadata now =>
    left
    obtain rfl | ⟨token,_,_,rfl⟩ := relayerRequest_inv hstep
    · exact le_rfl
    · obtain heq | ⟨claims,heq⟩ := relayerStep_cases p s metadata token now
      · rw [heq]
      · rw [heq]
        exact le_rfl
  | expire clock =>
    cases hstep
    exact .inl (Nat.add_le_add_right (Heap.size_popWhile_le p.heap _ _ clock s.challenges) _)
  | abort n =>
    cases hstep
    exact .inl (load_idle_le rfl)

end Load

theorem stored_le_capacity_of_room (p : Platform) (as : List Action) (s : State)
    (hrun : run (step p) init as = some s) (hroom : Along (step p) HasRoom init as) :
    s.challenges.len ≤ authChallengesCapacity := by
  have hload : s.load ≤ authChallengesCapacity := by
    refine run_invariant_along (I := fun s => s.load ≤ authChallengesCapacity) ?_
      (by decide) hroom hrun
    intro s a t hs hc hstep
    rcases load_step hstep with hle | ⟨hle,hlen,n,req,rfl⟩
    · exact hle.trans hs
    · rcases hc with hfull | hfree
      · exact absurd hlen (Nat.not_lt.mpr hfull)
      · exact hle.trans hfree
  exact (Nat.le_add_right _ _).trans hload

def storedAndPushing : List Action :=
  [.challengeStart 0 (challengeRequest validatorKey),.challengeLookup 0,
    .challengeStart 1 (fromNeighbour (challengeRequest validatorKey)),
    .challengeAnswer 0 (readingsAt 0) "abcdefghi",.challengePush 0,.challengeLookup 1,
    .challengeAnswer 1 (readingsAt nanosPerSec) "jklmnopqr"]

theorem second_challenge_within_capacity :
    ∃ s, run (step referencePlatform) init storedAndPushing = some s ∧ s.challenges.len = 1 ∧
      s.inFlight = 1 ∧ s.challenges.len ≤ authChallengesCapacity := by
  obtain ⟨s,hs,hone⟩ := exists_run_of_map (step referencePlatform) init storedAndPushing
    (fun s => decide (s.challenges.len = 1 ∧ s.inFlight = 1)) (by decide +kernel)
  obtain ⟨hlen,hinFlight⟩ := of_decide_eq_true hone
  exact ⟨s,hs,hlen,hinFlight,
    stored_le_capacity_of_room referencePlatform storedAndPushing s hs (by decide +kernel)⟩

section Flood

def floodIp (n : Nat) : IpAddr := .v6 0 0 0 0 0 0 (UInt16.ofNat (n / 65536)) (UInt16.ofNat n)

theorem floodIp_inj {m n : Nat} (hm : m < 2 ^ 32) (hn : n < 2 ^ 32) (h : floodIp m = floodIp n) :
    m = n := by
  obtain ⟨hhigh,hlow⟩ : UInt16.ofNat (m / 65536) = UInt16.ofNat (n / 65536) ∧
      UInt16.ofNat m = UInt16.ofNat n := by simpa [floodIp] using h
  have hhigh := congrArg UInt16.toNat hhigh
  have hlow := congrArg UInt16.toNat hlow
  simp only [UInt16.toNat_ofNat'] at hhigh hlow
  omega

def floodRequest (n : Nat) : Request GenerateAuthChallengeRequest :=
  ⟨some ⟨floodIp n,11225⟩,⟨Role.validator.toI32,validatorKey.bytes⟩⟩

def floodEntry (n : Nat) : AuthChallenge where
  challenge := "abcdefghi"
  accessClaims := ⟨floodIp n,validatorKey,0 + accessTokenTtl⟩
  refreshClaims := ⟨floodIp n,validatorKey,0 + refreshTokenTtl⟩
  expiresAtUtc := 0 + challengeTtl

def floodHandler (n : Nat) : Handler :=
  .pushing (floodRequest n).message (floodIp n) (floodEntry n) (readingsAt 0)

def floodLookups (n : Nat) : List Action :=
  (List.range n).flatMap fun i => [.challengeStart i (floodRequest i),.challengeLookup i,
    .challengeAnswer i (readingsAt 0) "abcdefghi"]

def floodPushes (n : Nat) : List Action := (List.range n).map .challengePush

theorem floodEntry_created (n : Nat) :
    createChallenge referencePlatform (floodRequest n).message (floodIp n) (readingsAt 0)
      "abcdefghi" = .ok (floodEntry n) := by
  have hadd (ttl : Int) (h : referencePlatform.inRange (0 + ttl) = true) :
      referencePlatform.add 0 ttl = .ok (0 + ttl) := if_pos h
  have hkey : Pubkey.tryFrom validatorKey.bytes = some validatorKey :=
    Pubkey.tryFrom_bytes validatorKey
  have hlen : validatorKey.bytes.length = pubkeyBytes := validatorKey.length_eq
  have hauth : referencePlatform.isAuthorized validatorKey = true := rfl
  simp only [createChallenge, floodRequest, hkey, hlen, hauth, newChallenge, readingsAt,
    hadd accessTokenTtl (by decide), hadd refreshTokenTtl (by decide),
    hadd challengeTtl (by decide)]
  rfl

theorem flood_lookup_runs {s : State} {n : Nat} (hs : s.challenges = ∅)
    (hidle : s.handler n = .idle) :
    ∃ t, run (step referencePlatform) s [.challengeStart n (floodRequest n),.challengeLookup n,
        .challengeAnswer n (readingsAt 0) "abcdefghi"] = some t ∧ t.challenges = ∅ ∧
      ∀ i, t.handler i = if i = n then floodHandler n else s.handler i := by
  have hclient : admitChallenge s.challenges.len (floodRequest n) = .ok (floodIp n) := by
    rw [hs]
    rfl
  obtain ⟨u,hu,hstore,hother,hlooked⟩ :
      ∃ u, run (step referencePlatform) s
          [.challengeStart n (floodRequest n),.challengeLookup n] = some u ∧
        u.challenges = ∅ ∧ (∀ i, i ≠ n → u.handler i = s.handler i) ∧
        u.handler n = .looked (floodRequest n).message (floodIp n) none := by
    have hstart : step referencePlatform s (.challengeStart n (floodRequest n)) =
        some (s.setHandler n (.entered (floodRequest n).message (floodIp n))) := by
      simp [step, hidle, hclient]
    have hlookup := challengeLookup_step (p := referencePlatform)
      (setHandler_self s n (.entered (floodRequest n).message (floodIp n)))
    refine ⟨_,run_pair hstart hlookup,hs,?_,?_⟩
    · intro i hi
      simp [State.setHandler_handler, hi]
    · rw [setHandler_self, State.setHandler_challenges, hs]
      rfl
  have hfresh : answerStep referencePlatform u n (floodRequest n).message (floodIp n) none
      (readingsAt 0) "abcdefghi" = u.setHandler n (floodHandler n) := by
    simp only [answerStep, answerChallenge, floodEntry_created]
    rfl
  have hanswer : step referencePlatform u (.challengeAnswer n (readingsAt 0) "abcdefghi") =
      some (u.setHandler n (floodHandler n)) := by
    rw [← hfresh]
    exact challengeAnswer_step hlooked (by decide) (by decide)
  refine ⟨_,run_concat hu hanswer,hstore,?_⟩
  intro i
  rw [State.setHandler_handler]
  split
  · rfl
  · rename_i hne
    exact hother i hne

theorem flood_lookups_run (n : Nat) :
    ∃ s, run (step referencePlatform) init (floodLookups n) = some s ∧ s.challenges = ∅ ∧
      ∀ i, s.handler i = if i < n then floodHandler i else .idle := by
  induction n with
  | zero => exact ⟨init,rfl,rfl,fun i => rfl⟩
  | succ n ih =>
    obtain ⟨s,hrun,hstore,hhandler⟩ := ih
    obtain ⟨t,hnext,hempty,hlast⟩ := flood_lookup_runs hstore
      (show s.handler n = .idle by rw [hhandler, if_neg (Nat.lt_irrefl n)])
    refine ⟨t,?_,hempty,?_⟩
    · rw [floodLookups, List.range_succ, List.flatMap_append, run_append]
      change (run (step referencePlatform) init (floodLookups n)).bind _ = _
      rw [hrun]
      exact hnext
    · intro i
      rw [hlast, hhandler]
      by_cases heq : i = n
      · subst heq
        simp
      · have hiff : i < n ↔ i < n + 1 := by omega
        simp only [if_neg heq, hiff]

theorem flood_pushes_run {s : State} {n : Nat} (hn : n ≤ 2 ^ 32) (hs : s.challenges = ∅)
    (hhandler : ∀ i, i < n → s.handler i = floodHandler i) {k : Nat} (hk : k ≤ n) :
    ∃ t, run (step referencePlatform) s (floodPushes k) = some t ∧ t.challenges.len = k ∧
      (∀ i, k ≤ i → t.handler i = s.handler i) ∧
      ∀ i, k ≤ i → i < n → t.challenges.getPriority (floodIp i) = none := by
  induction k with
  | zero =>
    refine ⟨s,rfl,by rw [hs]; rfl,fun _ _ => rfl,?_⟩
    intro i _ _
    rw [hs]
    rfl
  | succ k ih =>
    obtain ⟨t,hrun,hlen,hrest,hfree⟩ := ih (Nat.le_of_succ_le hk)
    have hpushing : t.handler k = floodHandler k := by rw [hrest k le_rfl, hhandler k hk]
    have hpush := challengePush_step (p := referencePlatform) hpushing
    have hlast : floodPushes (k + 1) = floodPushes k ++ [.challengePush k] := by
      simp [floodPushes, List.range_succ]
    rw [hlast]
    refine ⟨_,run_concat hrun hpush,?_,?_,?_⟩
    · have hsize := KeyMap.size_insert_of_lookup_none (v := floodEntry k) (hfree k le_rfl hk)
      exact hsize.trans (congrArg Nat.succ hlen)
    · intro i hi
      have hne : i ≠ k := Nat.ne_of_gt hi
      show (t.setHandler k .idle).handler i = s.handler i
      rw [State.setHandler_handler, if_neg hne, hrest i (Nat.le_of_succ_le hi)]
    · intro i hi hin
      have hne : floodIp i ≠ floodIp k := by
        intro heq
        have := floodIp_inj (hin.trans_le hn) (Nat.lt_of_lt_of_le hk hn) heq
        omega
      exact (AList.lookup_insert_ne hne).trans (hfree i (Nat.le_of_succ_le hi) hin)

end Flood

theorem challenges_exceed_capacity :
    ∃ s, run (step referencePlatform) init (floodLookups (authChallengesCapacity + 1) ++
        floodPushes (authChallengesCapacity + 1)) = some s ∧
      s.challenges.len = authChallengesCapacity + 1 := by
  obtain ⟨s,hlookups,hempty,hhandler⟩ := flood_lookups_run (authChallengesCapacity + 1)
  obtain ⟨t,hpushes,hlen,_⟩ := flood_pushes_run (by decide) hempty
    (fun i hi => by rw [hhandler, if_pos hi]) (Nat.le_refl (authChallengesCapacity + 1))
  refine ⟨t,?_,hlen⟩
  rw [run_append, hlookups, Option.bind_some, hpushes]

end InertiaRelayer.Auth
