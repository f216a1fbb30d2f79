import InertiaRelayer.Auth.Session

namespace InertiaRelayer.Auth
open History Machine

def CarriesUnexpired (p : Platform) (token : PbToken) (t : Int) : Prop :=
  ∃ claims, Carries p token.value claims ∧ claims.isExpired t = false

structure Timely (p : Platform) (c : AuthChallenge) (response : GenerateAuthTokensResponse)
    (t : Int) : Prop where
  challenge : c.isExpired t = false
  access : CarriesUnexpired p response.accessToken t
  refresh : CarriesUnexpired p response.refreshToken t

variable {p : Platform} {s : State}

theorem carriesUnexpired_iff {claims : Claims} {token : PbToken} {t : Int}
    (hs : Signs p claims token) (hr : p.inRange claims.expiresAtUtc = true) :
    CarriesUnexpired p token t ↔ t < timestamp claims.expiresAtUtc * nanosPerSec := by
  constructor
  · rintro ⟨claims',hcarries,hexp⟩
    have hexpiry := (Platform.claims_of_deSer (carries_of_sign hs hcarries)).2.2
    rw [← hexpiry]
    simpa [Claims.isExpired] using hexp
  · intro ht
    refine ⟨_,⟨_,_,p.verify_of_sign _ _ _ hs.value,Platform.claims_deSer_ok hr⟩,?_⟩
    simpa [Claims.isExpired] using ht

theorem timestamp_le {t u : Int} (h : t ≤ u) : timestamp t ≤ timestamp u :=
  Int.ediv_le_ediv (by decide) h

theorem timely_iff {creq : GenerateAuthChallengeRequest} {ip : IpAddr} {r : Readings}
    {c : AuthChallenge} {req : GenerateAuthTokensRequest} {key : p.PublicKey}
    {response : GenerateAuthTokensResponse} {t : Int} (hc : Created p creq ip r c)
    (hr : r.Ordered) (hred : Redeems p req key c response) :
    Timely p c response t ↔ t < timestamp c.accessClaims.expiresAtUtc * nanosPerSec := by
  have haccess := carriesUnexpired_iff (t := t) hred.access hc.access_inRange
  have hrefresh := carriesUnexpired_iff (t := t) hred.refresh hc.refresh_inRange
  constructor
  · intro h
    exact haccess.mp h.access
  · intro ht
    have haccessExpiry : c.accessClaims.expiresAtUtc = r.access + accessTokenTtl := by
      rw [hc.access]
    have hrefreshExpiry : c.refreshClaims.expiresAtUtc = r.refresh + refreshTokenTtl := by
      rw [hc.refresh]
    have hround : timestamp c.accessClaims.expiresAtUtc * nanosPerSec ≤
        r.access + accessTokenTtl := by
      rw [haccessExpiry]
      exact timestamp_mul_le _
    have hordered : r.access + accessTokenTtl ≤ r.refresh + refreshTokenTtl := by
      have hle := hr.2.1
      simp only [accessTokenTtl, refreshTokenTtl, nanosPerSec]
      omega
    have hseconds : timestamp c.accessClaims.expiresAtUtc ≤
        timestamp c.refreshClaims.expiresAtUtc := by
      rw [haccessExpiry, hrefreshExpiry]
      exact timestamp_le hordered
    refine ⟨?_,haccess.mpr ht,hrefresh.mpr ?_⟩
    · have hlater : r.access + accessTokenTtl ≤ c.expiresAtUtc := by
        have hle := Int.le_trans hr.2.1 hr.2.2
        rw [hc.expiry]
        simp only [accessTokenTtl, challengeTtl]
        omega
      have hlt : t < c.expiresAtUtc := by omega
      simpa [AuthChallenge.isExpired] using hlt
    · exact Int.lt_of_lt_of_le ht (Int.mul_le_mul_of_nonneg_right hseconds (by decide))

theorem generateAuthTokens_ok {q q' : AuthChallenges} {req : Request GenerateAuthTokensRequest}
    {response : GenerateAuthTokensResponse}
    (h : generateAuthTokens p q req = .ok (response,q')) :
    ∃ ip key c, clientIp req = .ok ip ∧ q.getPriority ip = some c ∧
      Redeems p req.message key c response := by
  obtain ⟨⟨ip,key⟩,hclient,h⟩ := bind_ok h
  obtain ⟨_,_,hclient⟩ := bind_ok hclient
  obtain ⟨ip',hip,hclient⟩ := bind_ok hclient
  obtain ⟨key',_,hclient⟩ := bind_ok hclient
  cases hclient
  obtain ⟨response',hred,h⟩ := bind_ok h
  cases h
  cases hget : q.getPriority ip with
  | none =>
    rw [hget] at hred
    cases hred
  | some c =>
    rw [hget] at hred
    exact ⟨ip,key,c,hip,hget,redeemChallenge_ok hred⟩

theorem redemption_timely_iff (p : Platform) (as : List Action) (s : State)
    (hrun : run (step p) init as = some s) :
    (∀ req response q' t, generateAuthTokens p s.challenges req = .ok (response,q') →
      ∃ ip c, clientIp req = .ok ip ∧ s.challenges.getPriority ip = some c ∧
        (Timely p c response t ↔ t < timestamp c.accessClaims.expiresAtUtc * nanosPerSec)) ∧
    ∀ ip serial c req response t, Event.redeemed ip serial c req response ∈ s.log →
      (Timely p c response t ↔ t < timestamp c.accessClaims.expiresAtUtc * nanosPerSec) := by
  have hprov := provenance_run hrun
  constructor
  · intro req response q' t h
    obtain ⟨ip,key,c,hip,hget,hred⟩ := generateAuthTokens_ok h
    obtain ⟨creq,r,hstored⟩ := hprov.store ip c hget
    obtain ⟨_,_,_,⟨hcreated,hr⟩,_⟩ := justified_mem hprov.log hstored
    exact ⟨ip,c,hip,hget,timely_iff hcreated hr hred⟩
  · intro ip serial c req response t hmem
    obtain ⟨_,earlier,_,⟨⟨creq,r,hstored⟩,key,_,hred⟩,hearlier⟩ := justified_mem hprov.log hmem
    obtain ⟨_,_,_,⟨hcreated,hr⟩,_⟩ := justified_mem hearlier hstored
    exact timely_iff hcreated hr hred

def challengeThenSweep : List Action :=
  [.challengeStart 0 (challengeRequest validatorKey),.challengeLookup 0,
    .challengeAnswer 0 (readingsAt (100 * nanosPerSec)) "abcdefghi",.challengePush 0,
    .expire (fun _ => 1800 * nanosPerSec)]

def redeemsAround (early late : Int) (s : State) : Bool :=
  match s.challenges.getPriority validatorIp,
    generateAuthTokens referencePlatform s.challenges (tokensRequest validatorKey "abcdefghi") with
  | some c, .ok (response,_) =>
      decide (early < timestamp c.accessClaims.expiresAtUtc * nanosPerSec) && c.isExpired late &&
        decide (response.accessToken.expiresAtUtc * nanosPerSec ≤ late)
  | _, _ => false

theorem redeemsAround_spec {early late : Int} (h : redeemsAround early late s = true) :
    ∃ c response q', s.challenges.getPriority validatorIp = some c ∧
      generateAuthTokens referencePlatform s.challenges
        (tokensRequest validatorKey "abcdefghi") = .ok (response,q') ∧
      early < timestamp c.accessClaims.expiresAtUtc * nanosPerSec ∧ c.isExpired late = true ∧
      response.accessToken.expiresAtUtc * nanosPerSec ≤ late := by
  unfold redeemsAround at h
  split at h
  case h_1 c response q' hget hok =>
    simp only [Bool.and_eq_true, decide_eq_true_eq] at h
    exact ⟨c,response,q',hget,hok,h.1.1,h.1.2,h.2⟩
  case h_2 => cases h

theorem challengeThenSweep_redeems :
    ∃ s, run (step referencePlatform) init challengeThenSweep = some s ∧
      redeemsAround (1899 * nanosPerSec) (1950 * nanosPerSec) s = true :=
  exists_run_of_map (step referencePlatform) init challengeThenSweep _ (by decide +kernel)

theorem redemption_before_expiry_timely :
    ∃ s c response q', run (step referencePlatform) init challengeThenSweep = some s ∧
      generateAuthTokens referencePlatform s.challenges
        (tokensRequest validatorKey "abcdefghi") = .ok (response,q') ∧
      s.challenges.getPriority validatorIp = some c ∧
      Timely referencePlatform c response (1899 * nanosPerSec) := by
  obtain ⟨s,hs,h⟩ := challengeThenSweep_redeems
  obtain ⟨c,response,q',hget,hok,hearly,_,_⟩ := redeemsAround_spec h
  obtain ⟨ip,c',hip,hget',htimely⟩ :=
    (redemption_timely_iff referencePlatform _ s hs).1 _ _ _ (1899 * nanosPerSec) hok
  cases hip
  cases hget.symm.trans hget'
  exact ⟨s,c,response,q',hs,hok,hget,htimely.mpr hearly⟩

theorem expired_challenge_redeemed :
    ∃ s c response q', run (step referencePlatform) init challengeThenSweep = some s ∧
      generateAuthTokens referencePlatform s.challenges
        (tokensRequest validatorKey "abcdefghi") = .ok (response,q') ∧
      s.challenges.getPriority validatorIp = some c ∧
      c.isExpired (1950 * nanosPerSec) = true ∧
      response.accessToken.expiresAtUtc * nanosPerSec ≤ 1950 * nanosPerSec := by
  obtain ⟨s,hs,h⟩ := challengeThenSweep_redeems
  obtain ⟨c,response,q',hget,hok,_,hexp,hlate⟩ := redeemsAround_spec h
  exact ⟨s,c,response,q',hs,hok,hget,hexp,hlate⟩

end InertiaRelayer.Auth
