import InertiaRelayer.Auth.Provenance
import InertiaRelayer.Auth.Reference

namespace InertiaRelayer.Auth
open History Machine

inductive GoesBack : List Event → String → IpAddr → Nat → AuthChallenge → Prop
  | access {earlier ip serial c req response} :
      GoesBack (.redeemed ip serial c req response :: earlier)
        response.accessToken.value ip serial c
  | refresh {earlier ip serial c req response} :
      GoesBack (.redeemed ip serial c req response :: earlier)
        response.refreshToken.value ip serial c
  | refreshed {earlier presented claims now issued token ip serial c} :
      GoesBack earlier presented ip serial c →
      GoesBack (.refreshed presented claims now issued token :: earlier) token.value ip serial c
  | older {earlier e token ip serial c} :
      GoesBack earlier token ip serial c → GoesBack (e :: earlier) token ip serial c

def SessionBound (earlier : List Event) (presented : String) (claims : Claims)
    (now : Int) : Prop :=
  ∃ ip serial c req r, GoesBack earlier presented ip serial c ∧
    c.accessClaims.clientPubkey = claims.clientPubkey ∧
    Event.stored ip serial c req r ∈ earlier ∧ now < r.refresh + refreshTokenTtl

def SessionsBounded (log : List Event) : Prop :=
  ∀ later earlier presented claims now issued token,
    log = later ++ .refreshed presented claims now issued token :: earlier →
      SessionBound earlier presented claims now

def Clocked (as : List Action) : Prop := (as.flatMap Action.readings).Pairwise (· ≤ ·)

instance (as : List Action) : Decidable (Clocked as) := by unfold Clocked; infer_instance

def tokensResponses (log : List Event) : List String :=
  log.flatMap fun
    | .redeemed _ _ _ _ response => [response.accessToken.value,response.refreshToken.value]
    | _ => []

def RefreshesTokensResponse (p : Platform) (s : State) : Action → Prop
  | .refresh req _ _ =>
      p.verifyWithKey req.refreshToken = none ∨ req.refreshToken ∈ tokensResponses s.log
  | _ => True

instance (p : Platform) (s : State) : ∀ a, Decidable (RefreshesTokensResponse p s a)
  | .refresh req _ _ => inferInstanceAs (Decidable
      (p.verifyWithKey req.refreshToken = none ∨ req.refreshToken ∈ tokensResponses s.log))
  | .challengeStart .. | .challengeLookup .. | .challengeAnswer .. | .challengePush ..
  | .tokensLookup .. | .tokensRemove .. | .relayerRequest .. | .expire .. | .abort .. =>
      .isTrue trivial

def FromTokensResponse : Event → List Event → Prop
  | .refreshed presented _ _ _ _, earlier => presented ∈ tokensResponses earlier
  | _, _ => True

variable {p : Platform} {s t : State} {a : Action}

theorem mem_tokensResponses {log : List Event} {token : String}
    (h : token ∈ tokensResponses log) :
    ∃ ip serial c req response, Event.redeemed ip serial c req response ∈ log ∧
      (token = response.accessToken.value ∨ token = response.refreshToken.value) := by
  obtain ⟨e,he,ht⟩ := List.mem_flatMap.mp h
  cases e with
  | redeemed ip serial c req response =>
    exact ⟨ip,serial,c,req,response,he,by simpa using ht⟩
  | _ => simp at ht

theorem goesBack_of_redeemed {log : List Event} {token : String} {ip : IpAddr} {serial : Nat}
    {c : AuthChallenge} {req : GenerateAuthTokensRequest} {response : GenerateAuthTokensResponse}
    (h : Event.redeemed ip serial c req response ∈ log)
    (ht : token = response.accessToken.value ∨ token = response.refreshToken.value) :
    GoesBack log token ip serial c := by
  induction log with
  | nil => cases h
  | cons e log ih =>
    rcases List.mem_cons.mp h with rfl | h
    · rcases ht with rfl | rfl
      · exact .access
      · exact .refresh
    · exact .older (ih h)

theorem fromTokensResponse_step (hs : Justified FromTokensResponse s.log)
    (hc : RefreshesTokensResponse p s a) (hstep : step p s a = some t) :
    Justified FromTokensResponse t.log := by
  cases step_effect hstep with
  | unchanged => exact hs
  | quiet => exact hs
  | answered => exact ⟨trivial,hs⟩
  | prepared => exact hs
  | pushed => exact ⟨trivial,trivial,hs⟩
  | validated => exact hs
  | redeemed => exact ⟨trivial,hs⟩
  | refreshed req now issued claims token hp ha hr ht =>
    obtain ⟨header,deSer,hv,_⟩ := acceptRefresh_ok ha
    rcases hc with hn | hm
    · rw [hn] at hv
      cases hv
    · exact ⟨hm,hs⟩
  | admitted => exact ⟨trivial,hs⟩
  | expired => exact hs

theorem lt_refresh_expiry {req : GenerateAuthChallengeRequest} {ip : IpAddr} {r : Readings}
    {c : AuthChallenge} {reqT : GenerateAuthTokensRequest} {key : p.PublicKey}
    {response : GenerateAuthTokensResponse} {claims : Claims} {token : String} {now : Int}
    (hcreated : Created p req ip r c) (hr : r.Ordered) (hred : Redeems p reqT key c response)
    (ht : token = response.accessToken.value ∨ token = response.refreshToken.value)
    (hcarries : Carries p token claims) (hexp : claims.isExpired now = false) :
    c.accessClaims.clientPubkey = claims.clientPubkey ∧ now < r.refresh + refreshTokenTtl := by
  rcases ht with rfl | rfl
  · have hd := carries_of_sign hred.access hcarries
    have hlt := Platform.not_expired_of_deSer hd hexp
    rw [hcreated.access] at hlt
    have hle := hr.2.1
    refine ⟨(Platform.claims_of_deSer hd).2.1.symm,?_⟩
    simp only [accessTokenTtl, refreshTokenTtl, nanosPerSec] at hlt ⊢
    omega
  · have hd := carries_of_sign hred.refresh hcarries
    have hlt := Platform.not_expired_of_deSer hd hexp
    have hkey := (Platform.claims_of_deSer hd).2.1
    rw [hcreated.refresh] at hlt hkey
    exact ⟨hkey.symm,hlt⟩

theorem sessions_bounded_of_tokens_responses (p : Platform) (as : List Action) (s : State)
    (hrun : run (step p) init as = some s)
    (hcond : Along (step p) (RefreshesTokensResponse p) init as) : SessionsBounded s.log := by
  have hlog := (provenance_run hrun).log
  have hfrom : Justified FromTokensResponse s.log :=
    run_invariant_along (I := fun s : State => Justified FromTokensResponse s.log)
      (fun _ _ _ => fromTokensResponse_step)
      (show Justified FromTokensResponse init.log from trivial) hcond hrun
  intro later earlier presented claims now issued token hl
  obtain ⟨⟨_,hcarries,hexp,_⟩,hearlier⟩ := justified_at hlog hl
  obtain ⟨ip,serial,c,req,response,hm,ht⟩ := mem_tokensResponses (justified_at hfrom hl).1
  obtain ⟨mid,rest,hsplit,⟨⟨creq,r,hstored⟩,key,_,hred⟩,hrest⟩ := justified_mem hearlier hm
  obtain ⟨_,_,_,⟨hcreated,hr⟩,_⟩ := justified_mem hrest hstored
  obtain ⟨hkey,hlt⟩ := lt_refresh_expiry hcreated hr hred ht hcarries hexp
  refine ⟨ip,serial,c,creq,r,goesBack_of_redeemed hm ht,hkey,?_,hlt⟩
  rw [hsplit]
  simp [hstored]

def overdue : List Event → Bool
  | .refreshed _ _ now _ _ :: earlier => earlier.all fun
      | .stored _ _ _ _ r => decide (r.refresh + refreshTokenTtl ≤ now)
      | _ => true
  | _ => false

theorem not_bounded_of_overdue {log : List Event} (h : overdue log = true) :
    ¬ SessionsBounded log := by
  intro hb
  cases log with
  | nil => cases h
  | cons e earlier =>
    cases e with
    | refreshed presented claims now issued token =>
      obtain ⟨ip,serial,c,req,r,_,_,hm,hlt⟩ := hb [] earlier presented claims now issued token rfl
      have hle := List.all_eq_true.mp h _ hm
      exact absurd hlt (not_lt.mpr (of_decide_eq_true hle))
    | _ => cases h

section Validator

def validatorKey : Pubkey := ⟨List.replicate 32 0,by decide⟩
def validatorIp : IpAddr := .v4 10 0 0 1
def validatorAddr : SocketAddr := ⟨validatorIp,11225⟩

def challengeRequest (key : Pubkey) : Request GenerateAuthChallengeRequest :=
  ⟨some validatorAddr,⟨Role.validator.toI32,key.bytes⟩⟩

def tokensRequest (key : Pubkey) (challenge : String) : Request GenerateAuthTokensRequest :=
  ⟨some validatorAddr,
    ⟨expectedChallenge referencePlatform key challenge,key.bytes,key.bytes ++ key.bytes⟩⟩

def fromNeighbour {μ : Type} (req : Request μ) : Request μ :=
  { req with remoteAddr := some ⟨.v4 10 0 0 2,11225⟩ }

def readingsAt (t : Int) : Readings := ⟨t,t,t,t⟩

def jwtExpiring (key : Pubkey) (secs : Int) : String :=
  String.ofList (tokenText ⟨ipText.text validatorIp,pubkeyText.text key,secs⟩)

def handshake : List Action :=
  [.challengeStart 0 (challengeRequest validatorKey),.challengeLookup 0,
    .challengeAnswer 0 (readingsAt 0) "abcdefghi",.challengePush 0,
    .tokensLookup 0 (tokensRequest validatorKey "abcdefghi"),.tokensRemove 0]

def refreshAt (token : String) (secs : Int) : Action :=
  .refresh ⟨token⟩ (secs * nanosPerSec) (secs * nanosPerSec)

def accessTokenChain : List Action :=
  handshake ++ [refreshAt (jwtExpiring validatorKey 180000) 179000,
    refreshAt (jwtExpiring validatorKey 180800) 180500]

end Validator

theorem access_token_outlives_session :
    Clocked accessTokenChain ∧
      ∃ s, run (step referencePlatform) init accessTokenChain = some s ∧
        ¬ SessionsBounded s.log := by
  refine ⟨by decide,?_⟩
  obtain ⟨s,hs,ho⟩ := exists_run_of_map (step referencePlatform) init
    accessTokenChain (fun s => overdue s.log) (by decide +kernel)
  exact ⟨s,hs,not_bounded_of_overdue ho⟩

theorem refresh_token_session_bounded :
    ∃ s, run (step referencePlatform) init
        (handshake ++ [refreshAt (jwtExpiring validatorKey 180000) 179000]) = some s ∧
      s.log.length = 4 ∧ SessionsBounded s.log := by
  obtain ⟨s,hs,hl⟩ := exists_run_of_map (step referencePlatform) init
    (handshake ++ [refreshAt (jwtExpiring validatorKey 180000) 179000])
    (fun s => decide (s.log.length = 4)) (by decide +kernel)
  exact ⟨s,hs,of_decide_eq_true hl,
    sessions_bounded_of_tokens_responses referencePlatform _ s hs (by decide +kernel)⟩

end InertiaRelayer.Auth
