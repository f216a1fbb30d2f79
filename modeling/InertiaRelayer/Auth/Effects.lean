import InertiaRelayer.Auth.System

namespace InertiaRelayer.Auth

def Handler.quiet : Handler → Bool
  | .idle => true
  | .entered _ _ => true
  | .looked _ _ _ => true
  | _ => false

inductive Effect (p : Platform) (s : State) : Action → State → Prop
  | unchanged (a : Action) : Effect p s a s
  | quiet (a : Action) (h : Nat) (x : Handler) (hx : x.quiet = true) :
      Effect p s a (s.setHandler h x)
  | answered (h : Nat) (req : GenerateAuthChallengeRequest) (ip : IpAddr) (c : AuthChallenge)
      (r : Readings) (token : String) (hs : s.handler h = .looked req ip (some c))
      (hc : c.isExpired r.lookup = false) :
      Effect p s (.challengeAnswer h r token)
        ((s.setHandler h .idle).record (.answered ip req c.challenge))
  | prepared (h : Nat) (req : GenerateAuthChallengeRequest) (ip : IpAddr)
      (found : Option AuthChallenge) (c : AuthChallenge) (r : Readings)
      (hs : s.handler h = .looked req ip found) (hr : r.Ordered) (hc : Created p req ip r c) :
      Effect p s (.challengeAnswer h r c.challenge) (s.setHandler h (.pushing req ip c r))
  | pushed (h : Nat) (req : GenerateAuthChallengeRequest) (ip : IpAddr) (c : AuthChallenge)
      (r : Readings) (hs : s.handler h = .pushing req ip c r) :
      Effect p s (.challengePush h)
        (((s.setHandler h .idle).store ip c req r).record (.answered ip req c.challenge))
  | validated (h : Nat) (req : Request GenerateAuthTokensRequest) (ip : IpAddr)
      (key : p.PublicKey) (c : AuthChallenge) (response : GenerateAuthTokensResponse)
      (hs : s.challenges.getPriority ip = some c)
      (hk : p.publicKeyFromBytes req.message.clientPubkey = some key)
      (hr : Redeems p req.message key c response) :
      Effect p s (.tokensLookup h req)
        (s.setHandler h (.redeeming req.message ip (s.pushes ip) c response))
  | redeemed (h : Nat) (req : GenerateAuthTokensRequest) (ip : IpAddr) (serial : Nat)
      (c : AuthChallenge) (response : GenerateAuthTokensResponse)
      (hs : s.handler h = .redeeming req ip serial c response) :
      Effect p s (.tokensRemove h)
        (((s.setHandler h .idle).remove ip).record (.redeemed ip serial c req response))
  | refreshed (req : RefreshAccessTokenRequest) (now issued : Int) (claims : Claims)
      (token : PbToken) (hp : Presentable p s.log req.refreshToken)
      (ha : acceptRefresh p req now = .ok claims)
      (hr : p.inRange (issued + accessTokenTtl) = true)
      (ht : Signs p ⟨claims.clientIp,claims.clientPubkey,issued + accessTokenTtl⟩ token) :
      Effect p s (.refresh req now issued)
        (s.record (.refreshed req.refreshToken claims now issued token))
  | admitted (metadata : MetadataMap) (now : Int) (token : String) (claims : Claims)
      (hp : Presentable p s.log token) (hb : bearerToken p metadata = .ok token)
      (ha : callerClaims p .rs256 metadata = .ok claims) :
      Effect p s (.relayerRequest metadata now) (s.record (.admitted token claims now))
  | expired (clock : Nat → Int) : Effect p s (.expire clock) (s.expire p clock)

variable {p : Platform} {s t : State} {a : Action}

theorem clientKey_ok {req : GenerateAuthTokensRequest} {key : p.PublicKey}
    (h : clientKey p req = .ok key) : p.publicKeyFromBytes req.clientPubkey = some key := by
  unfold clientKey at h
  split at h
  · cases h
  · rename_i k hk
    cases h
    exact hk

theorem tokensClient_ok {req : Request GenerateAuthTokensRequest} {ip : IpAddr}
    {key : p.PublicKey} (h : tokensClient p req = .ok (ip,key)) :
    clientIp req = .ok ip ∧ p.publicKeyFromBytes req.message.clientPubkey = some key := by
  obtain ⟨_,_,h⟩ := bind_ok h
  obtain ⟨ip',hip,h⟩ := bind_ok h
  obtain ⟨key',hkey,h⟩ := bind_ok h
  cases h
  exact ⟨hip,clientKey_ok hkey⟩

theorem answerStep_effect {h : Nat} {req : GenerateAuthChallengeRequest} {ip : IpAddr}
    {found : Option AuthChallenge} {r : Readings} {token : String}
    (hs : s.handler h = .looked req ip found) (hr : r.Ordered) :
    Effect p s (.challengeAnswer h r token) (answerStep p s h req ip found r token) := by
  unfold answerStep
  split
  · exact .quiet _ h .idle rfl
  · rename_i challenge ha
    obtain ⟨c,rfl,hc,rfl⟩ := answerChallenge_existing ha
    exact .answered h req ip c r token hs hc
  · rename_i entry ha
    obtain ⟨hc,rfl⟩ := answerChallenge_fresh ha
    exact .prepared h req ip found entry r hs hr hc

theorem redeemStep_effect {h : Nat} {req : Request GenerateAuthTokensRequest} {ip : IpAddr}
    {key : p.PublicKey} (hk : p.publicKeyFromBytes req.message.clientPubkey = some key) :
    Effect p s (.tokensLookup h req) (redeemStep p s h req.message ip key) := by
  unfold redeemStep
  split
  · exact .unchanged _
  · rename_i entry he
    split
    · exact .unchanged _
    · rename_i response hr
      exact .validated h req ip key entry response he hk (redeemChallenge_ok hr)

theorem refreshStep_effect {req : RefreshAccessTokenRequest} {now issued : Int}
    (hp : Presentable p s.log req.refreshToken) :
    Effect p s (.refresh req now issued) (refreshStep p s req now issued) := by
  unfold refreshStep
  split
  · exact .unchanged _
  · rename_i claims ha
    split
    · exact .unchanged _
    · rename_i token ht
      obtain ⟨claims',ha',hr,ht'⟩ := refreshAccessToken_ok ht
      obtain rfl := Except.ok.inj (ha.symm.trans ha')
      exact .refreshed req now issued claims token hp ha hr ht'

theorem relayerStep_effect {metadata : MetadataMap} {token : String} {now : Int}
    (hp : Presentable p s.log token) (hb : bearerToken p metadata = .ok token) :
    Effect p s (.relayerRequest metadata now) (relayerStep p s metadata token now) := by
  unfold relayerStep
  split
  · exact .unchanged _
  · rename_i claims ha
    exact .admitted metadata now token claims hp hb ha

theorem redeemStep_cases (p : Platform) (s : State) (h : Nat) (req : GenerateAuthTokensRequest)
    (ip : IpAddr) (key : p.PublicKey) : redeemStep p s h req ip key = s ∨
      ∃ entry response, redeemStep p s h req ip key =
        s.setHandler h (.redeeming req ip (s.pushes ip) entry response) := by
  unfold redeemStep
  split
  · exact .inl rfl
  · split
    · exact .inl rfl
    · exact .inr ⟨_,_,rfl⟩

theorem refreshStep_cases (p : Platform) (s : State) (req : RefreshAccessTokenRequest)
    (now issued : Int) : refreshStep p s req now issued = s ∨
      ∃ claims token, refreshStep p s req now issued =
        s.record (.refreshed req.refreshToken claims now issued token) := by
  unfold refreshStep
  split
  · exact .inl rfl
  · split
    · exact .inl rfl
    · exact .inr ⟨_,_,rfl⟩

theorem relayerStep_cases (p : Platform) (s : State) (metadata : MetadataMap) (token : String)
    (now : Int) : relayerStep p s metadata token now = s ∨
      ∃ claims, relayerStep p s metadata token now = s.record (.admitted token claims now) := by
  unfold relayerStep
  split
  · exact .inl rfl
  · exact .inr ⟨_,rfl⟩

section Inversion

variable {n : Nat}

theorem challengeStart_inv {req : Request GenerateAuthChallengeRequest}
    (h : step p s (.challengeStart n req) = some t) :
    t = s ∨ ∃ ip, admitChallenge s.challenges.len req = .ok ip ∧
      t = s.setHandler n (.entered req.message ip) := by
  simp only [step] at h
  split at h
  · split at h
    · exact .inl (Option.some.inj h).symm
    · rename_i ip hip
      exact .inr ⟨ip,hip,(Option.some.inj h).symm⟩
  · cases h

theorem challengeLookup_inv (h : step p s (.challengeLookup n) = some t) :
    ∃ req ip, s.handler n = .entered req ip ∧
      t = s.setHandler n (.looked req ip (s.challenges.getPriority ip)) := by
  simp only [step] at h
  split at h
  · rename_i req ip hs
    exact ⟨req,ip,hs,(Option.some.inj h).symm⟩
  · cases h

theorem challengeAnswer_inv {r : Readings} {token : String}
    (h : step p s (.challengeAnswer n r token) = some t) :
    ∃ req ip found, s.handler n = .looked req ip found ∧ r.Ordered ∧
      t = answerStep p s n req ip found r token := by
  simp only [step] at h
  split at h
  · rename_i req ip found hs
    split at h
    · rename_i hg
      exact ⟨req,ip,found,hs,hg.1,(Option.some.inj h).symm⟩
    · cases h
  · cases h

theorem challengePush_inv (h : step p s (.challengePush n) = some t) :
    ∃ req ip entry r, s.handler n = .pushing req ip entry r ∧
      t = ((s.setHandler n .idle).store ip entry req r).record
        (.answered ip req entry.challenge) := by
  simp only [step] at h
  split at h
  · rename_i req ip entry r hs
    exact ⟨req,ip,entry,r,hs,(Option.some.inj h).symm⟩
  · cases h

theorem tokensLookup_inv {req : Request GenerateAuthTokensRequest}
    (h : step p s (.tokensLookup n req) = some t) :
    t = s ∨ ∃ ip key, tokensClient p req = .ok (ip,key) ∧
      t = redeemStep p s n req.message ip key := by
  simp only [step] at h
  split at h
  · split at h
    · exact .inl (Option.some.inj h).symm
    · rename_i ip key hc
      exact .inr ⟨ip,key,hc,(Option.some.inj h).symm⟩
  · cases h

theorem tokensRemove_inv (h : step p s (.tokensRemove n) = some t) :
    ∃ req ip serial entry response, s.handler n = .redeeming req ip serial entry response ∧
      t = ((s.setHandler n .idle).remove ip).record
        (.redeemed ip serial entry req response) := by
  simp only [step] at h
  split at h
  · rename_i req ip serial entry response hs
    exact ⟨req,ip,serial,entry,response,hs,(Option.some.inj h).symm⟩
  · cases h

theorem refresh_inv {req : RefreshAccessTokenRequest} {now issued : Int}
    (h : step p s (.refresh req now issued) = some t) :
    Presentable p s.log req.refreshToken ∧ t = refreshStep p s req now issued := by
  simp only [step] at h
  split at h
  · rename_i hg
    exact ⟨hg.1,(Option.some.inj h).symm⟩
  · cases h

theorem relayerRequest_inv {metadata : MetadataMap} {now : Int}
    (h : step p s (.relayerRequest metadata now) = some t) :
    t = s ∨ ∃ token, bearerToken p metadata = .ok token ∧ Presentable p s.log token ∧
      t = relayerStep p s metadata token now := by
  simp only [step] at h
  split at h
  · exact .inl (Option.some.inj h).symm
  · rename_i token hb
    split at h
    · rename_i hp
      exact .inr ⟨token,hb,hp,(Option.some.inj h).symm⟩
    · cases h

end Inversion

theorem step_effect (h : step p s a = some t) : Effect p s a t := by
  cases a with
  | challengeStart n req =>
    obtain rfl | ⟨ip,_,rfl⟩ := challengeStart_inv h
    · exact .unchanged _
    · exact .quiet _ n _ rfl
  | challengeLookup n =>
    obtain ⟨req,ip,_,rfl⟩ := challengeLookup_inv h
    exact .quiet _ n _ rfl
  | challengeAnswer n r token =>
    obtain ⟨req,ip,found,hs,hr,rfl⟩ := challengeAnswer_inv h
    exact answerStep_effect hs hr
  | challengePush n =>
    obtain ⟨req,ip,entry,r,hs,rfl⟩ := challengePush_inv h
    exact .pushed n req ip entry r hs
  | tokensLookup n req =>
    obtain rfl | ⟨ip,key,hc,rfl⟩ := tokensLookup_inv h
    · exact .unchanged _
    · exact redeemStep_effect (tokensClient_ok hc).2
  | tokensRemove n =>
    obtain ⟨req,ip,serial,entry,response,hs,rfl⟩ := tokensRemove_inv h
    exact .redeemed n req ip serial entry response hs
  | refresh req now issued =>
    obtain ⟨hp,rfl⟩ := refresh_inv h
    exact refreshStep_effect hp
  | relayerRequest metadata now =>
    obtain rfl | ⟨token,hb,hp,rfl⟩ := relayerRequest_inv h
    · exact .unchanged _
    · exact relayerStep_effect hp hb
  | expire clock =>
    cases h
    exact .expired clock
  | abort n =>
    cases h
    exact .quiet _ n .idle rfl

end InertiaRelayer.Auth
