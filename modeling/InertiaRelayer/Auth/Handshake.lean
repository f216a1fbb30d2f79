import InertiaRelayer.Auth.Session

namespace InertiaRelayer.Auth
open History Machine

def SignedBy (p : Platform) (key : Pubkey) (req : GenerateAuthTokensRequest) : Prop :=
  req.clientPubkey = key.bytes ∧ req.signedChallenge.length = signatureBytes ∧
    ∃ pk sig, p.publicKeyFromBytes key.bytes = some pk ∧
      p.signatureFromBytes req.signedChallenge = some sig ∧ p.verify pk req.challenge sig = true

def Completes (p : Platform) (q : AuthChallenges) (req : Request GenerateAuthTokensRequest)
    (ip : IpAddr) (key : Pubkey) : Prop :=
  ∃ response q', generateAuthTokens p q req = .ok (response,q') ∧
    ∀ token ∈ [response.accessToken,response.refreshToken], ∃ claims,
      Carries p token.value claims ∧ claims.clientPubkey = key ∧ claims.clientIp = ip

def LiveFor (q : AuthChallenges) (ip : IpAddr) (now : Int) (key : Pubkey) : Prop :=
  ∀ c, q.getPriority ip = some c → c.isExpired now = false → c.accessClaims.clientPubkey = key

variable {p : Platform} {s : State}

theorem carries_signed {c : Claims} {token : PbToken} (hs : Signs p c token)
    (hr : p.inRange c.expiresAtUtc = true) :
    ∃ claims, Carries p token.value claims ∧ claims.clientPubkey = c.clientPubkey ∧
      claims.clientIp = c.clientIp :=
  ⟨_,⟨_,_,p.verify_of_sign _ _ _ hs.value,Platform.claims_deSer_ok hr⟩,rfl,rfl⟩

theorem redeemChallenge_complete {c : AuthChallenge} {key : p.PublicKey}
    {req : GenerateAuthTokensRequest}
    (hkey : c.accessClaims.clientPubkey = p.publicKeyToBytes key)
    (hch : req.challenge = expectedChallenge p (p.publicKeyToBytes key) c.challenge)
    (hsig : checkSignature p req key = .ok ())
    (hjwt : ∀ claims, ∃ text, p.signWithKey tokenHeader (p.deSerClaims claims) = some text) :
    ∃ response, redeemChallenge p req key (some c) = .ok response := by
  obtain ⟨access,ha⟩ := hjwt c.accessClaims
  obtain ⟨refresh,hr⟩ := hjwt c.refreshClaims
  refine ⟨⟨⟨access,timestamp c.accessClaims.expiresAtUtc⟩,
    ⟨refresh,timestamp c.refreshClaims.expiresAtUtc⟩⟩,?_⟩
  simp [redeemChallenge, hkey, hch, hsig, signToken, ha, hr, bind, Except.bind, pure, Except.pure]

theorem stored_challenge_created (hs : Provenance p s) {ip : IpAddr} {c : AuthChallenge}
    (h : s.challenges.getPriority ip = some c) : ∃ req r, Created p req ip r c := by
  obtain ⟨req,r,hm⟩ := hs.store ip c h
  obtain ⟨_,_,_,⟨hc,_⟩,_⟩ := justified_mem hs.log hm
  exact ⟨req,r,hc⟩

theorem admitChallenge_ip {len : Nat} {req : Request GenerateAuthChallengeRequest}
    {addr : SocketAddr} {ip : IpAddr} (ha : req.remoteAddr = some addr)
    (h : admitChallenge len req = .ok ip) : ip = addr.ip := by
  obtain ⟨_,_,h⟩ := bind_ok h
  split at h
  · cases h
  · simpa [clientIp, ha] using h.symm

theorem challenge_left_for_pubkey (hs : Provenance p s) {addr : SocketAddr} {key : Pubkey}
    {req : Request GenerateAuthChallengeRequest} {r : Readings} {token challenge : String}
    {q : AuthChallenges} (ha : req.remoteAddr = some addr) (hpub : req.message.pubkey = key.bytes)
    (hlive : LiveFor s.challenges addr.ip r.lookup key)
    (h : generateAuthChallenge p s.challenges req r token = .ok (challenge,q)) :
    ∃ c creq r', q.getPriority addr.ip = some c ∧ c.challenge = challenge ∧
      Created p creq addr.ip r' c ∧ c.accessClaims.clientPubkey = key := by
  obtain ⟨ip,hip,h⟩ := bind_ok h
  obtain rfl := admitChallenge_ip ha hip
  obtain ⟨answer,hans,h⟩ := bind_ok h
  cases answer with
  | existing challenge' =>
    obtain ⟨c,hfound,hexp,rfl⟩ := answerChallenge_existing hans
    cases h
    obtain ⟨creq,r',hc⟩ := stored_challenge_created hs hfound
    exact ⟨c,creq,r',hfound,rfl,hc,hlive c hfound hexp⟩
  | fresh c =>
    obtain ⟨hc,_⟩ := answerChallenge_fresh hans
    cases h
    have hkey : c.accessClaims.clientPubkey = key := by
      have hb := hc.pubkey.symm.trans hpub
      cases hk : c.accessClaims.clientPubkey
      cases key
      simpa [hk] using hb
    exact ⟨c,req.message,r,AuthChallenges.getPriority_push_self _ _ _,rfl,hc,hkey⟩

theorem publicKey_eq {key : Pubkey} {pk : p.PublicKey}
    (h : p.publicKeyFromBytes key.bytes = some pk) : p.publicKeyToBytes pk = key := by
  have hb := p.toBytes_of_fromBytes _ _ h
  cases hk : p.publicKeyToBytes pk
  cases key
  simpa [hk] using hb

theorem tokensClient_of_key {addr : SocketAddr} {key : Pubkey} {pk : p.PublicKey}
    {req : Request GenerateAuthTokensRequest} (ha : req.remoteAddr = some addr)
    (hpub : req.message.clientPubkey = key.bytes) (hpk : p.publicKeyFromBytes key.bytes = some pk) :
    tokensClient p req = .ok (addr.ip,pk) := by
  simp [tokensClient, checkHealth, clientIp, ha, clientKey, hpub, hpk, bind, Except.bind, pure,
    Except.pure]

theorem completes_of_left {addr : SocketAddr} {key : Pubkey} {q : AuthChallenges}
    {c : AuthChallenge} {creq : GenerateAuthChallengeRequest} {r : Readings}
    {treq : Request GenerateAuthTokensRequest}
    (hjwt : ∀ claims, ∃ text, p.signWithKey tokenHeader (p.deSerClaims claims) = some text)
    (hget : q.getPriority addr.ip = some c) (hc : Created p creq addr.ip r c)
    (hkey : c.accessClaims.clientPubkey = key) (htaddr : treq.remoteAddr = some addr)
    (htch : treq.message.challenge = expectedChallenge p key c.challenge)
    (hsigned : SignedBy p key treq.message) : Completes p q treq addr.ip key := by
  obtain ⟨htpub,hlen,pk,sig,hpk,hsig,hver⟩ := hsigned
  have hbytes := publicKey_eq hpk
  obtain ⟨response,hres⟩ := redeemChallenge_complete (c := c) (p := p)
    (hkey.trans hbytes.symm) (by rw [hbytes]; exact htch)
    (checkSignature_ok_iff.mpr ⟨hlen,sig,hsig,hver⟩) hjwt
  have hred := redeemChallenge_ok hres
  refine ⟨response,q.remove addr.ip,?_,?_⟩
  · simp [generateAuthTokens, tokensClient_of_key htaddr htpub hpk, hget, hres, bind, Except.bind, pure,
      Except.pure]
  · intro t ht
    simp only [List.mem_cons, List.not_mem_nil, or_false] at ht
    rcases ht with rfl | rfl
    · obtain ⟨claims,hcar,hcp,hci⟩ := carries_signed hred.access hc.access_inRange
      rw [hc.access] at hci
      exact ⟨claims,hcar,hcp.trans hkey,hci⟩
    · obtain ⟨claims,hcar,hcp,hci⟩ := carries_signed hred.refresh hc.refresh_inRange
      rw [hc.refresh] at hci hcp
      exact ⟨claims,hcar,hcp.trans hkey,hci⟩

theorem answerChallenge_held {req : GenerateAuthChallengeRequest} {ip : IpAddr} {r : Readings}
    {token : String} {c : AuthChallenge} (hexp : c.isExpired r.lookup = false) :
    answerChallenge p req ip (some c) r token = .ok (.existing c.challenge) := by
  simp [answerChallenge, hexp]

theorem generateAuthChallenge_held {addr : SocketAddr} {q : AuthChallenges} {c : AuthChallenge}
    {req : Request GenerateAuthChallengeRequest} {r : Readings} {token : String}
    (ha : req.remoteAddr = some addr) (hget : q.getPriority addr.ip = some c)
    (hexp : c.isExpired r.lookup = false) :
    generateAuthChallenge p q req r token =
      if authChallengesCapacity ≤ q.len then .error (resourceExhausted "System overloaded.")
      else .ok (c.challenge,q) := by
  unfold generateAuthChallenge admitChallenge
  split
  · simp [checkHealth, bind, Except.bind]
  · simp [checkHealth, clientIp, ha, hget, answerChallenge_held hexp, bind, Except.bind, pure,
      Except.pure]

theorem generateAuthTokens_rival {addr : SocketAddr} {key : Pubkey} {q : AuthChallenges}
    {c : AuthChallenge} {req : Request GenerateAuthTokensRequest} (ha : req.remoteAddr = some addr)
    (hsigned : SignedBy p key req.message) (hget : q.getPriority addr.ip = some c)
    (hkey : c.accessClaims.clientPubkey ≠ key) :
    generateAuthTokens p q req = .error (permissionDenied
      "The pubkey provided does not match the pubkey that generated the challenge.") := by
  obtain ⟨hpub,_,pk,_,hpk,_⟩ := hsigned
  have hother : c.accessClaims.clientPubkey ≠ p.publicKeyToBytes pk := by
    rwa [publicKey_eq hpk]
  simp [generateAuthTokens, tokensClient_of_key ha hpub hpk, hget, redeemChallenge, hother, bind,
    Except.bind]

theorem handshake_completes (p : Platform) (as : List Action) (s : State) (addr : SocketAddr)
    (key : Pubkey) (creq : Request GenerateAuthChallengeRequest) (r : Readings) (token : String)
    (treq : Request GenerateAuthTokensRequest) (hrun : run (step p) init as = some s)
    (hjwt : ∀ claims, ∃ text, p.signWithKey tokenHeader (p.deSerClaims claims) = some text)
    (hcaddr : creq.remoteAddr = some addr) (hcpub : creq.message.pubkey = key.bytes)
    (htaddr : treq.remoteAddr = some addr) (hsigned : SignedBy p key treq.message) :
    (LiveFor s.challenges addr.ip r.lookup key → ∀ challenge q,
      generateAuthChallenge p s.challenges creq r token = .ok (challenge,q) →
      treq.message.challenge = expectedChallenge p key challenge →
        Completes p q treq addr.ip key) ∧
    ∀ rival, s.challenges.getPriority addr.ip = some rival → rival.isExpired r.lookup = false →
      rival.accessClaims.clientPubkey ≠ key →
      generateAuthChallenge p s.challenges creq r token =
        (if authChallengesCapacity ≤ s.challenges.len then
          .error (resourceExhausted "System overloaded.")
        else .ok (rival.challenge,s.challenges)) ∧
      generateAuthTokens p s.challenges treq = .error (permissionDenied
        "The pubkey provided does not match the pubkey that generated the challenge.") := by
  constructor
  · intro hlive challenge q hok htch
    obtain ⟨c,_,r',hget,rfl,hc,hkey⟩ :=
      challenge_left_for_pubkey (provenance_run hrun) hcaddr hcpub hlive hok
    exact completes_of_left hjwt hget hc hkey htaddr htch hsigned
  · intro rival hget hexp hkey
    exact ⟨generateAuthChallenge_held hcaddr hget hexp,
      generateAuthTokens_rival htaddr hsigned hget hkey⟩

theorem tokensRequest_signed (key : Pubkey) (challenge : String) :
    SignedBy referencePlatform key (tokensRequest key challenge).message := by
  have hlen : (key.bytes ++ key.bytes).length = signatureBytes := by
    simp [key.length_eq, pubkeyBytes, signatureBytes]
  refine ⟨rfl,hlen,key,⟨key.bytes ++ key.bytes,hlen⟩,Pubkey.tryFrom_bytes key,dif_pos hlen,?_⟩
  exact decide_eq_true rfl

def rivalKey : Pubkey := ⟨List.replicate 31 0 ++ [1],by decide⟩

def validatorChallenge : List Action :=
  [.challengeStart 0 (challengeRequest validatorKey),.challengeLookup 0,
    .challengeAnswer 0 (readingsAt 0) "abcdefghi",.challengePush 0]

def validatorHeld (s : State) : Bool :=
  decide (s.challenges.len < authChallengesCapacity) &&
    match s.challenges.getPriority validatorIp with
    | none => false
    | some c => decide (c.challenge = "abcdefghi") && !c.isExpired nanosPerSec &&
        decide (c.accessClaims.clientPubkey = validatorKey)

theorem validatorChallenge_held :
    ∃ s c, run (step referencePlatform) init validatorChallenge = some s ∧
      s.challenges.len < authChallengesCapacity ∧ s.challenges.getPriority validatorIp = some c ∧
      c.challenge = "abcdefghi" ∧ c.isExpired nanosPerSec = false ∧
      c.accessClaims.clientPubkey = validatorKey := by
  obtain ⟨s,hs,h⟩ := exists_run_of_map (step referencePlatform) init validatorChallenge validatorHeld
    (by decide +kernel)
  cases hget : s.challenges.getPriority validatorIp with
  | none => simp [validatorHeld, hget] at h
  | some c =>
    have hheld : s.challenges.len < authChallengesCapacity ∧
        (c.challenge = "abcdefghi" ∧ c.isExpired nanosPerSec = false) ∧
        c.accessClaims.clientPubkey = validatorKey := by simpa [validatorHeld, hget] using h
    exact ⟨s,c,hs,hheld.1,hget,hheld.2.1.1,hheld.2.1.2,hheld.2.2⟩

theorem held_challenge_handshakes :
    ∃ s, run (step referencePlatform) init validatorChallenge = some s ∧
      generateAuthChallenge referencePlatform s.challenges (challengeRequest validatorKey)
        (readingsAt nanosPerSec) "jklmnopqr" = .ok ("abcdefghi",s.challenges) ∧
      Completes referencePlatform s.challenges (tokensRequest validatorKey "abcdefghi")
        validatorIp validatorKey ∧
      generateAuthChallenge referencePlatform s.challenges (challengeRequest rivalKey)
        (readingsAt nanosPerSec) "jklmnopqr" = .ok ("abcdefghi",s.challenges) ∧
      generateAuthTokens referencePlatform s.challenges (tokensRequest rivalKey "abcdefghi") =
        .error (permissionDenied
          "The pubkey provided does not match the pubkey that generated the challenge.") := by
  obtain ⟨s,c,hs,hlen,hget,hch,hexp,hkey⟩ := validatorChallenge_held
  have hroom : ¬ authChallengesCapacity ≤ s.challenges.len := Nat.not_le.mpr hlen
  have hown := (handshake_completes referencePlatform _ s validatorAddr validatorKey
    (challengeRequest validatorKey) (readingsAt nanosPerSec) "jklmnopqr"
    (tokensRequest validatorKey "abcdefghi") hs referencePlatform_signs rfl rfl rfl
    (tokensRequest_signed validatorKey "abcdefghi")).1
  have hother := (handshake_completes referencePlatform _ s validatorAddr rivalKey
    (challengeRequest rivalKey) (readingsAt nanosPerSec) "jklmnopqr"
    (tokensRequest rivalKey "abcdefghi") hs referencePlatform_signs rfl rfl rfl
    (tokensRequest_signed rivalKey "abcdefghi")).2 c hget hexp (by rw [hkey]; decide)
  have hlive : LiveFor s.challenges validatorIp nanosPerSec validatorKey := by
    intro c' hget' _
    cases hget.symm.trans hget'
    exact hkey
  have haddr : (challengeRequest validatorKey).remoteAddr = some validatorAddr := rfl
  have hagain : generateAuthChallenge referencePlatform s.challenges
      (challengeRequest validatorKey) (readingsAt nanosPerSec) "jklmnopqr" =
        .ok ("abcdefghi",s.challenges) := by
    rw [generateAuthChallenge_held haddr hget hexp, if_neg hroom, hch]
  rw [if_neg hroom, hch] at hother
  exact ⟨s,hs,hagain,hown hlive "abcdefghi" s.challenges hagain rfl,hother⟩

theorem rival_handshake_fails :
    ∃ s challenge q, run (step referencePlatform) init validatorChallenge = some s ∧
      (challengeRequest rivalKey).message.role = Role.validator.toI32 ∧
      generateAuthChallenge referencePlatform s.challenges (challengeRequest rivalKey)
        (readingsAt nanosPerSec) "jklmnopqr" = .ok (challenge,q) ∧
      SignedBy referencePlatform rivalKey (tokensRequest rivalKey challenge).message ∧
      ¬ Completes referencePlatform q (tokensRequest rivalKey challenge) validatorIp rivalKey := by
  obtain ⟨s,c,hs,hlen,hget,hch,hexp,hkey⟩ := validatorChallenge_held
  have hsigned := tokensRequest_signed rivalKey c.challenge
  have haddr : (challengeRequest rivalKey).remoteAddr = some validatorAddr := rfl
  have htaddr : (tokensRequest rivalKey c.challenge).remoteAddr = some validatorAddr := rfl
  refine ⟨s,c.challenge,s.challenges,hs,rfl,?_,hsigned,?_⟩
  · rw [generateAuthChallenge_held haddr hget hexp, if_neg (Nat.not_le.mpr hlen)]
  · rintro ⟨response,q',hok,_⟩
    have hrefused := generateAuthTokens_rival htaddr hsigned hget (by rw [hkey]; decide)
    rw [hrefused] at hok
    cases hok

end InertiaRelayer.Auth
