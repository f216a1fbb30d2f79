import InertiaRelayer.Auth.Challenges

namespace InertiaRelayer.Auth

def authChallengesCapacity : Nat := 100000
def accessTokenTtl : Int := 1800 * nanosPerSec
def refreshTokenTtl : Int := 180000 * nanosPerSec
def challengeTtl : Int := 1800 * nanosPerSec

inductive Role where
  | relayer
  | searcher
  | validator
  | shredstreamSubscriber
deriving DecidableEq, Repr

def Role.toI32 : Role → Int
  | .relayer => 0
  | .searcher => 1
  | .validator => 2
  | .shredstreamSubscriber => 3

structure Request (μ : Type) where
  remoteAddr : Option SocketAddr
  message : μ

structure GenerateAuthChallengeRequest where
  role : Int
  pubkey : List UInt8
deriving DecidableEq

structure GenerateAuthTokensRequest where
  challenge : String
  clientPubkey : List UInt8
  signedChallenge : List UInt8
deriving DecidableEq

structure RefreshAccessTokenRequest where
  refreshToken : String
deriving DecidableEq

structure PbToken where
  value : String
  expiresAtUtc : Int
deriving DecidableEq

structure GenerateAuthTokensResponse where
  accessToken : PbToken
  refreshToken : PbToken
deriving DecidableEq

structure Readings where
  lookup : Int
  access : Int
  refresh : Int
  challenge : Int
deriving DecidableEq

def Readings.Ordered (r : Readings) : Prop :=
  r.lookup ≤ r.access ∧ r.access ≤ r.refresh ∧ r.refresh ≤ r.challenge

instance (r : Readings) : Decidable r.Ordered := by unfold Readings.Ordered; infer_instance

def IsChallengeToken (token : String) : Prop :=
  token.toList.length = 9 ∧ token.toList.all Char.isAlphanum = true

instance (token : String) : Decidable (IsChallengeToken token) := by
  unfold IsChallengeToken; infer_instance

def checkHealth : Except Failure Unit := .ok ()

def clientIp {μ : Type} (req : Request μ) : Except Failure IpAddr :=
  match req.remoteAddr with
  | none => .error (internal "Request is missing IP address")
  | some addr => .ok addr.ip

def admitChallenge (len : Nat) (req : Request GenerateAuthChallengeRequest) :
    Except Failure IpAddr := do
  checkHealth
  if authChallengesCapacity ≤ len then
    .error (resourceExhausted "System overloaded.")
  else
    clientIp req

inductive ChallengeAnswer where
  | existing (challenge : String)
  | fresh (entry : AuthChallenge)
deriving DecidableEq

section Handlers

variable (p : Platform)

def newChallenge (ip : IpAddr) (pubkey : Pubkey) (r : Readings) (token : String) :
    Except Failure AuthChallenge := do
  let accessExpiry ← p.add r.access accessTokenTtl
  let refreshExpiry ← p.add r.refresh refreshTokenTtl
  let expiry ← p.add r.challenge challengeTtl
  return { challenge := token
           accessClaims := ⟨ip,pubkey,accessExpiry⟩
           refreshClaims := ⟨ip,pubkey,refreshExpiry⟩
           expiresAtUtc := expiry }

def createChallenge (req : GenerateAuthChallengeRequest) (ip : IpAddr) (r : Readings)
    (token : String) : Except Failure AuthChallenge :=
  if req.role ≠ Role.validator.toI32 then
    .error (invalidArgument "Role must be validator.")
  else if req.pubkey.length ≠ pubkeyBytes then
    .error (invalidArgument "Pubkey must be 32 bytes in length")
  else
    match Pubkey.tryFrom req.pubkey with
    | none => .error (invalidArgument "Invalid pubkey supplied.")
    | some pubkey =>
        if p.isAuthorized pubkey then
          newChallenge p ip pubkey r token
        else
          .error (permissionDenied
            "The supplied pubkey is not authorized to generate a challenge.")

def answerChallenge (req : GenerateAuthChallengeRequest) (ip : IpAddr)
    (found : Option AuthChallenge) (r : Readings) (token : String) :
    Except Failure ChallengeAnswer :=
  match found with
  | some c =>
      if c.isExpired r.lookup then
        (createChallenge p req ip r token).map .fresh
      else
        .ok (.existing c.challenge)
  | none => (createChallenge p req ip r token).map .fresh

def generateAuthChallenge (q : AuthChallenges) (req : Request GenerateAuthChallengeRequest)
    (r : Readings) (token : String) : Except Failure (String × AuthChallenges) := do
  let ip ← admitChallenge q.len req
  match ← answerChallenge p req.message ip (q.getPriority ip) r token with
  | .existing challenge => return (challenge,q)
  | .fresh entry => return (entry.challenge,q.push ip entry)

def tokenHeader : Header := ⟨.rs256⟩

def clientKey (req : GenerateAuthTokensRequest) : Except Failure p.PublicKey :=
  match p.publicKeyFromBytes req.clientPubkey with
  | none => .error (invalidArgument "Invalid pubkey supplied.")
  | some key => .ok key

def expectedChallenge (pubkey : Pubkey) (challenge : String) : String :=
  p.pubkeyText.text pubkey ++ "-" ++ challenge

def checkSignature (req : GenerateAuthTokensRequest) (key : p.PublicKey) :
    Except Failure Unit :=
  if req.signedChallenge.length ≠ signatureBytes then
    .error (invalidArgument "Signature must be 64 bytes.")
  else
    match p.signatureFromBytes req.signedChallenge with
    | none => .error (invalidArgument "Invalid signature.")
    | some sig =>
        if p.verify key req.challenge sig then
          .ok ()
        else
          .error (invalidArgument "Failed challenge verification. Did you sign with the supplied pubkey's corresponding private key?")

def signToken (claims : Claims) (message : String) : Except Failure PbToken :=
  match p.signWithKey tokenHeader (p.deSerClaims claims) with
  | none => .error (internal message)
  | some value => .ok ⟨value,timestamp claims.expiresAtUtc⟩

def redeemChallenge (req : GenerateAuthTokensRequest) (key : p.PublicKey)
    (found : Option AuthChallenge) : Except Failure GenerateAuthTokensResponse :=
  match found with
  | none =>
      .error (permissionDenied
        "Must invoke the GenerateAuthChallenge method before calling any method.")
  | some c =>
      if c.accessClaims.clientPubkey ≠ p.publicKeyToBytes key then
        .error (permissionDenied
          "The pubkey provided does not match the pubkey that generated the challenge.")
      else if expectedChallenge p (p.publicKeyToBytes key) c.challenge ≠ req.challenge then
        .error (invalidArgument
          ("The provided challenge does not match the expected challenge: " ++
            expectedChallenge p (p.publicKeyToBytes key) c.challenge))
      else do
        checkSignature p req key
        let access ← signToken p c.accessClaims "Error signing access_token."
        let refresh ← signToken p c.refreshClaims "Error signing refresh_token."
        return ⟨access,refresh⟩

def tokensClient (req : Request GenerateAuthTokensRequest) :
    Except Failure (IpAddr × p.PublicKey) := do
  checkHealth
  let ip ← clientIp req
  let key ← clientKey p req.message
  return (ip,key)

def generateAuthTokens (q : AuthChallenges) (req : Request GenerateAuthTokensRequest) :
    Except Failure (GenerateAuthTokensResponse × AuthChallenges) := do
  let (ip,key) ← tokensClient p req
  let response ← redeemChallenge p req.message key (q.getPriority ip)
  return (response,q.remove ip)

def acceptRefresh (req : RefreshAccessTokenRequest) (now : Int) : Except Failure Claims := do
  checkHealth
  match p.verifyWithKey req.refreshToken with
  | none => .error (permissionDenied "Invalid refresh_token supplied")
  | some (_,deSer) =>
      let refreshClaims ← p.claims deSer
      if refreshClaims.isExpired now then
        .error (permissionDenied "Client refresh_token has expired, please generate a new auth challenge to obtain a set of new access tokens.")
      else
        return refreshClaims

def refreshAccessToken (req : RefreshAccessTokenRequest) (now issued : Int) :
    Except Failure PbToken := do
  let refreshClaims ← acceptRefresh p req now
  let expiry ← p.add issued accessTokenTtl
  signToken p ⟨refreshClaims.clientIp,refreshClaims.clientPubkey,expiry⟩
    "Error signing access_token."

end Handlers

variable {p : Platform}

structure Created (p : Platform) (req : GenerateAuthChallengeRequest) (ip : IpAddr)
    (r : Readings) (c : AuthChallenge) : Prop where
  role : req.role = Role.validator.toI32
  pubkey : req.pubkey = c.accessClaims.clientPubkey.bytes
  authorized : p.isAuthorized c.accessClaims.clientPubkey = true
  access : c.accessClaims = ⟨ip,c.accessClaims.clientPubkey,r.access + accessTokenTtl⟩
  refresh : c.refreshClaims = ⟨ip,c.accessClaims.clientPubkey,r.refresh + refreshTokenTtl⟩
  expiry : c.expiresAtUtc = r.challenge + challengeTtl
  access_inRange : p.inRange c.accessClaims.expiresAtUtc = true
  refresh_inRange : p.inRange c.refreshClaims.expiresAtUtc = true

theorem newChallenge_ok {ip : IpAddr} {pubkey : Pubkey} {r : Readings} {token : String}
    {c : AuthChallenge} (h : newChallenge p ip pubkey r token = .ok c) :
    c = ⟨token,⟨ip,pubkey,r.access + accessTokenTtl⟩,⟨ip,pubkey,r.refresh + refreshTokenTtl⟩,
      r.challenge + challengeTtl⟩ ∧ p.inRange (r.access + accessTokenTtl) = true ∧
      p.inRange (r.refresh + refreshTokenTtl) = true := by
  obtain ⟨access,ha,h⟩ := bind_ok h
  obtain ⟨refresh,hr,h⟩ := bind_ok h
  obtain ⟨expiry,he,h⟩ := bind_ok h
  cases h
  obtain ⟨rfl,hra⟩ := Platform.add_ok ha
  obtain ⟨rfl,hrr⟩ := Platform.add_ok hr
  obtain ⟨rfl,_⟩ := Platform.add_ok he
  exact ⟨rfl,hra,hrr⟩

theorem createChallenge_ok {req : GenerateAuthChallengeRequest} {ip : IpAddr} {r : Readings}
    {token : String} {c : AuthChallenge} (h : createChallenge p req ip r token = .ok c) :
    Created p req ip r c ∧ c.challenge = token := by
  unfold createChallenge at h
  split at h
  · cases h
  · rename_i hrole
    split at h
    · cases h
    · split at h
      · cases h
      · rename_i pubkey hpubkey
        split at h
        · rename_i hauth
          obtain ⟨rfl,hra,hrr⟩ := newChallenge_ok h
          obtain ⟨_,rfl⟩ := tryFromSlice_eq_some hpubkey
          exact ⟨⟨not_not.mp hrole,rfl,hauth,rfl,rfl,rfl,hra,hrr⟩,rfl⟩
        · cases h

theorem answerChallenge_fresh {req : GenerateAuthChallengeRequest} {ip : IpAddr}
    {found : Option AuthChallenge} {r : Readings} {token : String} {c : AuthChallenge}
    (h : answerChallenge p req ip found r token = .ok (.fresh c)) :
    Created p req ip r c ∧ c.challenge = token := by
  have hcreate : createChallenge p req ip r token = .ok c := by
    cases hc : createChallenge p req ip r token with
    | error e =>
      cases found with
      | none => simp [answerChallenge, hc, Except.map] at h
      | some d =>
        simp only [answerChallenge, hc, Except.map] at h
        split at h <;> cases h
    | ok d =>
      cases found with
      | none => simpa [answerChallenge, hc, Except.map] using h
      | some e =>
        simp only [answerChallenge, hc, Except.map] at h
        split at h
        · cases h
          rfl
        · cases h
  exact createChallenge_ok hcreate

theorem answerChallenge_existing {req : GenerateAuthChallengeRequest} {ip : IpAddr}
    {found : Option AuthChallenge} {r : Readings} {token challenge : String}
    (h : answerChallenge p req ip found r token = .ok (.existing challenge)) :
    ∃ c, found = some c ∧ c.isExpired r.lookup = false ∧ c.challenge = challenge := by
  cases found with
  | none =>
    cases hc : createChallenge p req ip r token <;> simp [answerChallenge, hc, Except.map] at h
  | some c =>
    simp only [answerChallenge] at h
    split at h
    · cases hc : createChallenge p req ip r token <;> simp [hc, Except.map] at h
    · rename_i hexp
      exact ⟨c,rfl,by simpa using hexp,by simpa using h⟩

theorem checkSignature_ok_iff {req : GenerateAuthTokensRequest} {key : p.PublicKey} :
    checkSignature p req key = .ok () ↔ req.signedChallenge.length = signatureBytes ∧
      ∃ sig, p.signatureFromBytes req.signedChallenge = some sig ∧
        p.verify key req.challenge sig = true := by
  unfold checkSignature
  split
  · rename_i hlen
    simp [hlen]
  · rename_i hlen
    cases hs : p.signatureFromBytes req.signedChallenge with
    | none => simp
    | some sig => by_cases hv : p.verify key req.challenge sig <;> simp [hv, not_not.mp hlen]

structure Signs (p : Platform) (claims : Claims) (token : PbToken) : Prop where
  value : p.signWithKey tokenHeader (p.deSerClaims claims) = some token.value
  expiry : token.expiresAtUtc = timestamp claims.expiresAtUtc

theorem signToken_ok {claims : Claims} {message : String} {token : PbToken}
    (h : signToken p claims message = .ok token) : Signs p claims token := by
  unfold signToken at h
  split at h
  · cases h
  · rename_i value hv
    cases h
    exact ⟨hv,rfl⟩

structure Redeems (p : Platform) (req : GenerateAuthTokensRequest) (key : p.PublicKey)
    (c : AuthChallenge) (response : GenerateAuthTokensResponse) : Prop where
  pubkey : p.publicKeyToBytes key = c.accessClaims.clientPubkey
  challenge : req.challenge = expectedChallenge p c.accessClaims.clientPubkey c.challenge
  signature : ∃ sig, p.signatureFromBytes req.signedChallenge = some sig ∧
    p.verify key req.challenge sig = true
  access : Signs p c.accessClaims response.accessToken
  refresh : Signs p c.refreshClaims response.refreshToken

theorem redeemChallenge_ok {req : GenerateAuthTokensRequest} {key : p.PublicKey}
    {c : AuthChallenge} {response : GenerateAuthTokensResponse}
    (h : redeemChallenge p req key (some c) = .ok response) : Redeems p req key c response := by
  simp only [redeemChallenge] at h
  split at h
  · cases h
  · rename_i hpub
    split at h
    · cases h
    · rename_i hch
      obtain ⟨_,hsig,h⟩ := bind_ok h
      obtain ⟨access,ha,h⟩ := bind_ok h
      obtain ⟨refresh,hr,h⟩ := bind_ok h
      cases h
      have hpub := not_not.mp hpub
      exact ⟨hpub.symm,by rw [hpub]; exact (not_not.mp hch).symm,(checkSignature_ok_iff.mp hsig).2,
        signToken_ok ha,signToken_ok hr⟩

theorem acceptRefresh_ok {req : RefreshAccessTokenRequest} {now : Int} {claims : Claims}
    (h : acceptRefresh p req now = .ok claims) :
    ∃ header deSer, p.verifyWithKey req.refreshToken = some (header,deSer) ∧
      p.claims deSer = .ok claims ∧ claims.isExpired now = false := by
  obtain ⟨_,_,h⟩ := bind_ok h
  split at h
  · cases h
  · rename_i header deSer hv
    obtain ⟨c,hc,h⟩ := bind_ok h
    split at h
    · cases h
    · rename_i hexp
      cases h
      exact ⟨header,deSer,hv,hc,by simpa using hexp⟩

theorem refreshAccessToken_ok {req : RefreshAccessTokenRequest} {now issued : Int}
    {token : PbToken} (h : refreshAccessToken p req now issued = .ok token) :
    ∃ claims, acceptRefresh p req now = .ok claims ∧
      p.inRange (issued + accessTokenTtl) = true ∧
      Signs p ⟨claims.clientIp,claims.clientPubkey,issued + accessTokenTtl⟩ token := by
  obtain ⟨claims,hc,h⟩ := bind_ok h
  obtain ⟨expiry,he,h⟩ := bind_ok h
  obtain ⟨rfl,hr⟩ := Platform.add_ok he
  exact ⟨claims,hc,hr,signToken_ok h⟩

end InertiaRelayer.Auth
