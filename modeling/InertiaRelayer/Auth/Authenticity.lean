import InertiaRelayer.Auth.Provenance

namespace InertiaRelayer.Auth
open History

def SignedChallenge (p : Platform) (pubkey : Pubkey) (challenge : String)
    (req : GenerateAuthTokensRequest) : Prop :=
  ∃ key sig, p.publicKeyFromBytes req.clientPubkey = some key ∧
    p.publicKeyToBytes key = pubkey ∧ req.challenge = expectedChallenge p pubkey challenge ∧
    p.signatureFromBytes req.signedChallenge = some sig ∧
    p.verify key (expectedChallenge p pubkey challenge) sig = true

def AuthorizedRequest (p : Platform) (pubkey : Pubkey) (req : GenerateAuthChallengeRequest) :
    Prop :=
  req.role = Role.validator.toI32 ∧ req.pubkey = pubkey.bytes ∧ p.isAuthorized pubkey = true

def Authenticated (p : Platform) (log : List Event) (pubkey : Pubkey) (ip : IpAddr) : Prop :=
  ∃ later earlier serial c req response creq r,
    log = later ++ .redeemed ip serial c req response :: earlier ∧
    SignedChallenge p pubkey c.challenge req ∧
    .stored ip serial c creq r ∈ earlier ∧ AuthorizedRequest p pubkey creq

variable {p : Platform}

theorem authenticated_append {log : List Event} {pubkey : Pubkey} {ip : IpAddr}
    (newer : List Event) (h : Authenticated p log pubkey ip) :
    Authenticated p (newer ++ log) pubkey ip := by
  obtain ⟨later,earlier,serial,c,req,response,creq,r,hl,hrest⟩ := h
  exact ⟨newer ++ later,earlier,serial,c,req,response,creq,r,by rw [hl, List.append_assoc],hrest⟩

theorem authenticated_of_redeemed {earlier : List Event} {ip : IpAddr} {serial : Nat}
    {c : AuthChallenge} {req : GenerateAuthTokensRequest} {response : GenerateAuthTokensResponse}
    (h : Justified (Justification p) (.redeemed ip serial c req response :: earlier)) :
    Authenticated p (.redeemed ip serial c req response :: earlier)
        c.accessClaims.clientPubkey ip ∧
      c.accessClaims.clientIp = ip ∧ c.refreshClaims.clientIp = ip ∧
      c.refreshClaims.clientPubkey = c.accessClaims.clientPubkey := by
  obtain ⟨⟨⟨creq,r,hstored⟩,key,hkey,hred⟩,hearlier⟩ := h
  obtain ⟨_,_,_,⟨hcreated,_⟩,_⟩ := justified_mem hearlier hstored
  obtain ⟨sig,hsig,hver⟩ := hred.signature
  refine ⟨⟨[],earlier,serial,c,req,response,creq,r,rfl,?_,hstored,?_⟩,?_,?_,?_⟩
  · exact ⟨key,sig,hkey,hred.pubkey,hred.challenge,hsig,hred.challenge ▸ hver⟩
  · exact ⟨hcreated.role,hcreated.pubkey,hcreated.authorized⟩
  · rw [hcreated.access]
  · rw [hcreated.refresh]
  · rw [hcreated.refresh]

theorem authenticated_of_redeemed_token {earlier : List Event} {ip : IpAddr} {serial : Nat}
    {c : AuthChallenge} {req : GenerateAuthTokensRequest} {response : GenerateAuthTokensResponse}
    {token : String} {claims : Claims}
    (h : Justified (Justification p) (.redeemed ip serial c req response :: earlier))
    (ht : token ∈ tokensOf (.redeemed ip serial c req response))
    (hc : Carries p token claims) :
    Authenticated p (.redeemed ip serial c req response :: earlier)
      claims.clientPubkey claims.clientIp := by
  obtain ⟨hauth,hai,hri,hrp⟩ := authenticated_of_redeemed h
  obtain ⟨⟨_,key,_,hred⟩,_⟩ := h
  simp only [tokensOf, List.mem_cons, List.not_mem_nil, or_false] at ht
  rcases ht with rfl | rfl
  · obtain ⟨hip,hpub,_⟩ := Platform.claims_of_deSer (carries_of_sign hred.access hc)
    rwa [hip, hpub, hai]
  · obtain ⟨hip,hpub,_⟩ := Platform.claims_of_deSer (carries_of_sign hred.refresh hc)
    rwa [hip, hpub, hri, hrp]

theorem authenticated_of_issued {log : List Event} {token : String} {claims : Claims}
    (hl : Justified (Justification p) log) (ht : token ∈ issuedTokens log)
    (hc : Carries p token claims) :
    Authenticated p log claims.clientPubkey claims.clientIp := by
  induction log generalizing token claims with
  | nil => cases ht
  | cons e earlier ih =>
    rcases List.mem_append.mp (show token ∈ tokensOf e ++ issuedTokens earlier from ht) with ht | ht
    · cases e with
      | redeemed ip serial c req response => exact authenticated_of_redeemed_token hl ht hc
      | refreshed presented old now issued pb =>
        obtain ⟨⟨hissued,hold,_,_,hs⟩,hearlier⟩ := hl
        rw [show token = pb.value from List.mem_singleton.mp ht] at hc
        obtain ⟨hip,hpub,_⟩ := Platform.claims_of_deSer (carries_of_sign hs hc)
        have hearly := ih hearlier hissued hold
        rw [hip, hpub]
        exact authenticated_append [_] hearly
      | _ => cases ht
    · exact authenticated_append [e] (ih hl.2 ht hc)

theorem admitted_authenticated {later earlier log : List Event} {token : String}
    {claims : Claims} {now : Int} (hl : Justified (Justification p) log)
    (hlog : log = later ++ .admitted token claims now :: earlier) :
    Authenticated p earlier claims.clientPubkey claims.clientIp := by
  obtain ⟨⟨hissued,hcarries⟩,hearlier⟩ := justified_at hl hlog
  exact authenticated_of_issued hearlier hissued hcarries

end InertiaRelayer.Auth
