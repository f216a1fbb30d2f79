import InertiaRelayer.Auth.Session

namespace InertiaRelayer.Auth
open History Machine

inductive CanSign (p : Platform) (log : List Event) : Claims → Prop
  | access {ip serial c req r} (h : Event.stored ip serial c req r ∈ log) :
      CanSign p log c.accessClaims
  | refresh {ip serial c req r} (h : Event.stored ip serial c req r ∈ log) :
      CanSign p log c.refreshClaims
  | refreshed {c claims : Claims} {issued expiry : Int} (h : CanSign p log c)
      (hclaims : p.claims (p.deSerClaims c) = .ok claims)
      (hexpiry : p.add issued accessTokenTtl = .ok expiry) :
      CanSign p log ⟨claims.clientIp,claims.clientPubkey,expiry⟩

def SignedOnly (p : Platform) (log : List Event) (token : String) : Prop :=
  ∀ header deSer, p.verifyWithKey token = some (header,deSer) →
    ∃ c, CanSign p log c ∧ p.signWithKey tokenHeader (p.deSerClaims c) = some token

structure Survives (p : Platform) (c c' : Claims) : Prop where
  converts : p.claims (p.deSerClaims c) = .ok c'
  clientIp : c'.clientIp = c.clientIp
  clientPubkey : c'.clientPubkey = c.clientPubkey
  rounded : c'.expiresAtUtc = timestamp c.expiresAtUtc * nanosPerSec
  reported : ∀ message token, signToken p c message = .ok token →
    c'.expiresAtUtc = token.expiresAtUtc * nanosPerSec
  reencodes : p.deSerClaims c' = p.deSerClaims c

variable {p : Platform} {s : State} {log : List Event} {c : Claims} {token : String}

theorem timestamp_mul (secs : Int) : timestamp (secs * nanosPerSec) = secs :=
  Int.mul_ediv_cancel secs (by decide)

theorem survives_of_inRange (h : p.inRange c.expiresAtUtc = true) :
    Survives p c ⟨c.clientIp,c.clientPubkey,timestamp c.expiresAtUtc * nanosPerSec⟩ where
  converts := Platform.claims_deSer_ok h
  clientIp := rfl
  clientPubkey := rfl
  rounded := rfl
  reported message token hsign := by rw [(signToken_ok hsign).expiry]
  reencodes := by simp only [Platform.deSerClaims, timestamp_mul]

theorem canSign_cons (e : Event) (h : CanSign p log c) : CanSign p (e :: log) c := by
  induction h with
  | access h => exact .access (List.mem_cons_of_mem e h)
  | refresh h => exact .refresh (List.mem_cons_of_mem e h)
  | refreshed _ hclaims hexpiry ih => exact .refreshed ih hclaims hexpiry

theorem canSign_inRange (hl : Justified (Justification p) log) (h : CanSign p log c) :
    p.inRange c.expiresAtUtc = true := by
  cases h with
  | access h =>
    obtain ⟨_,_,_,⟨hcreated,_⟩,_⟩ := justified_mem hl h
    exact hcreated.access_inRange
  | refresh h =>
    obtain ⟨_,_,_,⟨hcreated,_⟩,_⟩ := justified_mem hl h
    exact hcreated.refresh_inRange
  | refreshed _ _ hexpiry =>
    obtain ⟨rfl,hr⟩ := Platform.add_ok hexpiry
    exact hr

theorem issued_canSign (hl : Justified (Justification p) log) (h : token ∈ issuedTokens log) :
    ∃ c pb, pb.value = token ∧ CanSign p log c ∧ Signs p c pb := by
  induction log generalizing token with
  | nil => cases h
  | cons e earlier ih =>
    obtain ⟨hj,hearlier⟩ := hl
    obtain hnew | hold := List.mem_append.mp h
    · cases e with
      | redeemed ip serial entry req response =>
        obtain ⟨⟨creq,r,hstored⟩,key,_,hred⟩ := hj
        have hmem := List.mem_cons_of_mem (.redeemed ip serial entry req response) hstored
        simp only [tokensOf, List.mem_cons, List.not_mem_nil, or_false] at hnew
        obtain rfl | rfl := hnew
        · exact ⟨_,_,rfl,.access hmem,hred.access⟩
        · exact ⟨_,_,rfl,.refresh hmem,hred.refresh⟩
      | refreshed presented claims now issued pb =>
        obtain ⟨hpresented,hcarries,_,hr,hsigns⟩ := hj
        obtain ⟨c,pb',rfl,hcan,hsigned⟩ := ih hearlier hpresented
        simp only [tokensOf, List.mem_singleton] at hnew
        have hexpiry : p.add issued accessTokenTtl = .ok (issued + accessTokenTtl) := if_pos hr
        exact ⟨_,pb,hnew.symm,
          .refreshed (canSign_cons _ hcan) (carries_of_sign hsigned hcarries) hexpiry,hsigns⟩
      | _ => simp [tokensOf] at hnew
    · obtain ⟨c,pb,hvalue,hcan,hsigns⟩ := ih hearlier hold
      exact ⟨c,pb,hvalue,canSign_cons e hcan,hsigns⟩

theorem signedOnly_of_presentable (hl : Justified (Justification p) log)
    (h : Presentable p log token) : SignedOnly p log token := by
  intro header deSer hv
  obtain hnone | hissued := h
  · rw [hnone] at hv
    cases hv
  · obtain ⟨c,pb,rfl,hcan,hsigns⟩ := issued_canSign hl hissued
    exact ⟨c,hcan,hsigns.value⟩

theorem verified_converts (hl : Justified (Justification p) log) (h : SignedOnly p log token)
    {header : Header} {deSer : DeSerClaims} (hv : p.verifyWithKey token = some (header,deSer)) :
    header.algorithm = .rs256 ∧ ∃ claims, p.claims deSer = .ok claims := by
  obtain ⟨c,hcan,hsign⟩ := h header deSer hv
  rw [p.verify_of_sign _ _ _ hsign] at hv
  cases hv
  exact ⟨rfl,_,Platform.claims_deSer_ok (canSign_inRange hl hcan)⟩

theorem bearerToken_no_panic (metadata : MetadataMap) (site : PanicSite) :
    bearerToken p metadata ≠ .error (.panicked site) := by
  unfold bearerToken
  split
  · simp [permissionDenied]
  · split
    · simp [invalidArgument]
    · split
      · split <;> simp [permissionDenied]
      · simp [permissionDenied]

theorem call_no_panic (hl : Justified (Justification p) log) {metadata : MetadataMap}
    (h : ∀ token, bearerToken p metadata = .ok token → SignedOnly p log token)
    (site : PanicSite) : call p .rs256 metadata ≠ .error (.panicked site) := by
  unfold call callerClaims jwtFromHeader
  cases htoken : bearerToken p metadata with
  | error e =>
    intro hpanic
    apply bearerToken_no_panic (p := p) metadata site
    rw [htoken]
    cases hpanic
    rfl
  | ok token =>
    cases hv : p.verifyWithKey token with
    | none =>
      intro hpanic
      simp only [bind, Except.bind, verifyBearer, hv] at hpanic
      cases hpanic
    | some verified =>
      obtain ⟨header,deSer⟩ := verified
      obtain ⟨halg,claims,hclaims⟩ := verified_converts hl (h token htoken) hv
      intro hpanic
      simp only [bind, Except.bind, verifyBearer, hv, halg, if_true, hclaims] at hpanic
      cases hpanic

theorem acceptRefresh_no_panic (hl : Justified (Justification p) log)
    {req : RefreshAccessTokenRequest} {now : Int} (h : SignedOnly p log req.refreshToken)
    (site : PanicSite) : acceptRefresh p req now ≠ .error (.panicked site) := by
  intro hpanic
  cases hv : p.verifyWithKey req.refreshToken with
  | none =>
    simp only [acceptRefresh, checkHealth, bind, Except.bind, hv] at hpanic
    cases hpanic
  | some verified =>
    obtain ⟨header,deSer⟩ := verified
    obtain ⟨_,claims,hclaims⟩ := verified_converts hl h hv
    simp only [acceptRefresh, checkHealth, bind, Except.bind, hv, hclaims] at hpanic
    split at hpanic <;> cases hpanic

theorem refreshAccessToken_panic (hl : Justified (Justification p) log)
    {req : RefreshAccessTokenRequest} {now issued : Int} {site : PanicSite}
    (h : SignedOnly p log req.refreshToken)
    (hpanic : refreshAccessToken p req now issued = .error (.panicked site)) :
    site = .dateTimeOverflow := by
  unfold refreshAccessToken at hpanic
  cases haccept : acceptRefresh p req now with
  | error e =>
    rw [haccept] at hpanic
    cases hpanic
    exact absurd haccept (acceptRefresh_no_panic hl h site)
  | ok claims =>
    rw [haccept] at hpanic
    simp only [bind, Except.bind, Platform.add, signToken] at hpanic
    split at hpanic
    case h_1 e he =>
      split at he
      · cases he
      · cases he
        cases hpanic
        rfl
    case h_2 =>
      split at hpanic <;> cases hpanic

theorem claims_survive_tokens (p : Platform) (as : List Action) (s : State)
    (hrun : run (step p) init as = some s) :
    (∀ c, CanSign p s.log c → ∃ c', Survives p c c') ∧
    (∀ token, token ∈ issuedTokens s.log →
      ∃ c pb, pb.value = token ∧ CanSign p s.log c ∧ Signs p c pb) ∧
    (∀ token, Presentable p s.log token → SignedOnly p s.log token) ∧
    (∀ metadata, (∀ token, bearerToken p metadata = .ok token → SignedOnly p s.log token) →
      ∀ site, call p .rs256 metadata ≠ .error (.panicked site)) ∧
    (∀ req now, SignedOnly p s.log req.refreshToken →
      ∀ site, acceptRefresh p req now ≠ .error (.panicked site)) ∧
    ∀ req now issued site, SignedOnly p s.log req.refreshToken →
      refreshAccessToken p req now issued = .error (.panicked site) →
        site = .dateTimeOverflow := by
  have hl := (provenance_run hrun).log
  refine ⟨?_,?_,?_,?_,?_,?_⟩
  · intro c hcan
    exact ⟨_,survives_of_inRange (canSign_inRange hl hcan)⟩
  · intro token hissued
    exact issued_canSign hl hissued
  · intro token hpresentable
    exact signedOnly_of_presentable hl hpresentable
  · intro metadata hsigned site
    exact call_no_panic hl hsigned site
  · intro req now hsigned site
    exact acceptRefresh_no_panic hl hsigned site
  · intro req now issued site hsigned hpanic
    exact refreshAccessToken_panic hl hsigned hpanic

theorem handshake_claims_survive :
    ∃ s, run (step referencePlatform) init handshake = some s ∧
      ∃ c c' pb, pb.value = jwtExpiring validatorKey 1800 ∧ CanSign referencePlatform s.log c ∧
        Signs referencePlatform c pb ∧ Survives referencePlatform c c' := by
  obtain ⟨s,hs,hm⟩ := exists_run_of_map (step referencePlatform) init handshake
    (fun s => decide (jwtExpiring validatorKey 1800 ∈ issuedTokens s.log)) (by decide +kernel)
  have hall := claims_survive_tokens referencePlatform handshake s hs
  obtain ⟨c,pb,hvalue,hcan,hsigns⟩ := hall.2.1 _ (of_decide_eq_true hm)
  obtain ⟨c',hsurvives⟩ := hall.1 c hcan
  exact ⟨s,hs,c,c',pb,hvalue,hcan,hsigns,hsurvives⟩

end InertiaRelayer.Auth
