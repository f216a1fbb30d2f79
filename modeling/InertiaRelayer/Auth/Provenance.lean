import InertiaRelayer.Auth.Effects

namespace InertiaRelayer.Auth
open History

def WasStored (log : List Event) (ip : IpAddr) (serial : Nat) (c : AuthChallenge) : Prop :=
  ∃ req r, Event.stored ip serial c req r ∈ log

def WasRedeemed (p : Platform) (req : GenerateAuthTokensRequest) (c : AuthChallenge)
    (response : GenerateAuthTokensResponse) : Prop :=
  ∃ key, p.publicKeyFromBytes req.clientPubkey = some key ∧ Redeems p req key c response

def Carries (p : Platform) (token : String) (claims : Claims) : Prop :=
  ∃ header deSer, p.verifyWithKey token = some (header,deSer) ∧ p.claims deSer = .ok claims

def Justification (p : Platform) : Event → List Event → Prop
  | .stored ip _ c req r, _ => Created p req ip r c ∧ r.Ordered
  | .answered _ _ _, _ => True
  | .redeemed ip serial c req response, earlier =>
      WasStored earlier ip serial c ∧ WasRedeemed p req c response
  | .refreshed presented claims now issued token, earlier =>
      presented ∈ issuedTokens earlier ∧ Carries p presented claims ∧
        claims.isExpired now = false ∧ p.inRange (issued + accessTokenTtl) = true ∧
        Signs p ⟨claims.clientIp,claims.clientPubkey,issued + accessTokenTtl⟩ token
  | .admitted token claims _, earlier =>
      token ∈ issuedTokens earlier ∧ Carries p token claims

def HandlerOk (p : Platform) (log : List Event) : Handler → Prop
  | .pushing req ip c r => Created p req ip r c ∧ r.Ordered
  | .redeeming req ip serial c response =>
      WasStored log ip serial c ∧ WasRedeemed p req c response
  | _ => True

structure Provenance (p : Platform) (s : State) : Prop where
  log : Justified (Justification p) s.log
  store : ∀ ip c, s.challenges.getPriority ip = some c → WasStored s.log ip (s.pushes ip) c
  handlers : ∀ h, HandlerOk p s.log (s.handler h)

variable {p : Platform} {s t : State} {a : Action}

theorem handlerOk_of_quiet {log : List Event} {x : Handler} (hx : x.quiet = true) :
    HandlerOk p log x := by
  cases x with
  | pushing => cases hx
  | redeeming => cases hx
  | _ => trivial

theorem wasStored_cons {log : List Event} {ip : IpAddr} {serial : Nat} {c : AuthChallenge}
    (e : Event) (h : WasStored log ip serial c) : WasStored (e :: log) ip serial c := by
  obtain ⟨req,r,hm⟩ := h
  exact ⟨req,r,List.mem_cons_of_mem e hm⟩

theorem handlerOk_cons {log : List Event} {x : Handler} (e : Event) (h : HandlerOk p log x) :
    HandlerOk p (e :: log) x := by
  cases x with
  | redeeming req ip serial c response => exact ⟨wasStored_cons e h.1,h.2⟩
  | pushing => exact h
  | _ => trivial

theorem provenance_setHandler (hs : Provenance p s) (h : Nat) {x : Handler}
    (hx : HandlerOk p s.log x) : Provenance p (s.setHandler h x) where
  log := hs.log
  store := hs.store
  handlers n := by
    rw [State.setHandler_handler]
    split
    · exact hx
    · exact hs.handlers n

theorem provenance_record (hs : Provenance p s) {e : Event} (he : Justification p e s.log) :
    Provenance p (s.record e) where
  log := ⟨he,hs.log⟩
  store ip c hc := wasStored_cons e (hs.store ip c hc)
  handlers n := handlerOk_cons e (hs.handlers n)

theorem provenance_store (hs : Provenance p s) {ip : IpAddr} {c : AuthChallenge}
    {req : GenerateAuthChallengeRequest} {r : Readings} (hc : Created p req ip r c)
    (hr : r.Ordered) : Provenance p (s.store ip c req r) where
  log := ⟨⟨hc,hr⟩,hs.log⟩
  store ip' c' h := by
    rcases AuthChallenges.getPriority_push h with ⟨rfl,rfl⟩ | ⟨hne,h⟩
    · exact ⟨req,r,by simp [State.store]⟩
    · simpa [State.store, Function.update_of_ne hne] using wasStored_cons _ (hs.store ip' c' h)
  handlers n := handlerOk_cons _ (hs.handlers n)

theorem provenance_remove (hs : Provenance p s) (ip : IpAddr) : Provenance p (s.remove ip) where
  log := hs.log
  store ip' c h := hs.store ip' c (AuthChallenges.getPriority_remove h).2
  handlers := hs.handlers

theorem provenance_expire (hs : Provenance p s) (clock : Nat → Int) :
    Provenance p (s.expire p clock) where
  log := hs.log
  store ip c h := hs.store ip c (AuthChallenges.getPriority_removeAllExpired h)
  handlers := hs.handlers

theorem issued_of_presentable {log : List Event} {token : String} {claims : Claims}
    (hp : Presentable p log token) (hc : Carries p token claims) : token ∈ issuedTokens log := by
  obtain ⟨header,deSer,hv,_⟩ := hc
  rcases hp with hn | hm
  · rw [hn] at hv
    cases hv
  · exact hm

theorem provenance_init : Provenance p init where
  log := trivial
  store ip c h := by simp [init, AuthChallenges.getPriority] at h
  handlers _ := trivial

theorem provenance_step (hs : Provenance p s) (hstep : step p s a = some t) : Provenance p t := by
  cases step_effect hstep with
  | unchanged => exact hs
  | quiet a h x hx => exact provenance_setHandler hs h (handlerOk_of_quiet hx)
  | answered h req ip c r token =>
    exact provenance_record (provenance_setHandler hs h (x := .idle) trivial) trivial
  | prepared h req ip found c r hh hr hc => exact provenance_setHandler hs h ⟨hc,hr⟩
  | pushed h req ip c r hh =>
    have hok := hs.handlers h
    rw [hh] at hok
    have hi := provenance_setHandler hs h (x := .idle) trivial
    exact provenance_record (provenance_store hi hok.1 hok.2) trivial
  | validated h req ip key c response hc hk hr =>
    exact provenance_setHandler hs h ⟨hs.store ip c hc,key,hk,hr⟩
  | redeemed h req ip serial c response hh =>
    have hok := hs.handlers h
    rw [hh] at hok
    have hi := provenance_setHandler hs h (x := .idle) trivial
    exact provenance_record (provenance_remove hi ip) hok
  | refreshed req now issued claims token hp ha hr ht =>
    obtain ⟨header,deSer,hv,hc,hexp⟩ := acceptRefresh_ok ha
    have hcarries : Carries p req.refreshToken claims := ⟨header,deSer,hv,hc⟩
    exact provenance_record hs ⟨issued_of_presentable hp hcarries,hcarries,hexp,hr,ht⟩
  | admitted metadata now token claims hp hb ha =>
    obtain ⟨token',header,deSer,ht,hv,hc⟩ := callerClaims_ok ha
    obtain rfl := Except.ok.inj (hb.symm.trans ht)
    have hcarries : Carries p token claims := ⟨header,deSer,hv,hc⟩
    exact provenance_record hs ⟨issued_of_presentable hp hcarries,hcarries⟩
  | expired clock => exact provenance_expire hs clock

theorem provenance_run {as : List Action} (h : Machine.run (step p) init as = some s) :
    Provenance p s :=
  Machine.run_invariant (fun _ _ _ => provenance_step) provenance_init h

theorem carries_of_sign {c claims : Claims} {token : PbToken} (hs : Signs p c token)
    (hc : Carries p token.value claims) : p.claims (p.deSerClaims c) = .ok claims := by
  obtain ⟨header,deSer,hv,hd⟩ := hc
  rw [p.verify_of_sign _ _ _ hs.value] at hv
  cases hv
  exact hd

theorem issued_signs {log : List Event} {token : String}
    (hl : Justified (Justification p) log) (h : token ∈ issuedTokens log) :
    ∃ c pb, pb.value = token ∧ Signs p c pb ∧ p.inRange c.expiresAtUtc = true := by
  obtain ⟨e,he,ht⟩ := List.mem_flatMap.mp h
  obtain ⟨_,earlier,_,hj,hearlier⟩ := justified_mem hl he
  cases e with
  | redeemed ip serial c req response =>
    obtain ⟨⟨creq,r,hstored⟩,key,_,hred⟩ := hj
    obtain ⟨_,_,_,⟨hcreated,_⟩,_⟩ := justified_mem hearlier hstored
    simp only [tokensOf, List.mem_cons, List.not_mem_nil, or_false] at ht
    rcases ht with rfl | rfl
    · exact ⟨_,_,rfl,hred.access,hcreated.access_inRange⟩
    · exact ⟨_,_,rfl,hred.refresh,hcreated.refresh_inRange⟩
  | refreshed presented claims now issued token =>
    obtain ⟨_,_,_,hr,hs⟩ := hj
    simp only [tokensOf, List.mem_singleton] at ht
    exact ⟨_,_,ht.symm,hs,hr⟩
  | _ => simp [tokensOf] at ht

end InertiaRelayer.Auth
