import InertiaRelayer.Auth.Session

namespace InertiaRelayer.Auth
open History Machine

def accessTokens (log : List Event) : List PbToken :=
  log.flatMap fun
    | .redeemed _ _ _ _ response => [response.accessToken]
    | .refreshed _ _ _ _ token => [token]
    | _ => []

def AdmittedFresh (earlier : List Event) (token : String) (claims : Claims) (now : Int) : Prop :=
  (∃ pb ∈ accessTokens earlier, pb.value = token) ∧ claims.isExpired now = false

def AdmissionsFresh (log : List Event) : Prop :=
  ∀ later earlier token claims now, log = later ++ .admitted token claims now :: earlier →
    AdmittedFresh earlier token claims now

def FreshBearer (log : List Event) (now : Int) : Except Failure String → Prop
  | .error _ => True
  | .ok token => token ∈ issuedTokens log →
      ∃ pb ∈ accessTokens log, pb.value = token ∧ now < pb.expiresAtUtc * nanosPerSec

instance (log : List Event) (now : Int) :
    ∀ token, Decidable (FreshBearer log now token)
  | .error _ => .isTrue trivial
  | .ok _ => by unfold FreshBearer; infer_instance

def PresentsFresh (p : Platform) (s : State) : Action → Prop
  | .relayerRequest metadata now => FreshBearer s.log now (bearerToken p metadata)
  | _ => True

instance (p : Platform) (s : State) : ∀ a, Decidable (PresentsFresh p s a)
  | .relayerRequest metadata now =>
      inferInstanceAs (Decidable (FreshBearer s.log now (bearerToken p metadata)))
  | .challengeStart .. | .challengeLookup .. | .challengeAnswer .. | .challengePush ..
  | .tokensLookup .. | .tokensRemove .. | .refresh .. | .expire .. | .abort .. =>
      .isTrue trivial

def AdmitsFresh : Event → List Event → Prop
  | .admitted token claims now, earlier => AdmittedFresh earlier token claims now
  | _, _ => True

variable {p : Platform} {s t : State} {a : Action}

theorem admissionsFresh_iff {log : List Event} :
    AdmissionsFresh log ↔ Justified AdmitsFresh log := by
  constructor
  · intro h
    induction log with
    | nil => trivial
    | cons e log ih =>
      refine ⟨?_,ih (fun later earlier token claims now hl =>
        h (e :: later) earlier token claims now (by rw [hl]; rfl))⟩
      cases e with
      | admitted token claims now => exact h [] log token claims now rfl
      | _ => trivial
  · intro h later earlier token claims now hl
    exact (justified_at h hl).1

theorem accessTokens_sign {log : List Event} {pb : PbToken}
    (hl : Justified (Justification p) log) (h : pb ∈ accessTokens log) :
    ∃ c, Signs p c pb := by
  obtain ⟨e,he,hp⟩ := List.mem_flatMap.mp h
  obtain ⟨_,_,_,hj,_⟩ := justified_mem hl he
  cases e with
  | redeemed ip serial c req response =>
    obtain ⟨_,key,_,hred⟩ := hj
    rw [List.mem_singleton.mp hp]
    exact ⟨_,hred.access⟩
  | refreshed presented claims now issued token =>
    rw [List.mem_singleton.mp hp]
    exact ⟨_,hj.2.2.2.2⟩
  | _ => simp at hp

theorem expiry_of_accessToken {log : List Event} {pb : PbToken} {claims : Claims}
    (hl : Justified (Justification p) log) (h : pb ∈ accessTokens log)
    (hc : Carries p pb.value claims) : claims.expiresAtUtc = pb.expiresAtUtc * nanosPerSec := by
  obtain ⟨c,hs⟩ := accessTokens_sign hl h
  rw [(Platform.claims_of_deSer (carries_of_sign hs hc)).2.2, hs.expiry]

theorem callerClaims_issued {metadata : MetadataMap} {token : String}
    (hl : Justified (Justification p) s.log) (hb : bearerToken p metadata = .ok token)
    (ht : token ∈ issuedTokens s.log) :
    ∃ claims, callerClaims p .rs256 metadata = .ok claims := by
  obtain ⟨c,pb,rfl,hs,hr⟩ := issued_signs hl ht
  have hv := p.verify_of_sign _ _ _ hs.value
  refine ⟨⟨c.clientIp,c.clientPubkey,timestamp c.expiresAtUtc * nanosPerSec⟩,?_⟩
  have hj : jwtFromHeader p .rs256 metadata = .ok (tokenHeader,p.deSerClaims c) := by
    simp [jwtFromHeader, hb, verifyBearer, hv, tokenHeader, bind, Except.bind]
  simpa [callerClaims, hj, bind, Except.bind] using Platform.claims_deSer_ok hr

theorem admitsFresh_step (hs : Provenance p s ∧ Justified AdmitsFresh s.log)
    (hc : PresentsFresh p s a) (hstep : step p s a = some t) :
    Provenance p t ∧ Justified AdmitsFresh t.log := by
  refine ⟨provenance_step hs.1 hstep,?_⟩
  cases step_effect hstep with
  | answered => exact ⟨trivial,hs.2⟩
  | pushed => exact ⟨trivial,trivial,hs.2⟩
  | redeemed => exact ⟨trivial,hs.2⟩
  | refreshed => exact ⟨trivial,hs.2⟩
  | admitted metadata now token claims hp hb ha =>
    obtain ⟨token',header,deSer,ht,hv,hd⟩ := callerClaims_ok ha
    obtain rfl := Except.ok.inj (hb.symm.trans ht)
    have hcarries : Carries p token claims := ⟨header,deSer,hv,hd⟩
    simp only [PresentsFresh, hb, FreshBearer] at hc
    obtain ⟨pb,hpb,rfl,hlt⟩ := hc (issued_of_presentable hp hcarries)
    have he := expiry_of_accessToken hs.1.log hpb hcarries
    exact ⟨⟨⟨pb,hpb,rfl⟩,by simpa [Claims.isExpired, he] using hlt⟩,hs.2⟩
  | _ => exact hs.2

theorem admitsFresh_pullback (hstep : step p s a = some t) (ht : Justified AdmitsFresh t.log) :
    Justified AdmitsFresh s.log := by
  cases step_effect hstep with
  | answered => exact ht.2
  | pushed => exact ht.2.2
  | redeemed => exact ht.2
  | refreshed => exact ht.2
  | admitted => exact ht.2
  | _ => exact ht

theorem presentsFresh_of_step (hs : Provenance p s) (hstep : step p s a = some t)
    (ht : Justified AdmitsFresh t.log) : PresentsFresh p s a := by
  cases a with
  | relayerRequest metadata now =>
    cases hb : bearerToken p metadata with
    | error e => simp only [PresentsFresh, hb, FreshBearer]
    | ok token =>
      simp only [PresentsFresh, hb, FreshBearer]
      intro hissued
      obtain ⟨claims,ha⟩ := callerClaims_issued hs.log hb hissued
      have hpresent : Presentable p s.log token := .inr hissued
      simp only [step, hb, hpresent, if_true, relayerStep, ha, Option.some.injEq] at hstep
      subst hstep
      obtain ⟨⟨⟨pb,hpb,rfl⟩,hexp⟩,_⟩ := ht
      obtain ⟨token',header,deSer,hb',hv,hd⟩ := callerClaims_ok ha
      obtain rfl := Except.ok.inj (hb.symm.trans hb')
      have he := expiry_of_accessToken hs.log hpb ⟨header,deSer,hv,hd⟩
      exact ⟨pb,hpb,rfl,by simpa [Claims.isExpired, he] using hexp⟩
  | _ => trivial

theorem admissions_fresh_iff_presents_fresh (p : Platform) (as : List Action) (s : State)
    (hrun : run (step p) init as = some s) :
    AdmissionsFresh s.log ↔ Along (step p) (PresentsFresh p) init as := by
  rw [admissionsFresh_iff]
  constructor
  · intro h
    exact along_of_pullback (Q := fun s : State => Justified AdmitsFresh s.log)
      (fun _ _ _ => provenance_step) (fun _ _ _ => admitsFresh_pullback)
      (fun _ _ _ => presentsFresh_of_step) provenance_init hrun h
  · intro h
    exact (run_invariant_along
      (I := fun s : State => Provenance p s ∧ Justified AdmitsFresh s.log)
      (fun _ _ _ => admitsFresh_step) ⟨provenance_init,trivial⟩ h hrun).2

def bearerMetadata (token : String) : MetadataMap :=
  [(authorizationHeader,(bearer ++ token).toList.map (fun c => UInt8.ofNat c.toNat))]

def requestAt (token : String) (secs : Int) : Action :=
  .relayerRequest (bearerMetadata token) (secs * nanosPerSec)

def staleAdmission : List Event → Bool
  | .admitted _ claims now :: _ => claims.isExpired now
  | _ => false

theorem not_fresh_of_staleAdmission {log : List Event} (h : staleAdmission log = true) :
    ¬ AdmissionsFresh log := by
  intro hf
  cases log with
  | nil => cases h
  | cons e log =>
    cases e with
    | admitted token claims now =>
      have hexp := (hf [] log token claims now rfl).2
      rw [show claims.isExpired now = true from h] at hexp
      cases hexp
    | _ => cases h

theorem expired_access_token_admitted :
    Clocked (handshake ++ [requestAt (jwtExpiring validatorKey 1800) 2000]) ∧
      ∃ s, run (step referencePlatform) init
          (handshake ++ [requestAt (jwtExpiring validatorKey 1800) 2000]) = some s ∧
        ¬ AdmissionsFresh s.log := by
  refine ⟨by decide,?_⟩
  obtain ⟨s,hs,ho⟩ := exists_run_of_map (step referencePlatform) init
    (handshake ++ [requestAt (jwtExpiring validatorKey 1800) 2000])
    (fun s => staleAdmission s.log) (by decide +kernel)
  exact ⟨s,hs,not_fresh_of_staleAdmission ho⟩

theorem fresh_access_token_admitted :
    ∃ s, run (step referencePlatform) init
        (handshake ++ [requestAt (jwtExpiring validatorKey 1800) 1000]) = some s ∧
      s.log.length = 4 ∧ AdmissionsFresh s.log := by
  obtain ⟨s,hs,hl⟩ := exists_run_of_map (step referencePlatform) init
    (handshake ++ [requestAt (jwtExpiring validatorKey 1800) 1000])
    (fun s => decide (s.log.length = 4)) (by decide +kernel)
  exact ⟨s,hs,of_decide_eq_true hl,
    (admissions_fresh_iff_presents_fresh referencePlatform _ s hs).mpr (by decide +kernel)⟩

end InertiaRelayer.Auth
