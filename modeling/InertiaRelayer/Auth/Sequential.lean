import InertiaRelayer.Auth.Effects

namespace InertiaRelayer.Auth
open Machine

variable {p : Platform} {s : State} {h : Nat}

theorem tokensRemove_step {req : GenerateAuthTokensRequest} {ip : IpAddr} {serial : Nat}
    {c : AuthChallenge} {response : GenerateAuthTokensResponse}
    (hs : s.handler h = .redeeming req ip serial c response) :
    step p s (.tokensRemove h) = some (((s.setHandler h .idle).remove ip).record
      (.redeemed ip serial c req response)) := by
  simp only [step, hs]

theorem challengeLookup_step {req : GenerateAuthChallengeRequest} {ip : IpAddr}
    (hs : s.handler h = .entered req ip) :
    step p s (.challengeLookup h) =
      some (s.setHandler h (.looked req ip (s.challenges.getPriority ip))) := by
  simp only [step, hs]

theorem challengeAnswer_step {req : GenerateAuthChallengeRequest} {ip : IpAddr}
    {found : Option AuthChallenge} {r : Readings} {token : String}
    (hs : s.handler h = .looked req ip found) (hr : r.Ordered) (ht : IsChallengeToken token) :
    step p s (.challengeAnswer h r token) = some (answerStep p s h req ip found r token) := by
  simp only [step, hs, hr, ht, and_self, if_true]

theorem challengePush_step {req : GenerateAuthChallengeRequest} {ip : IpAddr}
    {c : AuthChallenge} {r : Readings} (hs : s.handler h = .pushing req ip c r) :
    step p s (.challengePush h) = some (((s.setHandler h .idle).store ip c req r).record
      (.answered ip req c.challenge)) := by
  simp only [step, hs]

theorem setHandler_self (s : State) (h : Nat) (x : Handler) : (s.setHandler h x).handler h = x := by
  rw [State.setHandler_handler, if_pos rfl]

theorem run_pair {a b : Action} {t u : State} (ha : step p s a = some t)
    (hb : step p t b = some u) : run (step p) s [a,b] = some u := by
  simp [run, ha, hb]

theorem generateAuthTokens_runs {req : Request GenerateAuthTokensRequest}
    {response : GenerateAuthTokensResponse} {q : AuthChallenges} (hidle : s.handler h = .idle)
    (hok : generateAuthTokens p s.challenges req = .ok (response,q)) :
    ∃ t ip serial c, run (step p) s [.tokensLookup h req,.tokensRemove h] = some t ∧
      t.challenges = q ∧ t.log = .redeemed ip serial c req.message response :: s.log := by
  obtain ⟨⟨ip,key⟩,hclient,hok⟩ := bind_ok hok
  obtain ⟨response',hred,hok⟩ := bind_ok hok
  cases hok
  cases hget : s.challenges.getPriority ip with
  | none =>
    rw [hget] at hred
    cases hred
  | some c =>
    rw [hget] at hred
    have hlookup : step p s (.tokensLookup h req) =
        some (s.setHandler h (.redeeming req.message ip (s.pushes ip) c response)) := by
      simp [step, hidle, hclient, redeemStep, hget, hred]
    have hremove := tokensRemove_step (p := p) (setHandler_self s h
      (.redeeming req.message ip (s.pushes ip) c response))
    exact ⟨_,ip,s.pushes ip,c,run_pair hlookup hremove,rfl,rfl⟩

theorem challenge_lookup_runs {req : Request GenerateAuthChallengeRequest} {ip : IpAddr}
    (hidle : s.handler h = .idle) (hclient : admitChallenge s.challenges.len req = .ok ip) :
    ∃ t, run (step p) s [.challengeStart h req,.challengeLookup h] = some t ∧
      t.challenges = s.challenges ∧
      t.handler h = .looked req.message ip (s.challenges.getPriority ip) := by
  have hstart : step p s (.challengeStart h req) =
      some (s.setHandler h (.entered req.message ip)) := by
    simp [step, hidle, hclient]
  have hlookup := challengeLookup_step (p := p) (setHandler_self s h (.entered req.message ip))
  exact ⟨_,run_pair hstart hlookup,rfl,setHandler_self _ _ _⟩

theorem generateAuthChallenge_runs {req : Request GenerateAuthChallengeRequest} {r : Readings}
    {token challenge : String} {q : AuthChallenges} (hidle : s.handler h = .idle)
    (hr : r.Ordered) (ht : IsChallengeToken token)
    (hok : generateAuthChallenge p s.challenges req r token = .ok (challenge,q)) :
    ∃ as t ip, run (step p) s as = some t ∧ t.challenges = q ∧
      t.log.head? = some (.answered ip req.message challenge) := by
  obtain ⟨ip,hclient,hok⟩ := bind_ok hok
  obtain ⟨answer,hanswer,hok⟩ := bind_ok hok
  obtain ⟨t,hrun,hstore,hhandler⟩ := challenge_lookup_runs (p := p) hidle hclient
  have hnext := run_concat hrun (challengeAnswer_step hhandler hr ht)
  cases answer with
  | existing existing =>
    cases hok
    refine ⟨_,_,ip,hnext,?_,?_⟩
    · simp [answerStep, hanswer, hstore]
    · simp [answerStep, hanswer]
  | fresh entry =>
    cases hok
    simp only [answerStep, hanswer] at hnext
    have hpush := challengePush_step (p := p) (setHandler_self t h
      (.pushing req.message ip entry r))
    refine ⟨_,_,ip,run_concat hnext hpush,?_,rfl⟩
    simp [State.store, hstore]

end InertiaRelayer.Auth
