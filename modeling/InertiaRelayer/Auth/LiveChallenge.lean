import InertiaRelayer.Auth.Redemption

namespace InertiaRelayer.Auth
open Machine

def Handler.asks (ip : IpAddr) : Handler → Bool
  | .looked _ ip' _ => decide (ip' = ip)
  | .pushing _ ip' _ _ => decide (ip' = ip)
  | _ => false

def Handler.enters : Handler → Option IpAddr
  | .entered _ ip => some ip
  | _ => none

def Handler.found (ip : IpAddr) : Handler → Option AuthChallenge
  | .looked _ ip' found => if ip' = ip then found else none
  | _ => none

def NoOtherAsker (s : State) (h : Nat) : Option IpAddr → Prop
  | none => True
  | some ip => ∀ e ∈ s.handlers.entries, e.1 ≠ h → e.2.asks ip = false

instance (s : State) (h : Nat) : ∀ ip, Decidable (NoOtherAsker s h ip)
  | none => .isTrue trivial
  | some ip => inferInstanceAs
      (Decidable (∀ e ∈ s.handlers.entries, e.1 ≠ h → e.2.asks ip = false))

def LookupAlone (s : State) : Action → Prop
  | .challengeLookup h => NoOtherAsker s h (s.handler h).enters
  | _ => True

instance (s : State) : ∀ a, Decidable (LookupAlone s a)
  | .challengeLookup h => inferInstanceAs (Decidable (NoOtherAsker s h (s.handler h).enters))
  | .challengeStart .. | .challengeAnswer .. | .challengePush .. | .tokensLookup ..
  | .tokensRemove .. | .refresh .. | .relayerRequest .. | .expire .. | .abort .. =>
      .isTrue trivial

def Undisturbed (p : Platform) (ip : IpAddr) (challenge : String) (s : State) : Action → Prop
  | .tokensRemove h => (s.handler h).redeems ip = false
  | .expire clock => ∀ c ∈ s.challenges.getPriority ip, c.challenge = challenge →
      (s.challenges.removeAllExpired p clock).getPriority ip = some c
  | .challengeAnswer h r _ => ∀ c ∈ (s.handler h).found ip, c.challenge = challenge →
      c.isExpired r.lookup = false
  | _ => True

instance (p : Platform) (ip : IpAddr) (challenge : String) (s : State) :
    ∀ a, Decidable (Undisturbed p ip challenge s a)
  | .tokensRemove h => inferInstanceAs (Decidable ((s.handler h).redeems ip = false))
  | .expire clock => inferInstanceAs (Decidable
      (∀ c ∈ s.challenges.getPriority ip, c.challenge = challenge →
        (s.challenges.removeAllExpired p clock).getPriority ip = some c))
  | .challengeAnswer h r _ => inferInstanceAs (Decidable
      (∀ c ∈ (s.handler h).found ip, c.challenge = challenge → c.isExpired r.lookup = false))
  | .challengeStart .. | .challengeLookup .. | .challengePush .. | .tokensLookup ..
  | .refresh .. | .relayerRequest .. | .abort .. => .isTrue trivial

def answer (ip : IpAddr) : Event → Option String
  | .answered ip' _ challenge => if ip' = ip then some challenge else none
  | _ => none

def answers (ip : IpAddr) (log : List Event) : List String := log.filterMap (answer ip)

section AtIp

inductive IpEffect (p : Platform) (ip : IpAddr) (s : State) : Action → State → Prop
  | elsewhere (a : Action) (t : State)
      (hstore : t.challenges.getPriority ip = s.challenges.getPriority ip)
      (hlog : answers ip t.log = answers ip s.log)
      (hhandler : ∀ h, t.handler h = s.handler h ∨ (t.handler h).asks ip = false) :
      IpEffect p ip s a t
  | looked (h : Nat) (req : GenerateAuthChallengeRequest) (hs : s.handler h = .entered req ip) :
      IpEffect p ip s (.challengeLookup h)
        (s.setHandler h (.looked req ip (s.challenges.getPriority ip)))
  | existing (h : Nat) (req : GenerateAuthChallengeRequest) (c : AuthChallenge) (r : Readings)
      (token : String) (hs : s.handler h = .looked req ip (some c)) :
      IpEffect p ip s (.challengeAnswer h r token)
        ((s.setHandler h .idle).record (.answered ip req c.challenge))
  | fresh (h : Nat) (req : GenerateAuthChallengeRequest) (found : Option AuthChallenge)
      (c : AuthChallenge) (r : Readings) (token : String) (hs : s.handler h = .looked req ip found)
      (hexp : ∀ c', found = some c' → c'.isExpired r.lookup = true) :
      IpEffect p ip s (.challengeAnswer h r token) (s.setHandler h (.pushing req ip c r))
  | pushed (h : Nat) (req : GenerateAuthChallengeRequest) (c : AuthChallenge) (r : Readings)
      (hs : s.handler h = .pushing req ip c r) :
      IpEffect p ip s (.challengePush h)
        (((s.setHandler h .idle).store ip c req r).record (.answered ip req c.challenge))
  | redeemed (h : Nat) (t : State) (hs : (s.handler h).redeems ip = true) :
      IpEffect p ip s (.tokensRemove h) t
  | expired (clock : Nat → Int) : IpEffect p ip s (.expire clock) (s.expire p clock)

variable {p : Platform} {ip : IpAddr} {s t : State} {a : Action}

theorem handler_setHandler_or (s : State) (h : Nat) {x : Handler} (hx : x.asks ip = false)
    (n : Nat) : (s.setHandler h x).handler n = s.handler n ∨
      ((s.setHandler h x).handler n).asks ip = false := by
  rw [State.setHandler_handler]
  split
  · exact .inr hx
  · exact .inl rfl

theorem elsewhere_setHandler (a : Action) (h : Nat) {x : Handler} (hx : x.asks ip = false) :
    IpEffect p ip s a (s.setHandler h x) :=
  .elsewhere a _ rfl rfl (handler_setHandler_or s h hx)

theorem elsewhere_record (a : Action) {e : Event} (he : answer ip e = none) :
    IpEffect p ip s a (s.record e) :=
  .elsewhere a _ rfl (List.filterMap_cons_none he) (fun _ => .inl rfl)

theorem answerChallenge_fresh_expired {req : GenerateAuthChallengeRequest}
    {found : Option AuthChallenge} {r : Readings} {token : String} {c : AuthChallenge}
    (h : answerChallenge p req ip found r token = .ok (.fresh c)) :
    ∀ c', found = some c' → c'.isExpired r.lookup = true := by
  rintro c' rfl
  simp only [answerChallenge] at h
  split at h
  · assumption
  · cases h

theorem answerStep_ipEffect {h : Nat} {req : GenerateAuthChallengeRequest} {ip' : IpAddr}
    {found : Option AuthChallenge} {r : Readings} {token : String}
    (hs : s.handler h = .looked req ip' found) :
    IpEffect p ip s (.challengeAnswer h r token) (answerStep p s h req ip' found r token) := by
  unfold answerStep
  by_cases heq : ip' = ip
  · subst heq
    split
    · exact elsewhere_setHandler _ h rfl
    · rename_i challenge ha
      obtain ⟨c,rfl,_,rfl⟩ := answerChallenge_existing ha
      exact .existing h req c r token hs
    · rename_i c ha
      exact .fresh h req found c r token hs (answerChallenge_fresh_expired ha)
  · split
    · exact elsewhere_setHandler _ h rfl
    · rename_i challenge ha
      refine .elsewhere _ _ rfl (List.filterMap_cons_none ?_) (handler_setHandler_or s h rfl)
      simp [answer, heq]
    · exact elsewhere_setHandler _ h (by simp [Handler.asks, heq])

theorem elsewhere_same (a : Action) : IpEffect p ip s a s :=
  .elsewhere a s rfl rfl (fun _ => .inl rfl)

theorem pushStep_ipEffect {h : Nat} {req : GenerateAuthChallengeRequest} {ip' : IpAddr}
    {c : AuthChallenge} {r : Readings} (hs : s.handler h = .pushing req ip' c r) :
    IpEffect p ip s (.challengePush h) (((s.setHandler h .idle).store ip' c req r).record
      (.answered ip' req c.challenge)) := by
  by_cases heq : ip' = ip
  · subst heq
    exact .pushed h req c r hs
  · have hanswer : answer ip (.answered ip' req c.challenge) = none := by simp [answer, heq]
    exact .elsewhere _ _ (AList.lookup_insert_ne (Ne.symm heq))
      ((List.filterMap_cons_none hanswer).trans (List.filterMap_cons_none rfl))
      (handler_setHandler_or s h rfl)

theorem removeStep_ipEffect {h : Nat} {req : GenerateAuthTokensRequest} {ip' : IpAddr}
    {serial : Nat} {c : AuthChallenge} {response : GenerateAuthTokensResponse}
    (hs : s.handler h = .redeeming req ip' serial c response) :
    IpEffect p ip s (.tokensRemove h) (((s.setHandler h .idle).remove ip').record
      (.redeemed ip' serial c req response)) := by
  by_cases heq : ip' = ip
  · exact .redeemed h _ (by rw [hs]; exact decide_eq_true heq)
  · exact .elsewhere _ _ (AList.lookup_erase_ne (Ne.symm heq)) rfl (handler_setHandler_or s h rfl)

theorem step_ipEffect (hstep : step p s a = some t) : IpEffect p ip s a t := by
  cases a with
  | challengeStart n req =>
    obtain rfl | ⟨ip',_,rfl⟩ := challengeStart_inv hstep
    · exact elsewhere_same _
    · exact elsewhere_setHandler _ n rfl
  | challengeLookup n =>
    obtain ⟨req,ip',hs,rfl⟩ := challengeLookup_inv hstep
    by_cases heq : ip' = ip
    · subst heq
      exact .looked n req hs
    · exact elsewhere_setHandler _ n (by simp [Handler.asks, heq])
  | challengeAnswer n r token =>
    obtain ⟨req,ip',found,hs,_,rfl⟩ := challengeAnswer_inv hstep
    exact answerStep_ipEffect hs
  | challengePush n =>
    obtain ⟨req,ip',c,r,hs,rfl⟩ := challengePush_inv hstep
    exact pushStep_ipEffect hs
  | tokensLookup n req =>
    obtain rfl | ⟨ip',key,_,rfl⟩ := tokensLookup_inv hstep
    · exact elsewhere_same _
    · obtain heq | ⟨entry,response,heq⟩ := redeemStep_cases p s n req.message ip' key
      · rw [heq]
        exact elsewhere_same _
      · rw [heq]
        exact elsewhere_setHandler _ n rfl
  | tokensRemove n =>
    obtain ⟨req,ip',serial,c,response,hs,rfl⟩ := tokensRemove_inv hstep
    exact removeStep_ipEffect hs
  | refresh req now issued =>
    obtain ⟨_,rfl⟩ := refresh_inv hstep
    obtain heq | ⟨claims,token,heq⟩ := refreshStep_cases p s req now issued
    · rw [heq]
      exact elsewhere_same _
    · rw [heq]
      exact elsewhere_record _ rfl
  | relayerRequest metadata now =>
    obtain rfl | ⟨token,_,_,rfl⟩ := relayerRequest_inv hstep
    · exact elsewhere_same _
    · obtain heq | ⟨claims,heq⟩ := relayerStep_cases p s metadata token now
      · rw [heq]
        exact elsewhere_same _
      · rw [heq]
        exact elsewhere_record _ rfl
  | expire clock =>
    cases hstep
    exact .expired clock
  | abort n =>
    cases hstep
    exact elsewhere_setHandler _ n rfl

end AtIp

section Window

variable {p : Platform} {ip : IpAddr} {challenge : String} {s t : State} {a : Action}

structure Awaited (ip : IpAddr) (challenge : String) (s : State) : Prop where
  alone : ∀ h h', (s.handler h).asks ip = true → (s.handler h').asks ip = true → h = h'
  stored : ∀ h c, (s.handler h).found ip = some c → c.challenge = challenge →
    s.challenges.getPriority ip = some c

structure HandedOut (ip : IpAddr) (challenge : String) (s : State) : Prop where
  stored : ∃ c, s.challenges.getPriority ip = some c ∧ c.challenge = challenge
  asking : ∀ h, (s.handler h).asks ip = true →
    ∃ req, s.handler h = .looked req ip (s.challenges.getPriority ip)

def InWindow (ip : IpAddr) (challenge : String) (before : List String) (s : State) : Prop :=
  (answers ip s.log = before ∧ Awaited ip challenge s) ∨
    ∃ later first, answers ip s.log = later ++ first :: before ∧
      (first = challenge → HandedOut ip challenge s ∧ ∀ c ∈ later, c = challenge)

theorem asks_of_found {x : Handler} {c : AuthChallenge} (h : x.found ip = some c) :
    x.asks ip = true := by
  cases x with
  | looked req ip' found =>
    simp only [Handler.found] at h
    split at h
    · rename_i heq
      exact decide_eq_true heq
    · cases h
  | _ => cases h

theorem not_asks_of_noOther {h h' : Nat} (hno : NoOtherAsker s h (some ip)) (hne : h' ≠ h) :
    (s.handler h').asks ip = false := by
  by_cases hidle : s.handler h' = .idle
  · rw [hidle]
    rfl
  · exact hno _ (State.entry_of_handler hidle) hne

theorem handler_of_asks_idle {h n : Nat} (hn : ((s.setHandler h .idle).handler n).asks ip = true) :
    n ≠ h ∧ (s.setHandler h .idle).handler n = s.handler n := by
  rw [State.setHandler_handler] at hn ⊢
  split at hn
  · cases hn
  · rename_i hne
    exact ⟨hne,if_neg hne⟩

theorem awaited_elsewhere (hs : Awaited ip challenge s)
    (hstore : t.challenges.getPriority ip = s.challenges.getPriority ip)
    (hhandler : ∀ h, t.handler h = s.handler h ∨ (t.handler h).asks ip = false) :
    Awaited ip challenge t := by
  have hsame (h : Nat) (ha : (t.handler h).asks ip = true) : t.handler h = s.handler h := by
    rcases hhandler h with heq | hnot
    · exact heq
    · rw [hnot] at ha
      cases ha
  refine ⟨?_,?_⟩
  · intro h h' ha ha'
    rw [hsame h ha] at ha
    rw [hsame h' ha'] at ha'
    exact hs.alone h h' ha ha'
  · intro h c hf hc
    rw [hstore]
    rw [hsame h (asks_of_found hf)] at hf
    exact hs.stored h c hf hc

theorem awaited_looked {h : Nat} {req : GenerateAuthChallengeRequest}
    (hno : NoOtherAsker s h (some ip)) :
    Awaited ip challenge (s.setHandler h (.looked req ip (s.challenges.getPriority ip))) := by
  have honly (n : Nat) (hn : ((s.setHandler h (.looked req ip
      (s.challenges.getPriority ip))).handler n).asks ip = true) : n = h := by
    by_contra hne
    rw [State.setHandler_handler, if_neg hne, not_asks_of_noOther hno hne] at hn
    cases hn
  refine ⟨fun n n' hn hn' => (honly n hn).trans (honly n' hn').symm,?_⟩
  intro n c hf _
  rw [honly n (asks_of_found hf), State.setHandler_handler, if_pos rfl, Handler.found,
    if_pos rfl] at hf
  exact hf

theorem awaited_fresh (hs : Awaited ip challenge s) {h : Nat} {req : GenerateAuthChallengeRequest}
    {c : AuthChallenge} {r : Readings} (hasks : (s.handler h).asks ip = true) :
    Awaited ip challenge (s.setHandler h (.pushing req ip c r)) := by
  have hold (n : Nat) (hn : ((s.setHandler h (.pushing req ip c r)).handler n).asks ip = true) :
      (s.handler n).asks ip = true := by
    rw [State.setHandler_handler] at hn
    split at hn
    · rename_i heq
      rwa [heq]
    · exact hn
  refine ⟨fun n n' hn hn' => hs.alone n n' (hold n hn) (hold n' hn'),?_⟩
  intro n c' hf hc
  rw [State.setHandler_handler] at hf
  split at hf
  · cases hf
  · exact hs.stored n c' hf hc

theorem handedOut_alone (hs : Awaited ip challenge s) {h : Nat}
    (hasks : (s.handler h).asks ip = true) {c : AuthChallenge}
    (hstore : t.challenges.getPriority ip = some c) (hc : c.challenge = challenge)
    (hhandler : ∀ n, t.handler n = (s.setHandler h .idle).handler n) :
    HandedOut ip challenge t := by
  refine ⟨⟨c,hstore,hc⟩,?_⟩
  intro n hn
  rw [hhandler] at hn
  obtain ⟨hne,heq⟩ := handler_of_asks_idle hn
  rw [heq] at hn
  exact absurd (hs.alone n h hn hasks) hne

theorem awaited_step (hs : Awaited ip challenge s) (halone : LookupAlone s a)
    (hkept : Undisturbed p ip challenge s a) (h : IpEffect p ip s a t) :
    (answers ip t.log = answers ip s.log ∧ Awaited ip challenge t) ∨
      ∃ first, answers ip t.log = first :: answers ip s.log ∧
        (first = challenge → HandedOut ip challenge t) := by
  cases h with
  | elsewhere _ _ hstore hlog hhandler =>
    exact .inl ⟨hlog,awaited_elsewhere hs hstore hhandler⟩
  | looked h req hh =>
    simp only [LookupAlone, hh, Handler.enters] at halone
    exact .inl ⟨rfl,awaited_looked halone⟩
  | existing h req c r token hh =>
    have hanswer : answer ip (.answered ip req c.challenge) = some c.challenge := if_pos rfl
    refine .inr ⟨c.challenge,List.filterMap_cons_some hanswer,?_⟩
    intro hc
    have hfound : (s.handler h).found ip = some c := by rw [hh]; exact if_pos rfl
    exact handedOut_alone hs (asks_of_found hfound) (hs.stored h c hfound hc) hc (fun _ => rfl)
  | fresh h req found c r token hh hexp =>
    exact .inl ⟨rfl,awaited_fresh hs (by rw [hh]; exact decide_eq_true rfl)⟩
  | pushed h req c r hh =>
    have hanswer : answer ip (.answered ip req c.challenge) = some c.challenge := if_pos rfl
    refine .inr ⟨c.challenge,?_,?_⟩
    · exact (List.filterMap_cons_some hanswer).trans
        (congrArg _ (List.filterMap_cons_none rfl))
    · intro hc
      exact handedOut_alone hs (by rw [hh]; exact decide_eq_true rfl)
        (AuthChallenges.getPriority_push_self s.challenges ip c) hc (fun _ => rfl)
  | redeemed h _ hh =>
    cases hkept.symm.trans hh
  | expired clock =>
    refine .inl ⟨rfl,hs.alone,?_⟩
    intro h c hf hc
    exact hkept c (hs.stored h c hf hc) hc

theorem handedOut_step (hs : HandedOut ip challenge s) (hkept : Undisturbed p ip challenge s a)
    (h : IpEffect p ip s a t) :
    HandedOut ip challenge t ∧ (answers ip t.log = answers ip s.log ∨
      answers ip t.log = challenge :: answers ip s.log) := by
  obtain ⟨c,hc,rfl⟩ := hs.stored
  have hlooked {h : Nat} {req : GenerateAuthChallengeRequest} {found : Option AuthChallenge}
      (hh : s.handler h = .looked req ip found) : found = some c := by
    obtain ⟨req',heq⟩ := hs.asking h (by rw [hh]; exact decide_eq_true rfl)
    rw [hh, hc] at heq
    cases heq
    rfl
  cases h with
  | elsewhere _ _ hstore hlog hhandler =>
    refine ⟨⟨⟨c,hstore.trans hc,rfl⟩,?_⟩,.inl hlog⟩
    intro h ha
    rcases hhandler h with heq | hnot
    · rw [heq] at ha ⊢
      rw [hstore]
      exact hs.asking h ha
    · rw [hnot] at ha
      cases ha
  | looked h req hh =>
    refine ⟨⟨⟨c,hc,rfl⟩,?_⟩,.inl rfl⟩
    intro n hn
    rw [State.setHandler_handler] at hn ⊢
    split at hn
    · rename_i heq
      exact ⟨req,by rw [if_pos heq]; rfl⟩
    · rename_i hne
      rw [if_neg hne]
      exact hs.asking n hn
  | existing h req c' r token hh =>
    obtain rfl := Option.some.inj (hlooked hh)
    have hanswer : answer ip (.answered ip req c'.challenge) = some c'.challenge := if_pos rfl
    refine ⟨⟨⟨c',hc,rfl⟩,?_⟩,.inr (List.filterMap_cons_some hanswer)⟩
    intro n hn
    obtain ⟨_,heq⟩ := handler_of_asks_idle hn
    obtain ⟨req',hreq⟩ := hs.asking n (heq ▸ hn)
    exact ⟨req',heq.trans hreq⟩
  | fresh h req found c' r token hh hexp =>
    have hfound : (s.handler h).found ip = some c := by
      rw [hh, hlooked hh]
      exact if_pos rfl
    cases (hkept c hfound rfl).symm.trans (hexp c (hlooked hh))
  | pushed h req c' r hh =>
    obtain ⟨req',heq⟩ := hs.asking h (by rw [hh]; exact decide_eq_true rfl)
    cases hh.symm.trans heq
  | redeemed h _ hh => cases hkept.symm.trans hh
  | expired clock =>
    have hstill : (s.expire p clock).challenges.getPriority ip = some c := hkept c hc rfl
    refine ⟨⟨⟨c,hstill,rfl⟩,?_⟩,.inl rfl⟩
    intro h ha
    rw [hstill, ← hc]
    exact hs.asking h ha

theorem answers_grow (hkept : Undisturbed p ip challenge s a) (h : IpEffect p ip s a t) :
    ∃ new, answers ip t.log = new ++ answers ip s.log := by
  cases h with
  | elsewhere _ _ hstore hlog hhandler => exact ⟨[],hlog⟩
  | redeemed h _ hh => cases hkept.symm.trans hh
  | existing h req c r token hh => exact ⟨_,List.filterMap_append (l := [_])⟩
  | pushed h req c r hh => exact ⟨_,List.filterMap_append (l := [_,_])⟩
  | _ => exact ⟨[],rfl⟩

theorem inWindow_step {before : List String} (hs : InWindow ip challenge before s)
    (halone : LookupAlone s a) (hkept : Undisturbed p ip challenge s a)
    (hstep : step p s a = some t) : InWindow ip challenge before t := by
  have heffect : IpEffect p ip s a t := step_ipEffect hstep
  rcases hs with ⟨hlog,hs⟩ | ⟨later,first,hlog,hs⟩
  · rcases awaited_step hs halone hkept heffect with ⟨hsame,ht⟩ | ⟨first,hnew,ht⟩
    · exact .inl ⟨hsame.trans hlog,ht⟩
    · exact .inr ⟨[],first,by rw [hnew, hlog]; rfl,fun hfirst => ⟨ht hfirst,nofun⟩⟩
  · by_cases hfirst : first = challenge
    · obtain ⟨hout,hsame⟩ := hs hfirst
      obtain ⟨ht,hnew | hnew⟩ := handedOut_step hout hkept heffect
      · exact .inr ⟨later,first,hnew.trans hlog,fun _ => ⟨ht,hsame⟩⟩
      · refine .inr ⟨challenge :: later,first,by rw [hnew, hlog]; rfl,fun _ => ⟨ht,?_⟩⟩
        exact List.forall_mem_cons.mpr ⟨rfl,hsame⟩
    · obtain ⟨new,hnew⟩ := answers_grow hkept heffect
      refine .inr ⟨new ++ later,first,by rw [hnew, hlog, List.append_assoc],?_⟩
      exact fun heq => absurd heq hfirst

theorem inWindow_run {before : List String} {as : List Action}
    (hs : InWindow ip challenge before s) (halone : Along (step p) LookupAlone s as)
    (hkept : Along (step p) (Undisturbed p ip challenge) s as)
    (hrun : run (step p) s as = some t) : InWindow ip challenge before t := by
  induction as generalizing s with
  | nil => exact Option.some.inj hrun ▸ hs
  | cons a as ih =>
    obtain ⟨u,hu,hrun⟩ := run_cons hrun
    obtain ⟨ha,halone⟩ := along_cons halone hu
    obtain ⟨hk,hkept⟩ := along_cons hkept hu
    exact ih (inWindow_step hs ha hk hu) halone hkept hrun

theorem inWindow_start {h : Nat} {req : GenerateAuthChallengeRequest}
    (hs : s.handler h = .entered req ip) (halone : LookupAlone s (.challengeLookup h)) :
    InWindow ip challenge (answers ip s.log) s := by
  simp only [LookupAlone, hs, Handler.enters] at halone
  have hnone (n : Nat) : (s.handler n).asks ip = false := by
    by_cases hn : n = h
    · rw [hn, hs]
      rfl
    · exact not_asks_of_noOther halone hn
  refine .inl ⟨rfl,?_,?_⟩
  · intro n n' hn
    rw [hnone n] at hn
    cases hn
  · intro n c hf
    have hn := asks_of_found hf
    rw [hnone n] at hn
    cases hn

end Window

theorem one_live_challenge_of_lookup_alone (p : Platform) (s t : State) (h : Nat) (ip : IpAddr)
    (req : GenerateAuthChallengeRequest) (as : List Action) (challenge : String)
    (later : List String) (hs : s.handler h = .entered req ip)
    (hrun : run (step p) s (.challengeLookup h :: as) = some t)
    (halone : Along (step p) LookupAlone s (.challengeLookup h :: as))
    (hkept : Along (step p) (Undisturbed p ip challenge) s (.challengeLookup h :: as))
    (hlog : answers ip t.log = later ++ challenge :: answers ip s.log) :
    (∀ c ∈ later, c = challenge) ∧
      ∃ c, t.challenges.getPriority ip = some c ∧ c.challenge = challenge := by
  rcases inWindow_run (inWindow_start hs halone.1) halone hkept hrun with
    ⟨hsame,_⟩ | ⟨later',first,hlog',hout⟩
  · have hlen := congrArg List.length (hlog.symm.trans hsame)
    rw [List.length_append, List.length_cons] at hlen
    omega
  · have heq := hlog.symm.trans hlog'
    have hlast : later = later' ∧ challenge = first := by
      have happend : (later ++ [challenge]) ++ answers ip s.log =
          (later' ++ [first]) ++ answers ip s.log := by simpa using heq
      simpa using List.append_inj' (List.append_cancel_right happend) rfl
    obtain ⟨rfl,rfl⟩ := hlast
    obtain ⟨hhanded,hsame⟩ := hout rfl
    exact ⟨hsame,hhanded.stored⟩

section Race

def bothEntered : List Action :=
  [.challengeStart 0 (challengeRequest validatorKey),
    .challengeStart 1 (challengeRequest validatorKey)]

def racingCalls : List Action :=
  [.challengeLookup 0,.challengeLookup 1,.challengeAnswer 0 (readingsAt 0) "abcdefghi",
    .challengeAnswer 1 (readingsAt 0) "jklmnopqr",.challengePush 0,.challengePush 1]

def sequentialCalls : List Action :=
  [.challengeLookup 0,.challengeAnswer 0 (readingsAt 0) "abcdefghi",.challengePush 0,
    .challengeLookup 1,.challengeAnswer 1 (readingsAt 0) "jklmnopqr"]

def enteredBoth (s : State) : Bool :=
  decide (s.handler 0 = .entered (challengeRequest validatorKey).message validatorIp ∧
    answers validatorIp s.log = [])

def storedChallenge (s : State) : Option String :=
  (s.challenges.getPriority validatorIp).map AuthChallenge.challenge

theorem racing_challenge_invalidated :
    ∃ s t, run (step referencePlatform) init bothEntered = some s ∧
      run (step referencePlatform) s racingCalls = some t ∧
      Along (step referencePlatform) (Undisturbed referencePlatform validatorIp "abcdefghi") s
        racingCalls ∧
      answers validatorIp t.log = ["jklmnopqr"] ++ "abcdefghi" :: answers validatorIp s.log ∧
      storedChallenge t = some "jklmnopqr" := by
  obtain ⟨s,hs,hentered⟩ := exists_run_of_map (step referencePlatform) init bothEntered
    enteredBoth (by decide +kernel)
  obtain ⟨t,ht,hout⟩ := exists_run_of_map (step referencePlatform) init
    (bothEntered ++ racingCalls) (fun t => decide
      (answers validatorIp t.log = ["jklmnopqr","abcdefghi"] ∧
        storedChallenge t = some "jklmnopqr")) (by decide +kernel)
  have hkept : Along (step referencePlatform)
      (Undisturbed referencePlatform validatorIp "abcdefghi") init
      (bothEntered ++ racingCalls) := by decide +kernel
  obtain ⟨_,hbefore⟩ := of_decide_eq_true hentered
  obtain ⟨hanswers,hstored⟩ := of_decide_eq_true hout
  refine ⟨s,t,hs,run_after hs ht,along_append hkept hs,?_,hstored⟩
  rw [hanswers, hbefore]
  rfl

theorem sequential_challenge_kept :
    ∃ s t, run (step referencePlatform) s sequentialCalls = some t ∧
      answers validatorIp t.log = ["abcdefghi"] ++ "abcdefghi" :: answers validatorIp s.log ∧
      ∃ c, t.challenges.getPriority validatorIp = some c ∧ c.challenge = "abcdefghi" := by
  obtain ⟨s,hs,hentered⟩ := exists_run_of_map (step referencePlatform) init bothEntered
    enteredBoth (by decide +kernel)
  obtain ⟨t,ht,hout⟩ := exists_run_of_map (step referencePlatform) init
    (bothEntered ++ sequentialCalls) (fun t => decide
      (answers validatorIp t.log = ["abcdefghi","abcdefghi"])) (by decide +kernel)
  have halone : Along (step referencePlatform) LookupAlone init
      (bothEntered ++ sequentialCalls) := by decide +kernel
  have hkept : Along (step referencePlatform)
      (Undisturbed referencePlatform validatorIp "abcdefghi") init
      (bothEntered ++ sequentialCalls) := by decide +kernel
  obtain ⟨hhandler,hbefore⟩ := of_decide_eq_true hentered
  have hanswers : answers validatorIp t.log =
      ["abcdefghi"] ++ "abcdefghi" :: answers validatorIp s.log := by
    rw [of_decide_eq_true hout, hbefore]
    rfl
  refine ⟨s,t,run_after hs ht,hanswers,?_⟩
  exact (one_live_challenge_of_lookup_alone referencePlatform s t 0 validatorIp _ _ "abcdefghi"
    ["abcdefghi"] hhandler (run_after hs ht) (along_append halone hs) (along_append hkept hs)
    hanswers).2

end Race

end InertiaRelayer.Auth
