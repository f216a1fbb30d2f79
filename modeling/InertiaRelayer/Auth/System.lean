import InertiaRelayer.Auth.Interceptor
import InertiaRelayer.Library.Machine

namespace InertiaRelayer.Auth

inductive Handler where
  | idle
  | entered (req : GenerateAuthChallengeRequest) (ip : IpAddr)
  | looked (req : GenerateAuthChallengeRequest) (ip : IpAddr) (found : Option AuthChallenge)
  | pushing (req : GenerateAuthChallengeRequest) (ip : IpAddr) (entry : AuthChallenge)
      (r : Readings)
  | redeeming (req : GenerateAuthTokensRequest) (ip : IpAddr) (serial : Nat)
      (entry : AuthChallenge) (response : GenerateAuthTokensResponse)
deriving DecidableEq

inductive Event where
  | stored (ip : IpAddr) (serial : Nat) (entry : AuthChallenge)
      (req : GenerateAuthChallengeRequest) (r : Readings)
  | answered (ip : IpAddr) (req : GenerateAuthChallengeRequest) (challenge : String)
  | redeemed (ip : IpAddr) (serial : Nat) (entry : AuthChallenge)
      (req : GenerateAuthTokensRequest) (response : GenerateAuthTokensResponse)
  | refreshed (presented : String) (claims : Claims) (now issued : Int) (token : PbToken)
  | admitted (token : String) (claims : Claims) (now : Int)
deriving DecidableEq

structure State where
  challenges : AuthChallenges
  pushes : IpAddr → Nat
  handlers : KeyMap Nat Handler
  log : List Event

def init : State := ⟨∅,fun _ => 0,∅,[]⟩

namespace State

def handler (s : State) (h : Nat) : Handler := (s.handlers.lookup h).getD .idle

def setHandler (s : State) (h : Nat) (x : Handler) : State :=
  { s with handlers := s.handlers.insert h x }

def record (s : State) (e : Event) : State := { s with log := e :: s.log }

def store (s : State) (ip : IpAddr) (entry : AuthChallenge)
    (req : GenerateAuthChallengeRequest) (r : Readings) : State :=
  { s with
    challenges := s.challenges.push ip entry
    pushes := Function.update s.pushes ip (s.pushes ip + 1)
    log := .stored ip (s.pushes ip + 1) entry req r :: s.log }

def remove (s : State) (ip : IpAddr) : State := { s with challenges := s.challenges.remove ip }

def expire (s : State) (p : Platform) (clock : Nat → Int) : State :=
  { s with challenges := s.challenges.removeAllExpired p clock }

variable (s : State) (h h' : Nat) (x : Handler) (e : Event) (ip : IpAddr)

@[simp] theorem setHandler_challenges : (s.setHandler h x).challenges = s.challenges := rfl
@[simp] theorem setHandler_pushes : (s.setHandler h x).pushes = s.pushes := rfl
@[simp] theorem setHandler_log : (s.setHandler h x).log = s.log := rfl
@[simp] theorem record_challenges : (s.record e).challenges = s.challenges := rfl
@[simp] theorem record_pushes : (s.record e).pushes = s.pushes := rfl
@[simp] theorem record_handler : (s.record e).handler h = s.handler h := rfl
@[simp] theorem record_log : (s.record e).log = e :: s.log := rfl
@[simp] theorem remove_pushes : (s.remove ip).pushes = s.pushes := rfl
@[simp] theorem remove_handler : (s.remove ip).handler h = s.handler h := rfl
@[simp] theorem remove_log : (s.remove ip).log = s.log := rfl

theorem setHandler_handler : (s.setHandler h x).handler h' =
    if h' = h then x else s.handler h' := by
  unfold handler setHandler
  split
  · rename_i heq
    rw [heq, AList.lookup_insert, Option.getD_some]
  · rename_i hne
    rw [AList.lookup_insert_ne hne]

theorem entry_of_handler {s : State} {h : Nat} (hx : s.handler h ≠ .idle) :
    ⟨h,s.handler h⟩ ∈ s.handlers.entries := by
  unfold handler at hx ⊢
  cases hl : s.handlers.lookup h with
  | none => simp [hl] at hx
  | some x => exact KeyMap.lookup_iff_entry.mp hl

theorem handler_of_entry {s : State} {e : (_ : Nat) × Handler} (he : e ∈ s.handlers.entries) :
    s.handler e.1 = e.2 := by
  unfold handler
  rw [KeyMap.lookup_iff_entry.mpr he, Option.getD_some]

end State

inductive Action where
  | challengeStart (h : Nat) (req : Request GenerateAuthChallengeRequest)
  | challengeLookup (h : Nat)
  | challengeAnswer (h : Nat) (r : Readings) (token : String)
  | challengePush (h : Nat)
  | tokensLookup (h : Nat) (req : Request GenerateAuthTokensRequest)
  | tokensRemove (h : Nat)
  | refresh (req : RefreshAccessTokenRequest) (now issued : Int)
  | relayerRequest (metadata : MetadataMap) (now : Int)
  | expire (clock : Nat → Int)
  | abort (h : Nat)

def tokensOf : Event → List String
  | .redeemed _ _ _ _ response => [response.accessToken.value,response.refreshToken.value]
  | .refreshed _ _ _ _ token => [token.value]
  | _ => []

def issuedTokens (log : List Event) : List String := log.flatMap tokensOf

def Presentable (p : Platform) (log : List Event) (token : String) : Prop :=
  p.verifyWithKey token = none ∨ token ∈ issuedTokens log

instance (p : Platform) (log : List Event) (token : String) :
    Decidable (Presentable p log token) := by unfold Presentable; infer_instance

section Step

variable (p : Platform) (s : State)

def answerStep (h : Nat) (req : GenerateAuthChallengeRequest) (ip : IpAddr)
    (found : Option AuthChallenge) (r : Readings) (token : String) : State :=
  match answerChallenge p req ip found r token with
  | .error _ => s.setHandler h .idle
  | .ok (.existing challenge) => (s.setHandler h .idle).record (.answered ip req challenge)
  | .ok (.fresh entry) => s.setHandler h (.pushing req ip entry r)

def redeemStep (h : Nat) (req : GenerateAuthTokensRequest) (ip : IpAddr) (key : p.PublicKey) :
    State :=
  match s.challenges.getPriority ip with
  | none => s
  | some entry =>
      match redeemChallenge p req key (some entry) with
      | .error _ => s
      | .ok response => s.setHandler h (.redeeming req ip (s.pushes ip) entry response)

def refreshStep (req : RefreshAccessTokenRequest) (now issued : Int) : State :=
  match acceptRefresh p req now with
  | .error _ => s
  | .ok claims =>
      match refreshAccessToken p req now issued with
      | .error _ => s
      | .ok token => s.record (.refreshed req.refreshToken claims now issued token)

def relayerStep (metadata : MetadataMap) (token : String) (now : Int) : State :=
  match callerClaims p .rs256 metadata with
  | .error _ => s
  | .ok claims => s.record (.admitted token claims now)

def step : Action → Option State
  | .challengeStart h req =>
      if s.handler h = .idle then
        match admitChallenge s.challenges.len req with
        | .error _ => some s
        | .ok ip => some (s.setHandler h (.entered req.message ip))
      else none
  | .challengeLookup h =>
      match s.handler h with
      | .entered req ip => some (s.setHandler h (.looked req ip (s.challenges.getPriority ip)))
      | _ => none
  | .challengeAnswer h r token =>
      match s.handler h with
      | .looked req ip found =>
          if r.Ordered ∧ IsChallengeToken token then
            some (answerStep p s h req ip found r token)
          else none
      | _ => none
  | .challengePush h =>
      match s.handler h with
      | .pushing req ip entry r =>
          some (((s.setHandler h .idle).store ip entry req r).record
            (.answered ip req entry.challenge))
      | _ => none
  | .tokensLookup h req =>
      if s.handler h = .idle then
        match tokensClient p req with
        | .error _ => some s
        | .ok (ip,key) => some (redeemStep p s h req.message ip key)
      else none
  | .tokensRemove h =>
      match s.handler h with
      | .redeeming req ip serial entry response =>
          some (((s.setHandler h .idle).remove ip).record
            (.redeemed ip serial entry req response))
      | _ => none
  | .refresh req now issued =>
      if Presentable p s.log req.refreshToken ∧ now ≤ issued then
        some (refreshStep p s req now issued)
      else none
  | .relayerRequest metadata now =>
      match bearerToken p metadata with
      | .error _ => some s
      | .ok token =>
          if Presentable p s.log token then some (relayerStep p s metadata token now) else none
  | .expire clock => some (s.expire p clock)
  | .abort h => some (s.setHandler h .idle)

end Step

def Action.readings : Action → List Int
  | .challengeAnswer _ r _ => [r.lookup,r.access,r.refresh,r.challenge]
  | .refresh _ now issued => [now,issued]
  | .relayerRequest _ now => [now]
  | _ => []

end InertiaRelayer.Auth
