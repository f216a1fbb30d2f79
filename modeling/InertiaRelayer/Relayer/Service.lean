import InertiaRelayer.Auth.Authenticity
import InertiaRelayer.Auth.Admission
import InertiaRelayer.Relayer.Subscription

namespace InertiaRelayer.Relayer
open Machine

structure State where
  auth : Auth.State
  forwarder : Forwarder.State
  calls : List Pubkey

def init : State := ⟨Auth.init,Forwarder.init,[]⟩

inductive Action (π : Type) where
  | auth (a : Auth.Action)
  | subscribeRequest (metadata : Auth.MetadataMap) (now : Int)
  | subscribePackets (pubkey : Pubkey)
  | forwarder (a : Forwarder.Action π)

def subscribes {π : Type} : Forwarder.Action π → Bool
  | .subscribePackets _ => true
  | _ => false

section Step

variable {π : Type} [PacketRef π] (p : Auth.Platform)

def forwarderStep (s : Forwarder.State) (a : Forwarder.Action π) : Option Forwarder.State :=
  Forwarder.step p.pubkeyText.text p.ipText.text s a

def step (s : State) : Action π → Option State
  | .auth a => (Auth.step p s.auth a).map fun auth => { s with auth := auth }
  | .subscribeRequest metadata now =>
      (Auth.step p s.auth (.relayerRequest metadata now)).map fun auth =>
        match Auth.call p .rs256 metadata with
        | .error _ => { s with auth := auth }
        | .ok pubkey => { s with auth := auth, calls := pubkey :: s.calls }
  | .subscribePackets pubkey =>
      if pubkey ∈ s.calls then
        (forwarderStep p s.forwarder (.subscribePackets pubkey : Forwarder.Action π)).map
          fun forwarder =>
            { s with forwarder := forwarder, calls := s.calls.erase pubkey }
      else none
  | .forwarder a =>
      if subscribes a then none
      else (forwarderStep p s.forwarder a).map fun forwarder => { s with forwarder := forwarder }

end Step

def WasAdmitted (log : List Auth.Event) (pubkey : Pubkey) : Prop :=
  ∃ token claims now, .admitted token claims now ∈ log ∧ claims.clientPubkey = pubkey

structure Authorized (p : Auth.Platform) (s : State) : Prop where
  auth : Auth.Provenance p s.auth
  calls : ∀ pubkey ∈ s.calls, WasAdmitted s.auth.log pubkey
  subscriptions : ∀ pubkey ch, s.forwarder.subscriptions.lookup pubkey = some ch →
    WasAdmitted s.auth.log pubkey

variable {π : Type} [PacketRef π] {p : Auth.Platform} {s t : State} {a : Action π}

theorem wasAdmitted_suffix {log newer : List Auth.Event} {pubkey : Pubkey} (h : log <:+ newer)
    (hw : WasAdmitted log pubkey) : WasAdmitted newer pubkey := by
  obtain ⟨token,claims,now,hm,hc⟩ := hw
  exact ⟨token,claims,now,h.subset hm,hc⟩

theorem log_suffix {s t : Auth.State} {a : Auth.Action} (h : Auth.step p s a = some t) :
    s.log <:+ t.log := by
  cases Auth.step_effect h with
  | unchanged => exact List.suffix_rfl
  | quiet => exact List.suffix_rfl
  | answered => exact List.suffix_cons _ _
  | prepared => exact List.suffix_rfl
  | pushed => exact (List.suffix_cons _ _).trans (List.suffix_cons _ _)
  | validated => exact List.suffix_rfl
  | redeemed => exact List.suffix_cons _ _
  | refreshed => exact List.suffix_cons _ _
  | admitted => exact List.suffix_cons _ _
  | expired => exact List.suffix_rfl

theorem call_recorded {s t : Auth.State} {metadata : Auth.MetadataMap} {now : Int}
    {pubkey : Pubkey} (h : Auth.step p s (.relayerRequest metadata now) = some t)
    (hcall : Auth.call p .rs256 metadata = .ok pubkey) : WasAdmitted t.log pubkey := by
  obtain ⟨claims,hclaims,hpub⟩ := bind_ok hcall
  cases hpub
  obtain ⟨token,_,_,htoken,_,_⟩ := Auth.callerClaims_ok hclaims
  simp only [Auth.step, htoken] at h
  split at h
  · cases h
    simp only [Auth.relayerStep, hclaims]
    exact ⟨token,claims,now,List.mem_cons_self,rfl⟩
  · cases h

theorem authorized_auth (hs : Authorized p s) {auth : Auth.State} {b : Auth.Action}
    (h : Auth.step p s.auth b = some auth) : Authorized p { s with auth := auth } where
  auth := Auth.provenance_step hs.auth h
  calls pubkey hm := wasAdmitted_suffix (log_suffix h) (hs.calls pubkey hm)
  subscriptions pubkey ch hk := wasAdmitted_suffix (log_suffix h) (hs.subscriptions pubkey ch hk)

theorem authorized_forwarder (hs : Authorized p s) {forwarder : Forwarder.State}
    {b : Forwarder.Action π} (h : forwarderStep p s.forwarder b = some forwarder)
    (hb : ∀ pubkey, b = .subscribePackets pubkey → WasAdmitted s.auth.log pubkey) :
    Authorized p { s with forwarder := forwarder } where
  auth := hs.auth
  calls := hs.calls
  subscriptions pubkey ch hk := by
    rcases Forwarder.lookup_effect (Forwarder.step_effect h) hk with heq | hk
    · exact hb pubkey heq
    · exact hs.subscriptions pubkey ch hk

theorem authorized_step (hs : Authorized p s) (h : step p s a = some t) : Authorized p t := by
  cases a with
  | auth b =>
    obtain ⟨auth,hauth,rfl⟩ := Option.map_eq_some_iff.mp h
    exact authorized_auth hs hauth
  | subscribeRequest metadata now =>
    obtain ⟨auth,hauth,rfl⟩ := Option.map_eq_some_iff.mp h
    have hnext := authorized_auth hs hauth
    split
    · exact hnext
    · rename_i pubkey hcall
      refine ⟨hnext.auth,?_,hnext.subscriptions⟩
      intro k hk
      rcases List.mem_cons.mp hk with rfl | hk
      · exact call_recorded hauth hcall
      · exact hnext.calls k hk
  | subscribePackets pubkey =>
    simp only [step] at h
    split at h
    · rename_i hm
      obtain ⟨forwarder,hf,rfl⟩ := Option.map_eq_some_iff.mp h
      have hnext := authorized_forwarder hs hf (by
        intro k hk
        cases hk
        exact hs.calls pubkey hm)
      exact ⟨hnext.auth,fun k hk => hs.calls k (List.mem_of_mem_erase hk),hnext.subscriptions⟩
    · cases h
  | forwarder b =>
    simp only [step] at h
    split at h
    · cases h
    · rename_i hb
      obtain ⟨forwarder,hf,rfl⟩ := Option.map_eq_some_iff.mp h
      exact authorized_forwarder hs hf (fun k hk => by simp [hk, subscribes] at hb)

theorem authorized_init : Authorized p init where
  auth := Auth.provenance_init
  calls _ hm := by cases hm
  subscriptions pubkey ch hk := by simp [init, Forwarder.init] at hk

theorem subscriptions_authenticated (p : Auth.Platform) (as : List (Action π)) (s : State)
    (hrun : run (step p) init as = some s) :
    (∀ later earlier token claims now,
      s.auth.log = later ++ .admitted token claims now :: earlier →
        Auth.Authenticated p earlier claims.clientPubkey claims.clientIp) ∧
    ∀ pubkey ch, s.forwarder.subscriptions.lookup pubkey = some ch →
      ∃ later earlier token claims now,
        s.auth.log = later ++ .admitted token claims now :: earlier ∧
        claims.clientPubkey = pubkey ∧ Auth.Authenticated p earlier pubkey claims.clientIp := by
  have hs : Authorized p s := run_invariant (fun _ _ _ => authorized_step) authorized_init hrun
  refine ⟨?_,?_⟩
  · intro later earlier token claims now hlog
    exact Auth.admitted_authenticated hs.auth.log hlog
  · intro pubkey ch hk
    obtain ⟨token,claims,now,hm,rfl⟩ := hs.subscriptions pubkey ch hk
    obtain ⟨later,earlier,hlog⟩ := List.append_of_mem hm
    exact ⟨later,earlier,token,claims,now,hlog,rfl,Auth.admitted_authenticated hs.auth.log hlog⟩

section Validator

open Auth

def subscription : List (Action Packet) :=
  handshake.map .auth ++
    [.subscribeRequest (bearerMetadata (jwtExpiring validatorKey 1800)) (1000 * nanosPerSec),
      .subscribePackets validatorKey]

theorem validator_subscription_authenticated :
    ∃ s, run (step referencePlatform) init subscription = some s ∧
      s.forwarder.subscriptions.lookup validatorKey = some 0 ∧
      ∃ later earlier token claims now,
        s.auth.log = later ++ .admitted token claims now :: earlier ∧
        claims.clientPubkey = validatorKey ∧
        Authenticated referencePlatform earlier validatorKey claims.clientIp := by
  obtain ⟨s,hs,hk⟩ := exists_run_of_map (step referencePlatform) init subscription
    (fun s => s.forwarder.subscriptions.lookup validatorKey == some 0) (by decide +kernel)
  have hk := eq_of_beq hk
  exact ⟨s,hs,hk,(subscriptions_authenticated referencePlatform _ s hs).2 validatorKey 0 hk⟩

end Validator

end InertiaRelayer.Relayer
