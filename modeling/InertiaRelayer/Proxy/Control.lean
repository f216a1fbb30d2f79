import InertiaRelayer.Proxy.Datagrams
import InertiaRelayer.Relayer.Service
import InertiaRelayer.Relayer.SingleValidator
import Mathlib.Data.List.Destutter

namespace InertiaRelayer.Control
open Machine Datagrams Frames

structure State where
  relayer : Relayer.State
  mirror : Datagrams.State
  control : Option (Option Pubkey)

def init : State := ⟨Relayer.init,Datagrams.init,none⟩

inductive Action (π : Type) where
  | relayer (a : Relayer.Action π)
  | mirror (a : Datagrams.Action)
  | mirrorControl
  | tick (h : Nat)
  | stop

def payload : Datagrams.Action → Bool
  | .send _ source _ => decide (source ≠ sourceControl)
  | _ => true

def State.validator (s : State) : Option Pubkey :=
  Forwarder.connectedValidator s.relayer.forwarder.subscriptions

section Step

variable {π : Type} [PacketRef π] (p : Auth.Platform)

def step (s : State) : Action π → Option State
  | .relayer a => (Relayer.step p s.relayer a).map fun r => { s with relayer := r }
  | .mirror a =>
      if payload a then (Datagrams.step s.mirror a).map fun m => { s with mirror := m } else none
  | .mirrorControl =>
      match s.control with
      | none => some { s with control := some none }
      | some _ => none
  | .tick h =>
      match s.control with
      | none => none
      | some _ =>
          match s.validator with
          | none => some s
          | some identity =>
              (Datagrams.step s.mirror (.send h sourceControl identity.bytes)).map fun m =>
                { s with mirror := m, control := some (some identity) }
  | .stop =>
      match s.control with
      | none => none
      | some _ => some { s with control := none }

end Step

section Reports

variable {π : Type} [PacketRef π]

def reportedAt (s : State) : Action π → List Pubkey
  | .tick _ => s.validator.toList
  | _ => []

def reportedOn (h : Nat) (s : State) : Action π → List Pubkey
  | .tick i => if i = h then s.validator.toList else []
  | _ => []

def loggedAt (s : State) : Action π → List Pubkey
  | .tick _ => s.validator.toList.filter fun identity => s.control ≠ some (some identity)
  | _ => []

def controlData (calls : List (UInt8 × Bytes)) : List Bytes :=
  (calls.filter fun c => c.1 = sourceControl).map Prod.snd

def controlSentAt (h : Nat) (s : State) : Action π → List Bytes
  | .mirror a => controlData (sentAt h s.mirror a)
  | _ => []

def Action.serves : Action π → Bool
  | .mirrorControl | .stop => false
  | _ => true

def Serving (_ : State) (a : Action π) : Prop := a.serves = true

instance : DecidableRel (Serving (π := π)) :=
  fun _ a => inferInstanceAs (Decidable (a.serves = true))

variable {p : Auth.Platform} {s t : State} {a : Action π}

inductive Effect (p : Auth.Platform) (s : State) : Action π → State → Prop
  | relayed (a : Relayer.Action π) (r : Relayer.State) (hstep : Relayer.step p s.relayer a = some r) :
      Effect p s (.relayer a) { s with relayer := r }
  | mirrored (a : Datagrams.Action) (m : Datagrams.State) (ha : payload a = true)
      (hstep : Datagrams.step s.mirror a = some m) : Effect p s (.mirror a) { s with mirror := m }
  | started : Effect p s .mirrorControl { s with control := some none }
  | skipped (h : Nat) (last : Option Pubkey) (hs : s.control = some last)
      (hv : s.validator = none) : Effect p s (.tick h) s
  | reported (h : Nat) (last : Option Pubkey) (identity : Pubkey) (m : Datagrams.State)
      (hs : s.control = some last) (hv : s.validator = some identity)
      (hstep : Datagrams.step s.mirror (.send h sourceControl identity.bytes) = some m) :
      Effect p s (.tick h) { s with mirror := m, control := some (some identity) }
  | stopped : Effect p s .stop { s with control := none }

theorem step_effect (hstep : step p s a = some t) : Effect p s a t := by
  cases a with
  | relayer a =>
    obtain ⟨r,hr,rfl⟩ := Option.map_eq_some_iff.mp hstep
    exact .relayed a r hr
  | mirror a =>
    simp only [step] at hstep
    split at hstep
    · rename_i ha
      obtain ⟨m,hm,rfl⟩ := Option.map_eq_some_iff.mp hstep
      exact .mirrored a m ha hm
    · cases hstep
  | mirrorControl =>
    simp only [step] at hstep
    split at hstep
    · cases hstep
      exact .started
    · cases hstep
  | tick h =>
    simp only [step] at hstep
    split at hstep
    · cases hstep
    · rename_i last hs
      split at hstep
      · rename_i hv
        cases hstep
        exact .skipped h last hs hv
      · rename_i identity hv
        obtain ⟨m,hm,rfl⟩ := Option.map_eq_some_iff.mp hstep
        exact .reported h last identity m hs hv hm
  | stop =>
    simp only [step] at hstep
    split at hstep
    · cases hstep
    · cases hstep
      exact .stopped

theorem destutter_repeat {a b : Pubkey} {logged reported : List Pubkey}
    (h : b :: logged = (b :: reported).destutter (· ≠ ·)) :
    a :: ([b].filter (a ≠ ·) ++ logged) = (a :: b :: reported).destutter (· ≠ ·) := by
  rw [List.destutter_cons'] at h
  rw [List.destutter_cons_cons]
  by_cases hab : a = b
  · subst hab
    simpa using h
  · simpa [hab] using h

theorem session_log {last : Option Pubkey} {as : List (Action π)} (hs : s.control = some last)
    (hrun : run (step p) s as = some t) (hc : Along (step p) Serving s as) :
    last.toList ++ collect (step p) loggedAt s as =
      (last.toList ++ collect (step p) reportedAt s as).destutter (· ≠ ·) := by
  induction as generalizing s last with
  | nil =>
    cases last with
    | none => rfl
    | some a => rfl
  | cons a as ih =>
    obtain ⟨u,hu,hrun⟩ := run_cons hrun
    obtain ⟨ha,hc⟩ := along_cons hc hu
    rw [collect_cons loggedAt hu, collect_cons reportedAt hu]
    cases step_effect hu with
    | relayed | mirrored => exact ih hs hrun hc
    | started | stopped => cases ha
    | skipped h last' hs' hv =>
      simpa [loggedAt, reportedAt, hv] using ih hs hrun hc
    | reported h last' identity m hs' hv hm =>
      have hrest := ih rfl hrun hc
      cases last with
      | none => simpa [loggedAt, reportedAt, hv, hs] using hrest
      | some old => simpa [loggedAt, reportedAt, hv, hs] using destutter_repeat (a := old) hrest

end Reports

section Authenticity

open Relayer (WasAdmitted Authorized)

variable {π : Type} [PacketRef π] {p : Auth.Platform} {s t : State} {a : Action π}

theorem relayer_log {s t : Relayer.State} {a : Relayer.Action π}
    (hstep : Relayer.step p s a = some t) : s.auth.log <:+ t.auth.log := by
  cases a with
  | auth a =>
    obtain ⟨auth,hauth,rfl⟩ := Option.map_eq_some_iff.mp hstep
    exact Relayer.log_suffix hauth
  | subscribeRequest metadata now =>
    obtain ⟨auth,hauth,rfl⟩ := Option.map_eq_some_iff.mp hstep
    have hlog := Relayer.log_suffix hauth
    split
    · exact hlog
    · exact hlog
  | subscribePackets pubkey =>
    simp only [Relayer.step] at hstep
    split at hstep
    · obtain ⟨_,_,rfl⟩ := Option.map_eq_some_iff.mp hstep
      exact List.suffix_rfl
    · cases hstep
  | forwarder a =>
    simp only [Relayer.step] at hstep
    split at hstep
    · cases hstep
    · obtain ⟨_,_,rfl⟩ := Option.map_eq_some_iff.mp hstep
      exact List.suffix_rfl

theorem lookup_of_connectedValidator {subscriptions : Forwarder.PacketSubscriptions}
    {identity : Pubkey} (h : Forwarder.connectedValidator subscriptions = some identity) :
    ∃ ch, subscriptions.lookup identity = some ch := by
  have hsize : subscriptions.size ≤ 1 := by
    unfold Forwarder.connectedValidator at h
    split at h
    · rename_i hone
      exact hone.le
    · cases h
  exact (Forwarder.connectedValidator_iff hsize identity).mp h

def Admitted (s : State) (data : Bytes) : Prop :=
  ∃ identity : Pubkey, data = identity.bytes ∧ WasAdmitted s.relayer.auth.log identity

structure Authentic (p : Auth.Platform) (s : State) : Prop where
  relayer : Authorized p s.relayer
  buffered : Buffered s.mirror
  control : ∀ h, ∀ data ∈ controlData (s.mirror.callers h).underway, Admitted s data

theorem validator_admitted {identity : Pubkey} (hs : Authorized p s.relayer)
    (hv : s.validator = some identity) : Admitted s identity.bytes := by
  obtain ⟨ch,hch⟩ := lookup_of_connectedValidator hv
  exact ⟨identity,rfl,hs.subscriptions identity ch hch⟩

theorem validator_of_reported {ρ : Type} {a : Action ρ} {h : Nat} {identity : Pubkey}
    (hm : identity ∈ reportedOn h s a) :
    s.validator = some identity := by
  cases a with
  | tick i =>
    simp only [reportedOn] at hm
    split at hm
    · exact Option.mem_toList.mp hm
    · cases hm
  | _ => cases hm

theorem controlData_flow {m n : Datagrams.State} {a : Datagrams.Action} (h : Nat)
    (hm : Buffered m) (hstep : Datagrams.step m a = some n) :
    (controlData (sentAt h m a) ++ controlData (n.callers h).underway).Sublist
      (controlData (m.callers h).underway ++ controlData (calledAt h m a)) := by
  have hflow := (call_flow h hm hstep).1
  simpa [controlData] using (hflow.filter _).map Prod.snd

theorem payload_quiet {m : Datagrams.State} {a : Datagrams.Action} (h : Nat)
    (ha : payload a = true) : controlData (calledAt h m a) = [] := by
  cases a with
  | send i source data =>
    have hne : source ≠ sourceControl := of_decide_eq_true ha
    by_cases hi : i = h
    · simp [calledAt, controlData, hi, hne]
    · simp [calledAt, controlData, hi]
  | _ => rfl

theorem control_flow (h : Nat) (hs : Buffered s.mirror) (hstep : step p s a = some t) :
    (controlSentAt h s a ++ controlData (t.mirror.callers h).underway).Sublist
      (controlData (s.mirror.callers h).underway ++
        (reportedOn h s a).flatMap fun identity => [identity.bytes]) := by
  cases step_effect hstep with
  | mirrored a m ha hm =>
    have hflow := controlData_flow h hs hm
    rw [payload_quiet h ha] at hflow
    exact hflow
  | reported i last identity m hc hv hm =>
    have hflow := controlData_flow h hs hm
    by_cases hi : i = h
    · simpa [controlSentAt, reportedOn, hi, hv, calledAt, sentAt, controlData] using hflow
    · simpa [controlSentAt, reportedOn, hi, hv, calledAt, sentAt, controlData] using hflow
  | skipped i last hc hv => simp [controlSentAt, reportedOn, hv]
  | _ => simp [controlSentAt, reportedOn]

theorem log_step (hstep : step p s a = some t) : s.relayer.auth.log <:+ t.relayer.auth.log := by
  cases step_effect hstep with
  | relayed a r hr => exact relayer_log hr
  | _ => exact List.suffix_rfl

theorem buffered_next (hs : Buffered s.mirror) (hstep : step p s a = some t) :
    Buffered t.mirror := by
  cases step_effect hstep with
  | mirrored a m ha hm => exact buffered_step hs hm
  | reported h last identity m hc hv hm => exact buffered_step hs hm
  | _ => exact hs

theorem flow_admitted {h : Nat} {data : Bytes} (hs : Authentic p s) (hstep : step p s a = some t)
    (hd : data ∈ controlSentAt h s a ++ controlData (t.mirror.callers h).underway) :
    Admitted s data := by
  rcases List.mem_append.mp ((control_flow h hs.buffered hstep).subset hd) with hold | hnew
  · exact hs.control h data hold
  · obtain ⟨identity,hid,hdata⟩ := List.mem_flatMap.mp hnew
    cases List.mem_singleton.mp hdata
    exact validator_admitted hs.relayer (validator_of_reported hid)

theorem authentic_step (hs : Authentic p s) (hstep : step p s a = some t) : Authentic p t := by
  refine ⟨?_,buffered_next hs.buffered hstep,fun h data hdata => ?_⟩
  · cases step_effect hstep with
    | relayed a r hr => exact Relayer.authorized_step hs.relayer hr
    | _ => exact hs.relayer
  · obtain ⟨identity,rfl,hw⟩ := flow_admitted hs hstep (List.mem_append_right _ hdata)
    exact ⟨identity,rfl,Relayer.wasAdmitted_suffix (log_step hstep) hw⟩

theorem authentic_init : Authentic p init :=
  ⟨Relayer.authorized_init,framed_init.buffered,fun _ _ hdata => by cases hdata⟩

theorem admitted_authenticated (hs : Authentic p s) {data : Bytes} (hd : Admitted s data) :
    ∃ identity later earlier token claims now,
      data = Pubkey.bytes identity ∧
      s.relayer.auth.log = later ++ .admitted token claims now :: earlier ∧
      claims.clientPubkey = identity ∧ Auth.Authenticated p earlier identity claims.clientIp := by
  obtain ⟨identity,hdata,token,claims,now,hm,rfl⟩ := hd
  obtain ⟨later,earlier,hlog⟩ := List.append_of_mem hm
  exact ⟨_,later,earlier,token,claims,now,hdata,hlog,rfl,
    Auth.admitted_authenticated hs.relayer.auth.log hlog⟩

theorem control_reports_authentic (p : Auth.Platform) (as : List (Action π)) (s : State)
    (hrun : run (step p) init as = some s) (h : Nat) :
    (collect (step p) (controlSentAt h) init as).Sublist
      ((collect (step p) (reportedOn h) init as).map Pubkey.bytes) ∧
    ∀ (a : Action π) t, step p s a = some t → ∀ data ∈ controlSentAt h s a,
      ∃ identity later earlier token claims now,
        data = Pubkey.bytes identity ∧
        s.relayer.auth.log = later ++ .admitted token claims now :: earlier ∧
        claims.clientPubkey = identity ∧
        Auth.Authenticated p earlier identity claims.clientIp := by
  refine ⟨?_,fun a t hstep data hdata => ?_⟩
  · have hflow := collect_sublist (fun s : State => controlData (s.mirror.callers h).underway)
      (fun _ _ _ => buffered_next) (fun _ _ _ hs hstep => control_flow h hs hstep)
      framed_init.buffered hrun
    rw [collect_flatMap, ← List.map_eq_flatMap] at hflow
    exact (List.sublist_append_left _ _).trans hflow
  · have hs : Authentic p s := run_invariant (fun _ _ _ => authentic_step) authentic_init hrun
    exact admitted_authenticated hs (flow_admitted hs hstep (List.mem_append_left _ hdata))

theorem control_log_reports_changes (p : Auth.Platform) (s t : State) (last : Option Pubkey)
    (as : List (Action π)) (hs : s.control = some last) (hrun : run (step p) s as = some t)
    (hc : Along (step p) Serving s as) :
    last.toList ++ collect (step p) loggedAt s as =
      (last.toList ++ collect (step p) reportedAt s as).destutter (· ≠ ·) ∧
    (last.toList ++ collect (step p) loggedAt s as).IsChain (· ≠ ·) := by
  have hlog := session_log hs hrun hc
  refine ⟨hlog,?_⟩
  rw [hlog]
  exact List.isChain_destutter _ _

end Authenticity

section Sample

open Auth (validatorKey referencePlatform)

def firstReport : List (Action Packet) :=
  Relayer.subscription.map .relayer ++
    [.mirrorControl,.mirror (.set (some 0)),.tick 2,.mirror (.readConn 2),.mirror (.frame 2 5)]

theorem first_report_authentic :
    ∃ s identity later earlier token claims now,
      run (step referencePlatform) init firstReport = some s ∧
      identity.bytes = validatorKey.bytes ∧
      s.relayer.auth.log = later ++ .admitted token claims now :: earlier ∧
      claims.clientPubkey = identity ∧
      Auth.Authenticated referencePlatform earlier identity claims.clientIp := by
  obtain ⟨s,hs,hsent⟩ := exists_run_of_map (step referencePlatform) init firstReport
    (fun s => decide (controlSentAt 2 s (.mirror (.sendDatagram 2 .ok) : Action Packet) =
        [validatorKey.bytes]) &&
      (step referencePlatform s (.mirror (.sendDatagram 2 .ok) : Action Packet)).isSome)
    (by decide +kernel)
  obtain ⟨hsent,hsome⟩ := Bool.and_eq_true_iff.mp hsent
  obtain ⟨t,ht⟩ := Option.isSome_iff_exists.mp hsome
  have hmem := (of_decide_eq_true hsent).symm ▸ List.mem_singleton_self validatorKey.bytes
  obtain ⟨identity,later,earlier,token,claims,now,hdata,hlog,hkey,hauth⟩ :=
    (control_reports_authentic referencePlatform firstReport s hs 2).2 _ t ht _ hmem
  exact ⟨s,identity,later,earlier,token,claims,now,hs,hdata.symm,hlog,hkey,hauth⟩

def firstTick : List (Action Packet) :=
  Relayer.subscription.map .relayer ++ [.mirrorControl,.tick 2]

def quietTicks : List (Action Packet) :=
  [.mirror (.readConn 2),.tick 2,.mirror (.readConn 2),.tick 2]

theorem repeated_ticks_logged_once :
    ∃ s t : State, s.control = some (some validatorKey) ∧
      run (step referencePlatform) s quietTicks = some t ∧
      collect (step referencePlatform) reportedAt s quietTicks = [validatorKey,validatorKey] ∧
      collect (step referencePlatform) loggedAt s quietTicks = [] := by
  obtain ⟨s,_,hs⟩ := exists_run_of_map (step referencePlatform) init firstTick
    (fun s => decide (s.control = some (some validatorKey) ∧
      Along (step referencePlatform) Serving s quietTicks ∧
      collect (step referencePlatform) reportedAt s quietTicks = [validatorKey,validatorKey] ∧
      ((run (step referencePlatform) s quietTicks).map fun _ => true) = some true))
    (by decide +kernel)
  obtain ⟨hlast,hserving,hreported,hmore⟩ := of_decide_eq_true hs
  obtain ⟨t,ht,_⟩ := exists_run_of_map (step referencePlatform) s quietTicks (fun _ => true) hmore
  have hlog := (control_log_reports_changes referencePlatform s t _ quietTicks hlast ht hserving).1
  have hone : [validatorKey,validatorKey,validatorKey].destutter (· ≠ ·) = [validatorKey] := by
    simp [List.destutter_cons_cons]
  refine ⟨s,t,hlast,ht,hreported,?_⟩
  rw [hreported] at hlog
  exact List.cons_injective (hlog.trans hone)

end Sample

end InertiaRelayer.Control
