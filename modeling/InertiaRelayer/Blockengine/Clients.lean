import InertiaRelayer.Blockengine.System
import InertiaRelayer.Library.KeyMap

namespace InertiaRelayer.Clients
open Machine

inductive GrpcCode where
  | ok
  | cancelled
  | unknown
  | invalidArgument
  | deadlineExceeded
  | notFound
  | alreadyExists
  | permissionDenied
  | resourceExhausted
  | failedPrecondition
  | aborted
  | outOfRange
  | unimplemented
  | internal
  | unavailable
  | dataLoss
  | unauthenticated
deriving DecidableEq

structure GrpcStatus where
  code : GrpcCode
  message : String
deriving DecidableEq

inductive Dial where
  | invalidUri (e : String)
  | tlsConfig (e : String)
  | connect (e : String)
  | connected
deriving DecidableEq

def getClient (channel : Nat) : Dial → Except GrpcStatus Nat
  | .invalidUri e => .error ⟨.internal,e⟩
  | .tlsConfig e => .error ⟨.internal,e⟩
  | .connect e => .error ⟨.unavailable,e⟩
  | .connected => .ok channel

inductive Service where
  | blockEngine
  | auth
deriving DecidableEq

inductive Method where
  | subscribePackets
  | subscribeBundles
  | getBlockBuilderFeeInfo
  | getBlockEngineEndpoints
  | generateAuthChallenge
  | generateAuthTokens
  | refreshAccessToken
deriving DecidableEq

def Method.service : Method → Service
  | .subscribePackets | .subscribeBundles | .getBlockBuilderFeeInfo
  | .getBlockEngineEndpoints => .blockEngine
  | .generateAuthChallenge | .generateAuthTokens | .refreshAccessToken => .auth

structure BlockEngineEndpoint where
  blockEngineUrl : String
  shredstreamReceiverAddress : String
deriving DecidableEq

structure GetBlockEngineEndpointResponse where
  globalEndpoint : Option BlockEngineEndpoint
  regionedEndpoints : List BlockEngineEndpoint
deriving DecidableEq

def getBlockEngineEndpoints (localBlockengineUrl : String)
    (jitoRes : GetBlockEngineEndpointResponse) : GetBlockEngineEndpointResponse where
  globalEndpoint := jitoRes.globalEndpoint.map fun endpoint =>
    ⟨localBlockengineUrl,endpoint.shredstreamReceiverAddress⟩
  regionedEndpoints := jitoRes.regionedEndpoints.map fun endpoint =>
    ⟨localBlockengineUrl,endpoint.shredstreamReceiverAddress⟩

inductive Answer where
  | failed (status : GrpcStatus)
  | streaming
  | endpoints (res : GetBlockEngineEndpointResponse)
  | message (body : List UInt8)
deriving DecidableEq

inductive Reply where
  | failed (status : GrpcStatus)
  | subscribed (outcome : Blockengine.TaskAction)
  | endpoints (res : GetBlockEngineEndpointResponse)
  | message (body : List UInt8)
deriving DecidableEq

def subscribeReply : Answer → Option Reply
  | .streaming => some (.subscribed .upstreamOk)
  | .failed status =>
      if status.code ≠ .permissionDenied then some (.failed status)
      else some (.subscribed .upstreamDenied)
  | _ => none

def reply (localBlockengineUrl : String) : Method → Answer → Option Reply
  | .subscribePackets, answer | .subscribeBundles, answer => subscribeReply answer
  | .getBlockEngineEndpoints, .endpoints res =>
      some (.endpoints (getBlockEngineEndpoints localBlockengineUrl res))
  | .getBlockBuilderFeeInfo, .message body | .generateAuthChallenge, .message body
  | .generateAuthTokens, .message body | .refreshAccessToken, .message body => some (.message body)
  | _, .failed status => some (.failed status)
  | _, _ => none

structure Request where
  method : Method
  peer : Option SocketAddr
deriving DecidableEq

def Request.key (r : Request) : Service × Option SocketAddr := (r.method.service,r.peer)

structure Client where
  service : Service
  channel : Nat
deriving DecidableEq

inductive Handler where
  | idle
  | looking (r : Request)
  | dialing (r : Request)
  | inserting (r : Request) (addr : SocketAddr) (client : Client)
  | calling (r : Request) (client : Client)
deriving DecidableEq

structure State where
  pools : Service → KeyMap SocketAddr Client
  handlers : Nat → Handler
  nextChannel : Nat

def init : State := ⟨fun _ => ∅,fun _ => .idle,0⟩

inductive Action where
  | request (h : Nat) (r : Request)
  | lookup (h : Nat)
  | dial (h : Nat) (d : Dial)
  | insert (h : Nat)
  | answer (h : Nat) (a : Answer)

namespace State

def setHandler (s : State) (h : Nat) (p : Handler) : State :=
  { s with handlers := Function.update s.handlers h p }

def existing (s : State) (r : Request) : Option Client :=
  match r.peer with
  | none => none
  | some addr => (s.pools r.method.service).lookup addr

def insertClient (s : State) (service : Service) (addr : SocketAddr) (client : Client) : State :=
  { s with pools := Function.update s.pools service ((s.pools service).insert addr client) }

end State

def made (r : Request) (channel : Nat) : Client := ⟨r.method.service,channel⟩

def connected (r : Request) (channel : Nat) : Handler :=
  match r.peer with
  | none => .calling r (made r channel)
  | some addr => .inserting r addr (made r channel)

def step (localBlockengineUrl : String) (s : State) : Action → Option State
  | .request h r =>
      match s.handlers h with
      | .idle => some (s.setHandler h (.looking r))
      | _ => none
  | .lookup h =>
      match s.handlers h with
      | .looking r =>
          match s.existing r with
          | some client => some (s.setHandler h (.calling r client))
          | none => some (s.setHandler h (.dialing r))
      | _ => none
  | .dial h d =>
      match s.handlers h with
      | .dialing r =>
          match getClient s.nextChannel d with
          | .error _ => some (s.setHandler h .idle)
          | .ok channel =>
              some { s.setHandler h (connected r channel) with nextChannel := s.nextChannel + 1 }
      | _ => none
  | .insert h =>
      match s.handlers h with
      | .inserting r addr client =>
          some ((s.setHandler h (.calling r client)).insertClient r.method.service addr client)
      | _ => none
  | .answer h a =>
      match s.handlers h with
      | .calling r _ => (reply localBlockengineUrl r.method a).map fun _ => s.setHandler h .idle
      | _ => none

inductive Event where
  | dialed (r : Request) (channel : Nat)
  | stored (r : Request) (addr : SocketAddr) (client : Client)
  | sent (r : Request) (client : Client)
  | refused (r : Request) (status : GrpcStatus)
deriving DecidableEq

def dialEvents (r : Request) : Except GrpcStatus Nat → List Event
  | .error status => [.refused r status]
  | .ok channel =>
      match r.peer with
      | none => [.dialed r channel,.sent r (made r channel)]
      | some _ => [.dialed r channel]

def eventsAt (s : State) : Action → List Event
  | .lookup h =>
      match s.handlers h with
      | .looking r => (s.existing r).toList.map (Event.sent r)
      | _ => []
  | .dial h d =>
      match s.handlers h with
      | .dialing r => dialEvents r (getClient s.nextChannel d)
      | _ => []
  | .insert h =>
      match s.handlers h with
      | .inserting r addr client => [.stored r addr client,.sent r client]
      | _ => []
  | _ => []

section Effects

inductive Effect (s : State) : Action → List Event → State → Prop
  | requested (h : Nat) (r : Request) (hs : s.handlers h = .idle) :
      Effect s (.request h r) [] (s.setHandler h (.looking r))
  | hit (h : Nat) (r : Request) (client : Client) (hs : s.handlers h = .looking r)
      (hpool : s.existing r = some client) :
      Effect s (.lookup h) [.sent r client] (s.setHandler h (.calling r client))
  | missed (h : Nat) (r : Request) (hs : s.handlers h = .looking r) (hpool : s.existing r = none) :
      Effect s (.lookup h) [] (s.setHandler h (.dialing r))
  | refused (h : Nat) (r : Request) (d : Dial) (status : GrpcStatus)
      (hs : s.handlers h = .dialing r) (hd : getClient s.nextChannel d = .error status) :
      Effect s (.dial h d) [.refused r status] (s.setHandler h .idle)
  | direct (h : Nat) (r : Request) (hs : s.handlers h = .dialing r) (hpeer : r.peer = none) :
      Effect s (.dial h .connected)
        [.dialed r s.nextChannel,.sent r (made r s.nextChannel)]
        { s.setHandler h (.calling r (made r s.nextChannel)) with nextChannel := s.nextChannel + 1 }
  | opened (h : Nat) (r : Request) (addr : SocketAddr) (hs : s.handlers h = .dialing r)
      (hpeer : r.peer = some addr) :
      Effect s (.dial h .connected) [.dialed r s.nextChannel]
        { s.setHandler h (.inserting r addr (made r s.nextChannel)) with
          nextChannel := s.nextChannel + 1 }
  | inserted (h : Nat) (r : Request) (addr : SocketAddr) (client : Client)
      (hs : s.handlers h = .inserting r addr client) :
      Effect s (.insert h) [.stored r addr client,.sent r client]
        ((s.setHandler h (.calling r client)).insertClient r.method.service addr client)
  | answered (h : Nat) (r : Request) (client : Client) (a : Answer)
      (hs : s.handlers h = .calling r client) : Effect s (.answer h a) [] (s.setHandler h .idle)

variable {localUrl : String} {s t : State} {a : Action}

theorem step_effect (hstep : step localUrl s a = some t) : Effect s a (eventsAt s a) t := by
  cases a with
  | request h r =>
    simp only [step] at hstep
    split at hstep
    · rename_i hs
      cases hstep
      exact .requested h r hs
    · cases hstep
  | lookup h =>
    simp only [step] at hstep
    simp only [eventsAt]
    split at hstep
    · rename_i r hs
      split at hstep
      · rename_i client hpool
        cases hstep
        simpa [hs, hpool] using Effect.hit h r client hs hpool
      · rename_i hpool
        cases hstep
        simpa [hs, hpool] using Effect.missed h r hs hpool
    · cases hstep
  | dial h d =>
    simp only [step] at hstep
    simp only [eventsAt]
    split at hstep
    · rename_i r hs
      cases d with
      | connected =>
        cases hstep
        cases hpeer : r.peer with
        | none => simpa [getClient, dialEvents, connected, hpeer] using Effect.direct h r hs hpeer
        | some addr =>
          simpa [getClient, dialEvents, connected, hpeer] using Effect.opened h r addr hs hpeer
      | _ =>
        cases hstep
        exact .refused h r _ _ hs rfl
    · cases hstep
  | insert h =>
    simp only [step] at hstep
    simp only [eventsAt]
    split at hstep
    · rename_i r addr client hs
      cases hstep
      simpa [hs] using Effect.inserted h r addr client hs
    · cases hstep
  | answer h a =>
    simp only [step] at hstep
    split at hstep
    · rename_i r client hs
      obtain ⟨_,_,rfl⟩ := Option.map_eq_some_iff.mp hstep
      exact .answered h r client a hs
    · cases hstep

end Effects

section Ownership

def Event.dial : Event → Option (Request × Nat)
  | .dialed r channel => some (r,channel)
  | _ => none

def Event.anonymous : Event → Option Nat
  | .sent r client => if r.peer = none then some client.channel else none
  | _ => none

def Event.storedFor (service : Service) (addr : SocketAddr) : Event → Option Client
  | .stored r a client => if r.method.service = service ∧ a = addr then some client else none
  | _ => none

def Dialed (log : List Event) (client : Client) (key : Service × Option SocketAddr) : Prop :=
  client.service = key.1 ∧ ∃ r, r.key = key ∧ Event.dialed r client.channel ∈ log

structure Owned (log : List Event) (s : State) : Prop where
  channels : (log.filterMap Event.dial).map Prod.snd = List.range s.nextChannel
  pooled : ∀ service addr client, (s.pools service).lookup addr = some client →
    Dialed log client (service,some addr)
  inserting : ∀ h r addr client, s.handlers h = .inserting r addr client →
    r.peer = some addr ∧ Dialed log client r.key
  sent : ∀ r client, Event.sent r client ∈ log → Dialed log client r.key
  anonymous : (log.filterMap Event.anonymous).Sublist ((log.filterMap Event.dial).map Prod.snd)
  latest : ∀ service addr,
    (s.pools service).lookup addr = (log.filterMap (Event.storedFor service addr)).getLast?

variable {localUrl : String} {s t : State} {a : Action} {log events : List Event} {client : Client}
  {key : Service × Option SocketAddr} {h : Nat} {p : Handler} {r : Request} {addr : SocketAddr}

theorem dialed_append (hd : Dialed log client key) (events : List Event) :
    Dialed (log ++ events) client key := by
  obtain ⟨hservice,r,hr,hmem⟩ := hd
  exact ⟨hservice,r,hr,List.mem_append_left events hmem⟩

theorem owned_init : Owned [] init where
  channels := rfl
  pooled _ _ _ hp := by simp [init] at hp
  inserting _ _ _ _ hp := by cases hp
  sent _ _ hs := by cases hs
  anonymous := List.Sublist.refl _
  latest _ _ := rfl

theorem existing_pooled (hs : s.existing r = some client) :
    ∃ addr, r.peer = some addr ∧ (s.pools r.method.service).lookup addr = some client := by
  unfold State.existing at hs
  split at hs
  · cases hs
  · rename_i addr hpeer
    exact ⟨addr,hpeer,hs⟩

theorem handlers_setHandler (s : State) (h : Nat) (p : Handler) :
    (s.setHandler h p).handlers = Function.update s.handlers h p :=
  rfl

theorem lookup_insertClient (s : State) (service service' : Service) (addr addr' : SocketAddr)
    (client : Client) : ((s.insertClient service addr client).pools service').lookup addr' =
      if service = service' ∧ addr = addr' then some client
      else (s.pools service').lookup addr' := by
  unfold State.insertClient
  by_cases hservice : service' = service
  · subst hservice
    by_cases haddr : addr' = addr
    · subst haddr
      simp
    · simp [AList.lookup_insert_ne haddr, Ne.symm haddr]
  · simp [hservice, Ne.symm hservice]

theorem inserting_setHandler {h' : Nat} (hp : ∀ r addr client, p ≠ .inserting r addr client)
    (hs : (s.setHandler h p).handlers h' = .inserting r addr client) :
    s.handlers h' = .inserting r addr client := by
  by_cases hh : h' = h
  · subst hh
    rw [handlers_setHandler, Function.update_self] at hs
    exact absurd hs (hp r addr client)
  · rwa [handlers_setHandler, Function.update_of_ne hh] at hs

theorem channels_step (ho : Owned log s) (he : Effect s a events t) :
    ((log ++ events).filterMap Event.dial).map Prod.snd = List.range t.nextChannel := by
  rw [List.filterMap_append, List.map_append, ho.channels]
  cases he with
  | direct | opened => exact List.range_succ.symm
  | _ => exact List.append_nil _

theorem sent_step (ho : Owned log s) (he : Effect s a events t) (r : Request) (client : Client)
    (hr : Event.sent r client ∈ log ++ events) : Dialed (log ++ events) client r.key := by
  rcases List.mem_append.mp hr with hr | hr
  · exact dialed_append (ho.sent r client hr) events
  · cases he with
    | hit h r' client' hs hpool =>
      obtain ⟨rfl,rfl⟩ : r = r' ∧ client = client' := by simpa using hr
      obtain ⟨addr,hpeer,hlookup⟩ := existing_pooled hpool
      have hd := ho.pooled _ _ _ hlookup
      rw [← hpeer] at hd
      exact dialed_append hd _
    | direct h r' hs hpeer =>
      obtain ⟨rfl,rfl⟩ : r = r' ∧ client = made r' s.nextChannel := by simpa using hr
      exact ⟨rfl,r,rfl,by simp [made]⟩
    | inserted h r' addr client' hs =>
      obtain ⟨rfl,rfl⟩ : r = r' ∧ client = client' := by simpa using hr
      exact dialed_append (ho.inserting h r addr client hs).2 _
    | _ => simp at hr

theorem pooled_step (ho : Owned log s) (he : Effect s a events t) (service : Service)
    (addr : SocketAddr) (client : Client) (hp : (t.pools service).lookup addr = some client) :
    Dialed (log ++ events) client (service,some addr) := by
  cases he with
  | inserted h r addr' client' hs =>
    obtain ⟨hpeer,hd⟩ := ho.inserting h r addr' client' hs
    rw [lookup_insertClient] at hp
    split at hp
    · rename_i hkey
      obtain ⟨rfl,rfl⟩ := hkey
      obtain rfl := Option.some.inj hp
      rw [← hpeer]
      exact dialed_append hd _
    · exact dialed_append (ho.pooled _ _ _ hp) _
  | _ => exact dialed_append (ho.pooled _ _ _ hp) _

theorem inserting_step (ho : Owned log s) (he : Effect s a events t) (h' : Nat) (r' : Request)
    (addr : SocketAddr) (client : Client) (hp : t.handlers h' = .inserting r' addr client) :
    r'.peer = some addr ∧ Dialed (log ++ events) client r'.key := by
  have hkept : s.handlers h' = .inserting r' addr client →
      r'.peer = some addr ∧ Dialed (log ++ events) client r'.key := by
    intro hs
    obtain ⟨hpeer,hd⟩ := ho.inserting h' r' addr client hs
    exact ⟨hpeer,dialed_append hd events⟩
  cases he with
  | opened h r addr' hs hpeer =>
    by_cases hh : h' = h
    · subst hh
      rw [handlers_setHandler, Function.update_self] at hp
      cases hp
      exact ⟨hpeer,rfl,r',rfl,by simp [made]⟩
    · rw [handlers_setHandler, Function.update_of_ne hh] at hp
      exact hkept hp
  | _ => exact hkept (inserting_setHandler (by simp) hp)

theorem anonymous_step (ho : Owned log s) (he : Effect s a events t) :
    ((log ++ events).filterMap Event.anonymous).Sublist
      (((log ++ events).filterMap Event.dial).map Prod.snd) := by
  rw [List.filterMap_append, List.filterMap_append, List.map_append]
  refine ho.anonymous.append ?_
  cases he with
  | hit h r client hs hpool =>
    obtain ⟨addr,hpeer,_⟩ := existing_pooled hpool
    simp [List.filterMap_cons, Event.anonymous, Event.dial, hpeer]
  | direct h r hs hpeer => simp [List.filterMap_cons, Event.anonymous, Event.dial, hpeer, made]
  | inserted h r addr client hs =>
    obtain ⟨hpeer,_⟩ := ho.inserting h r addr client hs
    simp [List.filterMap_cons, Event.anonymous, Event.dial, hpeer]
  | _ => simp [List.filterMap_cons, Event.anonymous, Event.dial]

theorem latest_step (ho : Owned log s) (he : Effect s a events t) (service : Service)
    (addr : SocketAddr) : (t.pools service).lookup addr =
      ((log ++ events).filterMap (Event.storedFor service addr)).getLast? := by
  have hs := ho.latest service addr
  rw [List.filterMap_append]
  cases he with
  | inserted h r addr' client hins =>
    rw [lookup_insertClient]
    by_cases hkey : r.method.service = service ∧ addr' = addr
    · simp [List.filterMap_cons, Event.storedFor, hkey]
    · have hnew : [Event.stored r addr' client,.sent r client].filterMap
          (Event.storedFor service addr) = [] := by
        simp [List.filterMap_cons, Event.storedFor, hkey]
      rw [if_neg hkey, hnew, List.append_nil]
      exact hs
  | _ => exact (List.append_nil _).symm ▸ hs

theorem owned_step (ho : Owned log s) (hstep : step localUrl s a = some t) :
    Owned (log ++ eventsAt s a) t :=
  have he := step_effect hstep
  ⟨channels_step ho he,pooled_step ho he,inserting_step ho he,sent_step ho he,anonymous_step ho he,
    latest_step ho he⟩

theorem dialed_unique (ho : Owned log s) {r r' : Request} {channel : Nat}
    (hr : Event.dialed r channel ∈ log) (hr' : Event.dialed r' channel ∈ log) : r = r' := by
  have hnodup : ((log.filterMap Event.dial).map Prod.snd).Nodup := by
    rw [ho.channels]
    exact List.nodup_range
  have hmem : (r,channel) ∈ log.filterMap Event.dial := List.mem_filterMap.mpr ⟨_,hr,rfl⟩
  have hmem' : (r',channel) ∈ log.filterMap Event.dial := List.mem_filterMap.mpr ⟨_,hr',rfl⟩
  exact (Prod.mk.inj (List.inj_on_of_nodup_map hnodup hmem hmem' rfl)).1

theorem upstream_channels_private (localUrl : String) (as : List Action) (s : State)
    (hrun : run (step localUrl) init as = some s) :
    let log := collect (step localUrl) eventsAt init as
    (∀ r client, .sent r client ∈ log → client.service = r.method.service) ∧
    (∀ r client r' client', .sent r client ∈ log → .sent r' client' ∈ log →
      client.channel = client'.channel →
        r.method.service = r'.method.service ∧ r.peer = r'.peer) ∧
    (log.filterMap Event.anonymous).Nodup ∧
    ∀ service addr, (s.pools service).lookup addr =
      (log.filterMap (Event.storedFor service addr)).getLast? := by
  have howned : Owned (collect (step localUrl) eventsAt init as) s :=
    collect_history (fun _ _ _ _ => owned_step) owned_init hrun
  refine ⟨fun r client hr => (howned.sent r client hr).1,?_,?_,howned.latest⟩
  · intro r client r' client' hr hr' hchannel
    obtain ⟨_,d,hkey,hd⟩ := howned.sent r client hr
    obtain ⟨_,d',hkey',hd'⟩ := howned.sent r' client' hr'
    rw [← hchannel] at hd'
    have heq := dialed_unique howned hd hd'
    have hkeys : r.key = r'.key := by rw [← hkey, ← hkey', heq]
    exact Prod.mk.inj hkeys
  · refine howned.anonymous.nodup ?_
    rw [howned.channels]
    exact List.nodup_range

end Ownership

section Reuse

variable {localUrl : String} {s t : State} {a : Action} {service : Service} {addr : SocketAddr}

def Handler.dials (service : Service) (addr : SocketAddr) : Handler → List Request
  | .dialing r => if r.key = (service,some addr) then [r] else []
  | _ => []

def dialsAt (h : Nat) (service : Service) (addr : SocketAddr) (s : State) : Action → List Request
  | .dial i _ => if i = h then (s.handlers h).dials service addr else []
  | _ => []

theorem lookup_kept {events : List Event} (hpool : ((s.pools service).lookup addr).isSome)
    (he : Effect s a events t) : ((t.pools service).lookup addr).isSome := by
  cases he with
  | inserted h r addr' client hs =>
    rw [lookup_insertClient]
    split
    · rfl
    · exact hpool
  | _ => exact hpool

theorem dials_setHandler (s : State) (h i : Nat) (p : Handler) :
    ((s.setHandler i p).handlers h).dials service addr =
      if h = i then p.dials service addr else (s.handlers h).dials service addr := by
  rw [handlers_setHandler, Function.update_apply, apply_ite (Handler.dials service addr)]

theorem dials_of_missed {r : Request} (hpool : ((s.pools service).lookup addr).isSome)
    (hmiss : s.existing r = none) : (Handler.dialing r).dials service addr = [] := by
  refine if_neg fun hkey => ?_
  obtain ⟨hservice,hpeer⟩ := Prod.mk.inj hkey
  rw [State.existing, hpeer] at hmiss
  rw [← hservice] at hpool
  simp [hmiss] at hpool

theorem dials_step {events : List Event} (h : Nat)
    (hpool : ((s.pools service).lookup addr).isSome) (he : Effect s a events t) :
    (dialsAt h service addr s a ++ (t.handlers h).dials service addr).Sublist
      ((s.handlers h).dials service addr) := by
  have hquiet : ∀ i p, p.dials service addr = [] →
      (((s.setHandler i p).handlers h).dials service addr).Sublist
        ((s.handlers h).dials service addr) := by
    intro i p hp
    rw [dials_setHandler]
    split
    · rw [hp]
      exact List.nil_sublist _
    · exact List.Sublist.refl _
  have hdialed : ∀ i p, p.dials service addr = [] →
      ((if i = h then (s.handlers h).dials service addr else []) ++
        ((s.setHandler i p).handlers h).dials service addr).Sublist
          ((s.handlers h).dials service addr) := by
    intro i p hp
    rw [dials_setHandler]
    by_cases hi : i = h
    · simp [hi, hp]
    · simp [hi, Ne.symm hi]
  cases he with
  | missed i r hs hmiss => exact hquiet i _ (dials_of_missed hpool hmiss)
  | refused i | direct i | opened i => exact hdialed i _ rfl
  | requested i | hit i | inserted i | answered i => exact hquiet i _ rfl

theorem pooled_peer_never_redials (localUrl : String) (service : Service) (addr : SocketAddr)
    (s : State) (hpool : ((s.pools service).lookup addr).isSome) (as : List Action) (t : State)
    (hrun : run (step localUrl) s as = some t) :
    ((t.pools service).lookup addr).isSome ∧
    ∀ h, (collect (step localUrl) (dialsAt h service addr) s as ++
      (t.handlers h).dials service addr).Sublist ((s.handlers h).dials service addr) := by
  have hkept : ∀ s a t, ((s.pools service).lookup addr).isSome →
      step localUrl s a = some t → ((t.pools service).lookup addr).isSome :=
    fun _ _ _ hs hstep => lookup_kept hs (step_effect hstep)
  refine ⟨run_invariant hkept hpool hrun,fun h => ?_⟩
  have hstep : ∀ s a t, ((s.pools service).lookup addr).isSome → step localUrl s a = some t →
      (dialsAt h service addr s a ++ (t.handlers h).dials service addr).Sublist
        ((s.handlers h).dials service addr ++ []) := by
    intro s a t hs hstep
    rw [List.append_nil]
    exact dials_step h hs (step_effect hstep)
  have hflow := collect_sublist (fun s => (s.handlers h).dials service addr) hkept hstep hpool hrun
  rwa [collect_nil, List.append_nil] at hflow

end Reuse

section Sample

def peer : SocketAddr := ⟨.v4 10 0 0 1,9000⟩

def localBlockengine : String := "http://10.0.0.2:1005"

def racing : List Action :=
  [.request 0 ⟨.subscribePackets,some peer⟩,.request 1 ⟨.subscribeBundles,some peer⟩,.lookup 0,
    .lookup 1,.dial 0 .connected,.dial 1 .connected,.insert 1,.insert 0,
    .request 2 ⟨.generateAuthChallenge,some peer⟩,.lookup 2,.dial 2 .connected,.insert 2]

theorem racing_requests_private :
    ∃ s, run (step localBlockengine) init racing = some s ∧
      (s.pools .blockEngine).lookup peer = some ⟨.blockEngine,0⟩ ∧
      (s.pools .auth).lookup peer = some ⟨.auth,2⟩ := by
  obtain ⟨s,hs,_⟩ := exists_run_of_map (step localBlockengine) init racing (fun _ => true)
    (by decide)
  obtain ⟨_,_,_,hlatest⟩ := upstream_channels_private localBlockengine racing s hs
  refine ⟨s,hs,?_,?_⟩
  · rw [hlatest]
    decide
  · rw [hlatest]
    decide

def dialRefused : List Action :=
  [.request 0 ⟨.subscribePackets,some peer⟩,.request 1 ⟨.getBlockBuilderFeeInfo,some peer⟩,.lookup 0,
    .lookup 1,.dial 0 .connected,.insert 0]

def later : List Action :=
  [.dial 1 (.connect "timed out"),.request 1 ⟨.getBlockBuilderFeeInfo,some peer⟩,.lookup 1,
    .answer 1 (.message [])]

theorem refused_dial_keeps_pool :
    ∃ s t, run (step localBlockengine) init dialRefused = some s ∧
      run (step localBlockengine) s later = some t ∧
      ((t.pools .blockEngine).lookup peer).isSome ∧
      (collect (step localBlockengine) (dialsAt 1 .blockEngine peer) s later).length ≤ 1 := by
  obtain ⟨s,hs,hstate⟩ := exists_run_of_map (step localBlockengine) init dialRefused
    (fun s => decide (((s.pools .blockEngine).lookup peer).isSome ∧
      ((s.handlers 1).dials .blockEngine peer).length = 1 ∧
      ((run (step localBlockengine) s later).map fun _ => true) = some true)) (by decide)
  obtain ⟨hpool,hdials,hlater⟩ := of_decide_eq_true hstate
  obtain ⟨t,ht,_⟩ := exists_run_of_map (step localBlockengine) s later (fun _ => true) hlater
  obtain ⟨hkept,hsub⟩ :=
    pooled_peer_never_redials localBlockengine .blockEngine peer s hpool later t ht
  have hlength := ((List.sublist_append_left _ _).trans (hsub 1)).length_le
  exact ⟨s,t,hs,ht,hkept,hlength.trans_eq hdials⟩

end Sample

end InertiaRelayer.Clients
