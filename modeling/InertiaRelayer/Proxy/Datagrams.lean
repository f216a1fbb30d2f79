import Mathlib.Algebra.Order.BigOperators.Group.List
import InertiaRelayer.Library.Frames
import InertiaRelayer.Proxy.RelayerPath

namespace InertiaRelayer.Datagrams
open Frames Machine
open Proxy (sourceRelayer)

def sourceBlockengine : UInt8 := 1
def sourceControl : UInt8 := 2

def nowNanos (sinceEpoch : Int) : Nat := sinceEpoch.toNat % 2 ^ 64

def putFrame (buf : Bytes) (source : UInt8) (now : Int) (data : Bytes) : Bytes × Bytes :=
  let buf := buf ++ [source]
  let buf := buf ++ leBytes 8 (nowNanos now)
  let buf := buf ++ data
  (buf,[])

def readDatagram (frame : Bytes) : Option (UInt8 × Nat × Bytes) :=
  match frame with
  | [] => none
  | source :: rest =>
      match readExact 8 rest with
      | none => none
      | some (stamp,data) => some (source,leValue stamp,data)

theorem readDatagram_putFrame (source : UInt8) (now : Int) (data : Bytes) :
    readDatagram (putFrame [] source now data).1 = some (source,nowNanos now,data) := by
  have hread : readExact 8 (leBytes 8 (nowNanos now) ++ data) =
      some (leBytes 8 (nowNanos now),data) :=
    readExact_iff.mpr ⟨length_leBytes 8 _,rfl⟩
  have hvalue : leValue (leBytes 8 (nowNanos now)) = nowNanos now := by
    rw [leValue_leBytes, nowNanos]
    exact Nat.mod_mod_of_dvd _ (by decide)
  simp [putFrame, readDatagram, hread, hvalue]

inductive Counter where
  | tpuPacketsSent
  | bePacketsSent
  | controlSent
  | bundlesSent
  | bundlesReceived
  | filtersReceived
  | droppedOversized
  | droppedOther
deriving DecidableEq

abbrev MirrorStats := Counter → UInt64

inductive SendResult where
  | ok
  | tooLarge
  | other
deriving DecidableEq

def countedAs (source : UInt8) : SendResult → Counter
  | .ok =>
      if source = sourceRelayer then .tpuPacketsSent
      else if source = sourceControl then .controlSent
      else .bePacketsSent
  | .tooLarge => .droppedOversized
  | .other => .droppedOther

inductive Caller where
  | idle
  | reading (source : UInt8) (data : Bytes)
  | framing (conn : Nat) (source : UInt8) (data : Bytes)
  | sending (conn : Nat) (source : UInt8) (frame : Bytes)
  | counting (counter : Counter)
deriving DecidableEq

def reportOrder : List Counter :=
  [.tpuPacketsSent,.bePacketsSent,.controlSent,.bundlesSent,.bundlesReceived,.filtersReceived,
    .droppedOversized,.droppedOther]

inductive Reporter where
  | waiting
  | swapping (todo : List Counter) (taken : MirrorStats)

structure State where
  conn : Option Nat
  callers : Nat → Caller
  bufs : Nat → Bytes
  stats : MirrorStats
  reporter : Reporter

def init : State := ⟨none,fun _ => .idle,fun _ => [],fun _ => 0,.waiting⟩

inductive Action where
  | set (conn : Option Nat)
  | send (h : Nat) (source : UInt8) (data : Bytes)
  | readConn (h : Nat)
  | frame (h : Nat) (now : Int)
  | sendDatagram (h : Nat) (result : SendResult)
  | fetchAdd (h : Nat)
  | filterIngested
  | bundlesWritten (n : Nat)
  | bundlesRead (n : Nat)
  | tick
  | swap

namespace State

def setCaller (s : State) (h : Nat) (c : Caller) : State :=
  { s with callers := Function.update s.callers h c }

def fetchAdd (s : State) (c : Counter) (n : Nat) : State :=
  { s with stats := Function.update s.stats c (s.stats c + UInt64.ofNat n) }

end State

def swapStep (s : State) (c : Counter) (todo : List Counter) (taken : MirrorStats) : State :=
  { s with
    stats := Function.update s.stats c 0
    reporter :=
      match todo with
      | [] => .waiting
      | _ => .swapping todo (Function.update taken c (s.stats c)) }

def step (s : State) : Action → Option State
  | .set conn => some { s with conn := conn }
  | .send h source data =>
      match s.callers h with
      | .idle => some (s.setCaller h (.reading source data))
      | _ => none
  | .readConn h =>
      match s.callers h with
      | .reading source data =>
          match s.conn with
          | some conn => some (s.setCaller h (.framing conn source data))
          | none => some (s.setCaller h .idle)
      | _ => none
  | .frame h now =>
      match s.callers h with
      | .framing conn source data =>
          let (frame,buf) := putFrame (s.bufs h) source now data
          some { s.setCaller h (.sending conn source frame) with
            bufs := Function.update s.bufs h buf }
      | _ => none
  | .sendDatagram h result =>
      match s.callers h with
      | .sending _ source _ => some (s.setCaller h (.counting (countedAs source result)))
      | _ => none
  | .fetchAdd h =>
      match s.callers h with
      | .counting counter => some ((s.setCaller h .idle).fetchAdd counter 1)
      | _ => none
  | .filterIngested => some (s.fetchAdd .filtersReceived 1)
  | .bundlesWritten n => some (s.fetchAdd .bundlesSent n)
  | .bundlesRead n => some (s.fetchAdd .bundlesReceived n)
  | .tick =>
      match s.reporter with
      | .waiting => some { s with reporter := .swapping reportOrder (fun _ => 0) }
      | _ => none
  | .swap =>
      match s.reporter with
      | .swapping (c :: todo) taken => some (swapStep s c todo taken)
      | _ => none

section Effects

inductive Effect (s : State) : Action → State → Prop
  | stored (conn : Option Nat) : Effect s (.set conn) { s with conn := conn }
  | called (h : Nat) (source : UInt8) (data : Bytes) (hs : s.callers h = .idle) :
      Effect s (.send h source data) (s.setCaller h (.reading source data))
  | cloned (h conn : Nat) (source : UInt8) (data : Bytes)
      (hs : s.callers h = .reading source data) (hconn : s.conn = some conn) :
      Effect s (.readConn h) (s.setCaller h (.framing conn source data))
  | skipped (h : Nat) (source : UInt8) (data : Bytes) (hs : s.callers h = .reading source data)
      (hconn : s.conn = none) : Effect s (.readConn h) (s.setCaller h .idle)
  | framed (h conn : Nat) (source : UInt8) (data : Bytes) (now : Int)
      (hs : s.callers h = .framing conn source data) :
      Effect s (.frame h now)
        { s.setCaller h (.sending conn source (putFrame (s.bufs h) source now data).1) with
          bufs := Function.update s.bufs h [] }
  | answered (h conn : Nat) (source : UInt8) (frame : Bytes) (result : SendResult)
      (hs : s.callers h = .sending conn source frame) :
      Effect s (.sendDatagram h result) (s.setCaller h (.counting (countedAs source result)))
  | counted (h : Nat) (counter : Counter) (hs : s.callers h = .counting counter) :
      Effect s (.fetchAdd h) ((s.setCaller h .idle).fetchAdd counter 1)
  | ingested : Effect s .filterIngested (s.fetchAdd .filtersReceived 1)
  | written (n : Nat) : Effect s (.bundlesWritten n) (s.fetchAdd .bundlesSent n)
  | read (n : Nat) : Effect s (.bundlesRead n) (s.fetchAdd .bundlesReceived n)
  | ticked (hs : s.reporter = .waiting) :
      Effect s .tick { s with reporter := .swapping reportOrder (fun _ => 0) }
  | swapped (c : Counter) (todo : List Counter) (taken : MirrorStats)
      (hs : s.reporter = .swapping (c :: todo) taken) : Effect s .swap (swapStep s c todo taken)

variable {s t : State} {a : Action}

theorem step_effect (hstep : step s a = some t) : Effect s a t := by
  cases a with
  | set conn =>
    cases hstep
    exact .stored conn
  | send h source data =>
    simp only [step] at hstep
    split at hstep
    · rename_i hs
      cases hstep
      exact .called h source data hs
    · cases hstep
  | readConn h =>
    simp only [step] at hstep
    split at hstep
    · rename_i source data hs
      split at hstep
      · rename_i conn hconn
        cases hstep
        exact .cloned h conn source data hs hconn
      · rename_i hconn
        cases hstep
        exact .skipped h source data hs hconn
    · cases hstep
  | frame h now =>
    simp only [step] at hstep
    split at hstep
    · rename_i conn source data hs
      cases hstep
      exact .framed h conn source data now hs
    · cases hstep
  | sendDatagram h result =>
    simp only [step] at hstep
    split at hstep
    · rename_i conn source frame hs
      cases hstep
      exact .answered h conn source frame result hs
    · cases hstep
  | fetchAdd h =>
    simp only [step] at hstep
    split at hstep
    · rename_i counter hs
      cases hstep
      exact .counted h counter hs
    · cases hstep
  | filterIngested =>
    cases hstep
    exact .ingested
  | bundlesWritten n =>
    cases hstep
    exact .written n
  | bundlesRead n =>
    cases hstep
    exact .read n
  | tick =>
    simp only [step] at hstep
    split at hstep
    · rename_i hs
      cases hstep
      exact .ticked hs
    · cases hstep
  | swap =>
    simp only [step] at hstep
    split at hstep
    · rename_i c todo taken hs
      cases hstep
      exact .swapped c todo taken hs
    · cases hstep

end Effects

section Flow

def actor : Action → Option Nat
  | .send h _ _ | .readConn h | .frame h _ | .sendDatagram h _ | .fetchAdd h => some h
  | _ => none

def contents (frame : Bytes) : List (UInt8 × Bytes) :=
  ((readDatagram frame).map fun d => (d.1,d.2.2)).toList

def Caller.underway : Caller → List (UInt8 × Bytes)
  | .reading source data => [(source,data)]
  | .framing _ source data => [(source,data)]
  | .sending _ _ frame => contents frame
  | _ => []

def Caller.holding : Caller → List Nat
  | .framing conn _ _ => [conn]
  | .sending conn _ _ => [conn]
  | _ => []

def calledAt (h : Nat) (_ : State) : Action → List (UInt8 × Bytes)
  | .send i source data => if i = h then [(source,data)] else []
  | _ => []

def sentAt (h : Nat) (s : State) : Action → List (UInt8 × Bytes)
  | .sendDatagram i .ok => if i = h then (s.callers h).underway else []
  | _ => []

def clonedAt (h : Nat) (s : State) : Action → List Nat
  | .readConn i => if i = h then s.conn.toList else []
  | _ => []

def usedAt (h : Nat) (s : State) : Action → List Nat
  | .sendDatagram i _ => if i = h then (s.callers h).holding else []
  | _ => []

def Connected (h : Nat) (s : State) : Action → Prop
  | .readConn i => i = h → s.conn ≠ none
  | .sendDatagram i result => i = h → result = .ok
  | _ => True

instance (h : Nat) (s : State) : ∀ a, Decidable (Connected h s a)
  | .readConn i => inferInstanceAs (Decidable (i = h → s.conn ≠ none))
  | .sendDatagram i result => inferInstanceAs (Decidable (i = h → result = .ok))
  | .set _ | .send .. | .frame .. | .fetchAdd _ | .filterIngested | .bundlesWritten _ | .bundlesRead _
  | .tick | .swap => .isTrue trivial

def Buffered (s : State) : Prop := ∀ h, s.bufs h = []

variable {s t : State} {a : Action}

theorem buffered_step (hs : Buffered s) (hstep : step s a = some t) : Buffered t := by
  cases step_effect hstep with
  | framed h conn source data now hcaller =>
    intro i
    by_cases hi : i = h
    · subst hi
      simp
    · simpa [State.setCaller, hi] using hs i
  | _ => exact hs

theorem contents_putFrame (source : UInt8) (now : Int) (data : Bytes) :
    contents (putFrame [] source now data).1 = [(source,data)] := by
  rw [contents, readDatagram_putFrame]
  rfl

theorem callers_kept {h : Nat} (ha : actor a ≠ some h) (hstep : step s a = some t) :
    t.callers h = s.callers h := by
  have hne : ∀ i, actor a = some i → h ≠ i := by
    rintro i hi rfl
    exact ha hi
  cases step_effect hstep with
  | called | cloned | skipped | framed | answered | counted =>
    simp [State.setCaller, State.fetchAdd, Function.update_of_ne (hne _ rfl)]
  | _ => rfl

theorem kept_flow {h : Nat} (ha : actor a ≠ some h) :
    calledAt h s a = [] ∧ sentAt h s a = [] ∧ clonedAt h s a = [] ∧ usedAt h s a = [] := by
  cases a with
  | send i | readConn i | frame i =>
    have hne : i ≠ h := fun heq => ha (congrArg some heq)
    simp [calledAt, sentAt, clonedAt, usedAt, hne]
  | sendDatagram i result =>
    have hne : i ≠ h := fun heq => ha (congrArg some heq)
    cases result with
    | _ => simp [calledAt, sentAt, clonedAt, usedAt, hne]
  | _ => exact ⟨rfl,rfl,rfl,rfl⟩

theorem call_flow (h : Nat) (hs : Buffered s) (hstep : step s a = some t) :
    (sentAt h s a ++ (t.callers h).underway).Sublist ((s.callers h).underway ++ calledAt h s a) ∧
      (Connected h s a →
        sentAt h s a ++ (t.callers h).underway = (s.callers h).underway ++ calledAt h s a) := by
  by_cases ha : actor a = some h
  · cases step_effect hstep with
    | called i source data hcaller =>
      cases ha
      simp [sentAt, calledAt, State.setCaller, hcaller, Caller.underway]
    | cloned i conn source data hcaller hconn =>
      cases ha
      simp [sentAt, calledAt, State.setCaller, hcaller, Caller.underway]
    | skipped i source data hcaller hconn =>
      cases ha
      simp [sentAt, calledAt, State.setCaller, hcaller, Caller.underway, Connected, hconn]
    | framed i conn source data now hcaller =>
      cases ha
      simp [sentAt, calledAt, State.setCaller, hcaller, Caller.underway, hs h, contents_putFrame]
    | answered i conn source frame result hcaller =>
      cases ha
      cases result with
      | ok => simp [sentAt, calledAt, State.setCaller, hcaller, Caller.underway]
      | _ => simp [sentAt, calledAt, State.setCaller, hcaller, Caller.underway, Connected]
    | counted i counter hcaller =>
      cases ha
      simp [sentAt, calledAt, State.setCaller, State.fetchAdd, hcaller, Caller.underway]
    | _ => cases ha
  · obtain ⟨hcalled,hsent,_,_⟩ := kept_flow (s := s) ha
    rw [callers_kept ha hstep, hcalled, hsent, List.append_nil]
    exact ⟨List.Sublist.refl _,fun _ => rfl⟩

theorem conn_flow (h : Nat) (hstep : step s a = some t) :
    usedAt h s a ++ (t.callers h).holding = (s.callers h).holding ++ clonedAt h s a := by
  by_cases ha : actor a = some h
  · cases step_effect hstep with
    | cloned i conn source data hcaller hconn =>
      cases ha
      simp [usedAt, clonedAt, State.setCaller, hcaller, Caller.holding, hconn]
    | skipped i source data hcaller hconn =>
      cases ha
      simp [usedAt, clonedAt, State.setCaller, hcaller, Caller.holding, hconn]
    | called i source data hcaller =>
      cases ha
      simp [usedAt, clonedAt, State.setCaller, hcaller, Caller.holding]
    | framed i conn source data now hcaller =>
      cases ha
      simp [usedAt, clonedAt, State.setCaller, hcaller, Caller.holding]
    | answered i conn source frame result hcaller =>
      cases ha
      simp [usedAt, clonedAt, State.setCaller, hcaller, Caller.holding]
    | counted i counter hcaller =>
      cases ha
      simp [usedAt, clonedAt, State.setCaller, State.fetchAdd, hcaller, Caller.holding]
    | _ => cases ha
  · obtain ⟨_,_,hcloned,hused⟩ := kept_flow (s := s) ha
    rw [callers_kept ha hstep, hcloned, hused, List.append_nil, List.nil_append]

structure Framed (s : State) : Prop where
  buffered : Buffered s
  readable : ∀ h conn source frame, s.callers h = .sending conn source frame →
    ∃ stamp data, readDatagram frame = some (source,stamp,data) ∧ stamp < 2 ^ 64

theorem framed_step (hs : Framed s) (hstep : step s a = some t) : Framed t := by
  refine ⟨buffered_step hs.buffered hstep,fun h conn source frame hcaller => ?_⟩
  by_cases ha : actor a = some h
  · cases step_effect hstep with
    | framed i conn source data now hold =>
      cases ha
      simp only [State.setCaller, Function.update_self, Caller.sending.injEq] at hcaller
      obtain ⟨rfl,rfl,rfl⟩ := hcaller
      rw [hs.buffered h, readDatagram_putFrame]
      exact ⟨nowNanos now,data,rfl,Nat.mod_lt _ (by decide)⟩
    | called | cloned | skipped | answered | counted =>
      cases ha
      simp [State.setCaller, State.fetchAdd] at hcaller
    | _ => cases ha
  · rw [callers_kept ha hstep] at hcaller
    exact hs.readable h conn source frame hcaller

theorem framed_init : Framed init := ⟨fun _ => rfl,fun _ _ _ _ hcaller => by cases hcaller⟩

theorem mirrored_datagrams_in_order (as : List Action) (s : State)
    (hrun : run step init as = some s) (h : Nat) :
    (collect step (sentAt h) init as ++ (s.callers h).underway).Sublist
      (collect step (calledAt h) init as) ∧
    (Along step (Connected h) init as →
      collect step (sentAt h) init as ++ (s.callers h).underway =
        collect step (calledAt h) init as) ∧
    ∀ conn source frame, s.callers h = .sending conn source frame →
      ∃ stamp data, readDatagram frame = some (source,stamp,data) ∧ stamp < 2 ^ 64 := by
  have hbuffered : Buffered init := framed_init.buffered
  refine ⟨?_,fun hc => ?_,?_⟩
  · exact collect_sublist (fun s => (s.callers h).underway) (fun _ _ _ => buffered_step)
      (fun _ _ _ hs hstep => (call_flow h hs hstep).1) hbuffered hrun
  · exact collect_balance_along (fun s => (s.callers h).underway)
      (fun _ _ _ hs _ hstep => buffered_step hs hstep)
      (fun _ _ _ hs hc hstep => (call_flow h hs hstep).2 hc) hbuffered hc hrun
  · exact (run_invariant (fun _ _ _ => framed_step) framed_init hrun).readable h

def Action.connects : Action → Bool
  | .set (some _) => true
  | _ => false

def Clearing (_ : State) (a : Action) : Prop := a.connects = false

instance : DecidableRel Clearing := fun _ a => inferInstanceAs (Decidable (a.connects = false))

theorem cleared_flow (h : Nat) (hconn : s.conn = none) (ha : Clearing s a)
    (hstep : step s a = some t) :
    t.conn = none ∧ usedAt h s a ++ (t.callers h).holding = (s.callers h).holding := by
  have hcloned : clonedAt h s a = [] := by
    cases a with
    | readConn i => simp [clonedAt, hconn]
    | _ => rfl
  have hflow := conn_flow h hstep
  rw [hcloned, List.append_nil] at hflow
  refine ⟨?_,hflow⟩
  cases step_effect hstep with
  | stored conn =>
    cases conn with
    | none => rfl
    | some conn => exact absurd ha Bool.noConfusion
  | _ => exact hconn

theorem connection_use (as : List Action) (s : State) (hrun : run step init as = some s) (h : Nat) :
    collect step (usedAt h) init as ++ (s.callers h).holding = collect step (clonedAt h) init as ∧
    ∀ bs t, s.conn = none → run step s bs = some t → Along step Clearing s bs →
      (collect step (usedAt h) s bs).Sublist (s.callers h).holding ∧
        (s.callers h).holding.length ≤ 1 := by
  refine ⟨?_,fun bs t hconn hbs hclear => ⟨?_,?_⟩⟩
  · exact collect_balance_along (I := fun _ => True) (fun s => (s.callers h).holding)
      (fun _ _ _ _ _ _ => trivial) (fun _ _ _ _ _ hstep => conn_flow h hstep) trivial
      (along_true step init as) hrun
  · have hstep : ∀ s a t, s.conn = none → Clearing s a → step s a = some t →
        usedAt h s a ++ (t.callers h).holding = (s.callers h).holding ++ [] := by
      intro s a t hs ha hstep
      rw [(cleared_flow h hs ha hstep).2, List.append_nil]
    have hflow := collect_balance_along (fun s => (s.callers h).holding)
      (fun _ _ _ hs ha hstep => (cleared_flow h hs ha hstep).1) hstep hconn hclear hbs
    rw [collect_nil, List.append_nil] at hflow
    rw [← hflow]
    exact List.sublist_append_left _ _
  · cases s.callers h with
    | framing | sending => exact Nat.le_refl 1
    | _ => exact Nat.zero_le 1

end Flow

section Stats

def addedAt (c : Counter) (s : State) : Action → List Nat
  | .fetchAdd h => if s.callers h = .counting c then [1] else []
  | .filterIngested => if c = .filtersReceived then [1] else []
  | .bundlesWritten n => if c = .bundlesSent then [n] else []
  | .bundlesRead n => if c = .bundlesReceived then [n] else []
  | _ => []

def answeredAt (h : Nat) (s : State) : Action → List Counter
  | .sendDatagram i result =>
      match s.callers i with
      | .sending _ source _ => if i = h then [countedAs source result] else []
      | _ => []
  | _ => []

def countedAt (h : Nat) (s : State) : Action → List Counter
  | .fetchAdd i =>
      match s.callers i with
      | .counting counter => if i = h then [counter] else []
      | _ => []
  | _ => []

def Caller.uncounted : Caller → List Counter
  | .counting counter => [counter]
  | _ => []

def reportAt (s : State) : Action → List MirrorStats
  | .swap =>
      match s.reporter with
      | .swapping [c] taken => [Function.update taken c (s.stats c)]
      | _ => []
  | _ => []

def Reporter.taken : Reporter → MirrorStats
  | .swapping _ taken => taken
  | .waiting => fun _ => 0

structure InfoLine where
  tpuPackets : UInt64
  bePackets : UInt64
  bundlesSent : UInt64
  controlSent : UInt64
  bundlesReceived : UInt64
  filtersReceived : UInt64

def infoLine (taken : MirrorStats) : Option InfoLine :=
  if taken .tpuPacketsSent > 0 ∨ taken .bePacketsSent > 0 ∨ taken .bundlesSent > 0 ∨
      taken .bundlesReceived > 0 ∨ taken .filtersReceived > 0 then
    some ⟨taken .tpuPacketsSent,taken .bePacketsSent,taken .bundlesSent,taken .controlSent,
      taken .bundlesReceived,taken .filtersReceived⟩
  else none

structure WarnLine where
  oversized : UInt64
  other : UInt64

def warnLine (taken : MirrorStats) : Option WarnLine :=
  if taken .droppedOversized > 0 ∨ taken .droppedOther > 0 then
    some ⟨taken .droppedOversized,taken .droppedOther⟩
  else none

def InfoLine.amount (line : InfoLine) : Counter → UInt64
  | .tpuPacketsSent => line.tpuPackets
  | .bePacketsSent => line.bePackets
  | .controlSent => line.controlSent
  | .bundlesSent => line.bundlesSent
  | .bundlesReceived => line.bundlesReceived
  | .filtersReceived => line.filtersReceived
  | .droppedOversized | .droppedOther => 0

def WarnLine.amount (line : WarnLine) : Counter → UInt64
  | .droppedOversized => line.oversized
  | .droppedOther => line.other
  | _ => 0

def logged (c : Counter) (taken : MirrorStats) : Nat :=
  ((infoLine taken).map fun line => (line.amount c).toNat).getD 0 +
    ((warnLine taken).map fun line => (line.amount c).toNat).getD 0

variable {s t : State} {a : Action}

structure Fresh (todo : List Counter) (taken : MirrorStats) : Prop where
  nodup : todo.Nodup
  zero : ∀ c ∈ todo, taken c = 0

def Reporting (s : State) : Prop := ∀ todo taken, s.reporter = .swapping todo taken → Fresh todo taken

theorem fresh_tail {c : Counter} {todo : List Counter} {taken : MirrorStats} (n : UInt64)
    (hf : Fresh (c :: todo) taken) : Fresh todo (Function.update taken c n) := by
  obtain ⟨hnot,hnodup⟩ := List.nodup_cons.mp hf.nodup
  refine ⟨hnodup,fun d hd => ?_⟩
  have hne : d ≠ c := by
    rintro rfl
    exact hnot hd
  rw [Function.update_of_ne hne]
  exact hf.zero d (List.mem_cons_of_mem c hd)

theorem swapStep_reporter {s : State} {c : Counter} {todo : List Counter} {taken : MirrorStats} :
    (swapStep s c todo taken).reporter = .waiting ∧ todo = [] ∨
      (swapStep s c todo taken).reporter = .swapping todo (Function.update taken c (s.stats c)) ∧
        todo ≠ [] := by
  cases todo with
  | nil => exact .inl ⟨rfl,rfl⟩
  | cons d todo => exact .inr ⟨rfl,nofun⟩

theorem reporting_step (hs : Reporting s) (hstep : step s a = some t) : Reporting t := by
  cases step_effect hstep with
  | ticked hwaiting =>
    intro todo taken hr
    cases hr
    exact ⟨by decide,fun _ _ => rfl⟩
  | swapped c todo taken hr =>
    intro todo' taken' hr'
    rcases swapStep_reporter (s := s) (c := c) with ⟨hw,_⟩ | ⟨hsw,_⟩
    · rw [hw] at hr'
      cases hr'
    · rw [hsw] at hr'
      cases hr'
      exact fresh_tail _ (hs _ _ hr)
  | _ => exact hs

def held (c : Counter) (s : State) : Nat := (s.stats c).toNat + (s.reporter.taken c).toNat

def amounts (c : Counter) (reports : List MirrorStats) : Nat :=
  (reports.map fun taken => (taken c).toNat).sum

theorem swap_exchange {taken : MirrorStats} {c d : Counter} {todo : List Counter}
    (hf : Fresh (d :: todo) taken) :
    (s.stats c).toNat + (taken c).toNat =
      (Function.update taken d (s.stats d) c).toNat + (Function.update s.stats d 0 c).toNat := by
  by_cases h : c = d
  · subst h
    simp [hf.zero c List.mem_cons_self]
  · simp [h, Nat.add_comm]

inductive Tallied (c : Counter) (s t : State) : List Nat → List MirrorStats → Prop
  | moved (reports : List MirrorStats) (h : held c s = amounts c reports + held c t) :
      Tallied c s t [] reports
  | added (n : Nat) (hstats : t.stats c = s.stats c + UInt64.ofNat n)
      (hreporter : t.reporter = s.reporter) : Tallied c s t [n] []

theorem tallied_fetchAdd {c d : Counter} {n : Nat} (hreporter : t.reporter = s.reporter)
    (hstats : t.stats = Function.update s.stats d (s.stats d + UInt64.ofNat n)) :
    Tallied c s t (if c = d then [n] else []) [] := by
  by_cases h : c = d
  · subst h
    rw [if_pos rfl]
    exact .added n (by rw [hstats, Function.update_self]) hreporter
  · rw [if_neg h]
    refine .moved [] ?_
    rw [held, held, hreporter, hstats, Function.update_of_ne h]
    exact (Nat.zero_add _).symm

theorem tallied_swap (c : Counter) {d : Counter} {todo : List Counter} {taken : MirrorStats}
    (hs : Reporting s) (hr : s.reporter = .swapping (d :: todo) taken) :
    Tallied c s (swapStep s d todo taken) [] (reportAt s .swap) := by
  have hexchange := swap_exchange (s := s) (c := c) (hs _ _ hr)
  refine .moved _ ?_
  cases todo with
  | nil => simpa [held, amounts, reportAt, hr, swapStep, Reporter.taken] using hexchange
  | cons e todo =>
    simp only [held, amounts, reportAt, hr, swapStep, Reporter.taken, List.map_nil, List.sum_nil]
    omega

theorem tallied_step (c : Counter) (hs : Reporting s) (hstep : step s a = some t) :
    Tallied c s t (addedAt c s a) (reportAt s a) := by
  cases step_effect hstep with
  | counted h counter hcaller =>
    have hadded : addedAt c s (.fetchAdd h) = if c = counter then [1] else [] := by
      simp [addedAt, hcaller, eq_comm]
    rw [hadded]
    exact tallied_fetchAdd rfl rfl
  | ingested | written n | read n => exact tallied_fetchAdd rfl rfl
  | ticked hwaiting => exact .moved [] (by simp [held, amounts, hwaiting, Reporter.taken])
  | swapped d todo taken hr => exact tallied_swap c hs hr
  | called | cloned | skipped | framed | answered | stored =>
    exact .moved [] (Nat.zero_add _).symm

variable {c : Counter} {added : List Nat} {reports : List MirrorStats}

theorem tallied_mod (h : Tallied c s t added reports) :
    Nat.ModEq (2 ^ 64) (held c s + (added.map id).sum) (amounts c reports + held c t) := by
  cases h with
  | moved reports h => rw [h]; rfl
  | added n hstats hreporter =>
    simp only [held, amounts, hstats, hreporter, UInt64.toNat_add, UInt64.toNat_ofNat', List.map_cons,
      List.map_nil, List.sum_cons, List.sum_nil, id_eq, Nat.ModEq]
    omega

theorem tallied_exact (h : Tallied c s t added reports)
    (hlt : held c s + (added.map id).sum < 2 ^ 64) :
    held c s + (added.map id).sum = amounts c reports + held c t := by
  cases h with
  | moved reports h => exact h
  | added n hstats hreporter =>
    simp only [held, amounts, List.map_cons, List.map_nil, List.sum_cons, List.sum_nil, id_eq] at hlt ⊢
    rw [hstats, hreporter, UInt64.toNat_add, UInt64.toNat_ofNat']
    omega

theorem logged_eq {c : Counter} (hc : c ≠ .controlSent) (taken : MirrorStats) :
    logged c taken = (taken c).toNat := by
  unfold logged infoLine warnLine
  cases c with
  | controlSent => exact absurd rfl hc
  | _ =>
    split <;> split <;> simp_all [InfoLine.amount, WarnLine.amount]

theorem logged_control (taken : MirrorStats) :
    logged .controlSent taken ≤ (taken .controlSent).toNat := by
  unfold logged infoLine warnLine
  split <;> split <;> simp [InfoLine.amount, WarnLine.amount]

theorem counted_flow (h : Nat) (hstep : step s a = some t) :
    countedAt h s a ++ (t.callers h).uncounted = (s.callers h).uncounted ++ answeredAt h s a := by
  by_cases ha : actor a = some h
  · cases step_effect hstep with
    | counted i counter hcaller =>
      cases ha
      simp [countedAt, answeredAt, State.setCaller, State.fetchAdd, hcaller, Caller.uncounted]
    | answered i conn source frame result hcaller | called i source data hcaller
    | cloned i conn source data hcaller hconn | skipped i source data hcaller hconn
    | framed i conn source data now hcaller =>
      cases ha
      simp [countedAt, answeredAt, State.setCaller, hcaller, Caller.uncounted]
    | _ => cases ha
  · rw [callers_kept ha hstep]
    cases step_effect hstep with
    | answered i conn source frame result hcaller | counted i counter hcaller =>
      have hne : i ≠ h := fun heq => ha (congrArg some heq)
      simp [countedAt, answeredAt, hcaller, hne]
    | _ => simp [countedAt, answeredAt]

theorem mirror_stats_accounted (as : List Action) (s : State) (hrun : run step init as = some s) :
    let reports := collect step reportAt init as
    (∀ c, Nat.ModEq (2 ^ 64) (collect step (addedAt c) init as).sum
      ((reports.map fun taken => (taken c).toNat).sum +
        ((s.stats c).toNat + (s.reporter.taken c).toNat))) ∧
    (∀ c, (collect step (addedAt c) init as).sum < 2 ^ 64 →
      (collect step (addedAt c) init as).sum = (reports.map fun taken => (taken c).toNat).sum +
        ((s.stats c).toNat + (s.reporter.taken c).toNat)) ∧
    (∀ c, c ≠ .controlSent →
      (reports.map (logged c)).sum = (reports.map fun taken => (taken c).toNat).sum) ∧
    (reports.map (logged .controlSent)).sum ≤
      (reports.map fun taken => (taken .controlSent).toNat).sum ∧
    ∀ h, collect step (countedAt h) init as ++ (s.callers h).uncounted =
      collect step (answeredAt h) init as := by
  have hinit : Reporting init := fun _ _ hr => by cases hr
  have hstart : ∀ c, held c init + ((collect step (addedAt c) init as).map id).sum =
      (collect step (addedAt c) init as).sum := by
    intro c
    simp [held, init, Reporter.taken]
  refine ⟨fun c => ?_,fun c hlt => ?_,fun c hc => ?_,?_,fun h => ?_⟩
  · rw [← hstart c]
    exact collect_tally_mod (2 ^ 64) id (fun taken : MirrorStats => (taken c).toNat) (held c)
      (fun _ _ _ => reporting_step) (fun _ _ _ hs h => tallied_mod (tallied_step c hs h)) hinit hrun
  · rw [← hstart c] at hlt ⊢
    exact collect_tally_lt (2 ^ 64) id (fun taken : MirrorStats => (taken c).toNat) (held c)
      (fun _ _ _ => reporting_step) (fun _ _ _ hs h => tallied_exact (tallied_step c hs h)) hinit
      hrun hlt
  · rw [List.map_congr_left (fun taken _ => logged_eq hc taken)]
  · exact List.sum_le_sum fun taken _ => logged_control taken
  · exact collect_balance_along (I := fun _ => True) (fun s => (s.callers h).uncounted)
      (fun _ _ _ _ _ _ => trivial) (fun _ _ _ _ _ hstep => counted_flow h hstep) trivial
      (along_true step init as) hrun

end Stats

section Sample

def controlSend : List Action :=
  [.set (some 0),.send 2 sourceControl [7,7],.readConn 2,.frame 2 5,.sendDatagram 2 .ok,.fetchAdd 2]

def controlReport : List Action := controlSend ++ .tick :: List.replicate 8 .swap

theorem control_report_not_logged :
    ∃ s, run step init controlReport = some s ∧ s.stats .controlSent = 0 ∧
      (collect step (addedAt .controlSent) init controlReport).sum = 1 ∧
      ((collect step reportAt init controlReport).map
        fun taken => (taken .controlSent).toNat).sum = 1 ∧
      ((collect step reportAt init controlReport).map (logged .controlSent)).sum = 0 := by
  obtain ⟨s,hs,hzero⟩ := exists_run_of_map step init controlReport
    (fun s => decide (s.stats .controlSent = 0 ∧ s.reporter.taken .controlSent = 0)) (by decide)
  obtain ⟨hstats,htaken⟩ := of_decide_eq_true hzero
  obtain ⟨_,hadded,_⟩ := mirror_stats_accounted controlReport s hs
  have hone : (collect step (addedAt .controlSent) init controlReport).sum = 1 := by decide
  refine ⟨s,hs,hstats,hone,?_,by decide⟩
  have hsum := hadded .controlSent (by rw [hone]; decide)
  rw [hone, hstats, htaken] at hsum
  exact hsum.symm

def twoDatagrams : List Action :=
  [.set (some 0),.send 2 sourceRelayer [7,7],.readConn 2,.frame 2 5,.send 1 sourceBlockengine [9],
    .sendDatagram 2 .ok,.fetchAdd 2,.send 2 sourceControl [8],.readConn 2,.readConn 1,.frame 2 6,
    .sendDatagram 2 .ok,.fetchAdd 2,.send 2 sourceRelayer [6],.readConn 2,.frame 2 7]

theorem control_datagram_readable :
    ∃ s, run step init twoDatagrams = some s ∧
      collect step (sentAt 2) init twoDatagrams = [(sourceRelayer,[7,7]),(sourceControl,[8])] ∧
      (s.callers 2).underway = [(sourceRelayer,[6])] ∧
      collect step (sentAt 2) init twoDatagrams ++ (s.callers 2).underway =
        collect step (calledAt 2) init twoDatagrams := by
  obtain ⟨s,hs,hunderway⟩ := exists_run_of_map step init twoDatagrams
    (fun s => decide ((s.callers 2).underway = [(sourceRelayer,[6])])) (by decide)
  exact ⟨s,hs,by decide,of_decide_eq_true hunderway,
    (mirrored_datagrams_in_order twoDatagrams s hs 2).2.1 (by decide)⟩

def staleSend : List Action := [.set (some 0),.send 1 sourceBlockengine [9],.readConn 1,.set none]

def afterClear : List Action :=
  [.frame 1 5,.sendDatagram 1 .other,.fetchAdd 1,.send 1 sourceBlockengine [9],.readConn 1]

theorem stale_send_uses_cloned_connection :
    ∃ s t, run step init staleSend = some s ∧ run step s afterClear = some t ∧ s.conn = none ∧
      (collect step (usedAt 1) s afterClear).Sublist [0] := by
  obtain ⟨s,hs,hstate⟩ := exists_run_of_map step init staleSend
    (fun s => decide (s.conn = none ∧ (s.callers 1).holding = [0] ∧
      Along step Clearing s afterClear ∧
      ((run step s afterClear).map fun _ => true) = some true)) (by decide)
  obtain ⟨hconn,hholding,hclear,hmore⟩ := of_decide_eq_true hstate
  obtain ⟨t,ht,_⟩ := exists_run_of_map step s afterClear (fun _ => true) hmore
  obtain ⟨_,hcleared⟩ := connection_use staleSend s hs 1
  exact ⟨s,t,hs,ht,hconn,hholding ▸ (hcleared afterClear t hconn ht hclear).1⟩

end Sample

end InertiaRelayer.Datagrams
