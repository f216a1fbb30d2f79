import InertiaRelayer.Proxy.Datagrams

namespace InertiaRelayer.Hooks
open Machine Frames

abbrev Call := UInt8 × Bytes

structure Hook (T : Type) where
  item : T
  thread : Nat
  index : Nat

structure Port (T : Type) where
  hook : Option (Hook T)
  mirror : Datagrams.State

inductive Action (T : Type) where
  | enter (item : T) (h : Nat)
  | call
  | leave
  | mirror (a : Datagrams.Action)

def calls (h : Nat) : Datagrams.Action → Bool
  | .send i _ _ => decide (i = h)
  | _ => false

section Step

variable {T : Type} (onReceive : T → List Call)

def init : Port T := ⟨none,Datagrams.init⟩

def Hook.next (k : Hook T) : Option Call := (onReceive k.item)[k.index]?

def Hook.returned (k : Hook T) (m : Datagrams.State) : Bool :=
  (k.next onReceive).isNone && decide (m.callers k.thread = .idle)

def Port.sending (p : Port T) : Option Datagrams.Action :=
  p.hook.bind fun k => (k.next onReceive).map fun call => .send k.thread call.1 call.2

def step (p : Port T) : Action T → Option (Port T)
  | .enter item h =>
      match p.hook with
      | some _ => none
      | none =>
          if p.mirror.callers h = .idle then some { p with hook := some ⟨item,h,0⟩ } else none
  | .call =>
      match p.hook with
      | none => none
      | some k =>
          match k.next onReceive with
          | none => none
          | some call =>
              (Datagrams.step p.mirror (.send k.thread call.1 call.2)).map fun m =>
                ⟨some { k with index := k.index + 1 },m⟩
  | .leave =>
      match p.hook with
      | none => none
      | some k => if k.returned onReceive p.mirror then some { p with hook := none } else none
  | .mirror a =>
      if p.hook.any fun k => calls k.thread a then none
      else (Datagrams.step p.mirror a).map fun m => { p with mirror := m }

inductive Effect (p : Port T) : Action T → Port T → Prop
  | entered (item : T) (h : Nat) (hp : p.hook = none) (hidle : p.mirror.callers h = .idle) :
      Effect p (.enter item h) { p with hook := some ⟨item,h,0⟩ }
  | called (k : Hook T) (call : Call) (m : Datagrams.State) (hp : p.hook = some k)
      (hcall : k.next onReceive = some call)
      (hstep : Datagrams.step p.mirror (.send k.thread call.1 call.2) = some m) :
      Effect p .call ⟨some { k with index := k.index + 1 },m⟩
  | left (k : Hook T) (hp : p.hook = some k) (hret : k.returned onReceive p.mirror = true) :
      Effect p .leave { p with hook := none }
  | aside (a : Datagrams.Action) (m : Datagrams.State)
      (hp : ∀ k, p.hook = some k → calls k.thread a = false)
      (hstep : Datagrams.step p.mirror a = some m) : Effect p (.mirror a) { p with mirror := m }

variable {onReceive} {p q : Port T} {a : Action T}

theorem step_effect (hstep : step onReceive p a = some q) : Effect onReceive p a q := by
  cases a with
  | enter item h =>
    simp only [step] at hstep
    split at hstep
    · cases hstep
    · rename_i hp
      split at hstep
      · rename_i hidle
        cases hstep
        exact .entered item h hp hidle
      · cases hstep
  | call =>
    simp only [step] at hstep
    split at hstep
    · cases hstep
    · rename_i k hp
      split at hstep
      · cases hstep
      · rename_i call hcall
        obtain ⟨m,hm,rfl⟩ := Option.map_eq_some_iff.mp hstep
        exact .called k call m hp hcall hm
  | leave =>
    simp only [step] at hstep
    split at hstep
    · cases hstep
    · rename_i k hp
      split at hstep
      · rename_i hret
        cases hstep
        exact .left k hp hret
      · cases hstep
  | mirror a =>
    simp only [step] at hstep
    split at hstep
    · cases hstep
    · rename_i hany
      obtain ⟨m,hm,rfl⟩ := Option.map_eq_some_iff.mp hstep
      refine .aside a m (fun k hp => ?_) hm
      simpa [hp] using hany

theorem mirror_step {b : Datagrams.Action} {m : Datagrams.State}
    (hp : ∀ k, p.hook = some k → calls k.thread b = false)
    (hm : Datagrams.step p.mirror b = some m) :
    step onReceive p (.mirror b) = some { p with mirror := m } := by
  have hany : (p.hook.any fun k => calls k.thread b) = false := by
    cases hk : p.hook with
    | none => rfl
    | some k => exact hp k hk
  simp [step, hany, hm]

end Step

section Flow

variable {T : Type} {onReceive : T → List Call} {p q : Port T} {a : Action T}

variable (onReceive) in
def calledAt (p : Port T) : Action T → List Call
  | .call => (p.hook.bind (Hook.next onReceive)).toList
  | _ => []

def leftAt (p : Port T) : Action T → List T
  | .leave => (p.hook.map Hook.item).toList
  | _ => []

def sentAt (p : Port T) : Action T → List Call
  | .mirror a => p.hook.toList.flatMap fun k => Datagrams.sentAt k.thread p.mirror a
  | _ => []

def Connected (p : Port T) : Action T → Prop
  | .mirror a => ∀ k ∈ p.hook, Datagrams.Connected k.thread p.mirror a
  | _ => True

instance (p : Port T) : ∀ a, Decidable (Connected p a)
  | .mirror a => inferInstanceAs (Decidable (∀ k ∈ p.hook, Datagrams.Connected k.thread p.mirror a))
  | .enter .. | .call | .leave => .isTrue trivial

variable (onReceive) in
def called (p : Port T) : List Call :=
  p.hook.toList.flatMap fun k => (onReceive k.item).take k.index

def underway (p : Port T) : List Call :=
  p.hook.toList.flatMap fun k => (p.mirror.callers k.thread).underway

theorem Hook.returned_iff {k : Hook T} {m : Datagrams.State} :
    k.returned onReceive m = true ↔
      (onReceive k.item).length ≤ k.index ∧ m.callers k.thread = .idle := by
  simp [Hook.returned, Hook.next]

theorem called_balance (hstep : step onReceive p a = some q) :
    called onReceive p ++ calledAt onReceive p a =
      (leftAt p a).flatMap onReceive ++ called onReceive q := by
  cases step_effect hstep with
  | entered item h hp hidle => simp [called, calledAt, leftAt, hp]
  | called k call m hp hcall hm =>
    have htake : (onReceive k.item).take (k.index + 1) =
        (onReceive k.item).take k.index ++ [call] := by
      rw [List.take_add_one, show (onReceive k.item)[k.index]? = some call from hcall]
      rfl
    simp [called, calledAt, leftAt, hp, hcall, htake]
  | left k hp hret =>
    have hall := List.take_of_length_le (Hook.returned_iff.mp hret).1
    simp [called, calledAt, leftAt, hp, hall]
  | aside a m hp hm => simp [called, calledAt, leftAt]

theorem aside_flow {k : Hook T} {m n : Datagrams.State} {b : Datagrams.Action}
    (hm : Datagrams.Buffered m) (hb : calls k.thread b = false)
    (hstep : Datagrams.step m b = some n) :
    (Datagrams.sentAt k.thread m b ++ (n.callers k.thread).underway).Sublist
        (m.callers k.thread).underway ∧
      (Datagrams.Connected k.thread m b →
        Datagrams.sentAt k.thread m b ++ (n.callers k.thread).underway =
          (m.callers k.thread).underway) := by
  have hquiet : Datagrams.calledAt k.thread m b = [] := by
    cases b with
    | send i source data =>
      have hne : i ≠ k.thread := of_decide_eq_false hb
      simp [Datagrams.calledAt, hne]
    | _ => rfl
  have hflow := Datagrams.call_flow k.thread hm hstep
  rwa [hquiet, List.append_nil] at hflow

theorem sent_flow (hm : Datagrams.Buffered p.mirror) (hstep : step onReceive p a = some q) :
    (sentAt p a ++ underway q).Sublist (underway p ++ calledAt onReceive p a) ∧
      (Connected p a → sentAt p a ++ underway q = underway p ++ calledAt onReceive p a) := by
  cases step_effect hstep with
  | entered item h hp hidle =>
    simp [sentAt, underway, calledAt, hp, hidle, Datagrams.Caller.underway]
  | called k call m hp hcall hsend =>
    have hflow := (Datagrams.call_flow k.thread hm hsend).2 trivial
    have heq : (m.callers k.thread).underway = (p.mirror.callers k.thread).underway ++ [call] := by
      simpa [Datagrams.sentAt, Datagrams.calledAt] using hflow
    simp [sentAt, underway, calledAt, hp, hcall, heq]
  | left k hp hret =>
    simp [sentAt, underway, calledAt, hp, (Hook.returned_iff.mp hret).2, Datagrams.Caller.underway]
  | aside b m hp hb =>
    cases hk : p.hook with
    | none => simp [sentAt, underway, calledAt, hk]
    | some k =>
      have hflow := aside_flow hm (hp k hk) hb
      simpa [sentAt, underway, calledAt, Connected, hk] using hflow

structure Paced (onReceive : T → List Call) (p : Port T) : Prop where
  buffered : Datagrams.Buffered p.mirror
  behind : (underway p).length ≤ (called onReceive p).length

theorem paced_init : Paced onReceive (init : Port T) :=
  ⟨Datagrams.framed_init.buffered,Nat.le_refl 0⟩

theorem paced_step (hs : Paced onReceive p) (hstep : step onReceive p a = some q) :
    Paced onReceive q := by
  have hsent := (sent_flow hs.buffered hstep).1.length_le
  have hcalled := congrArg List.length (called_balance hstep)
  have hbehind := hs.behind
  cases step_effect hstep with
  | entered item h hp hidle =>
    refine ⟨hs.buffered,?_⟩
    simp [underway, hidle, Datagrams.Caller.underway]
  | called k call m hp hcall hm =>
    refine ⟨Datagrams.buffered_step hs.buffered hm,?_⟩
    simp only [List.length_append, leftAt, List.flatMap_nil, List.length_nil] at hsent hcalled
    omega
  | left k hp hret => exact ⟨hs.buffered,Nat.zero_le _⟩
  | aside b m hp hb =>
    refine ⟨Datagrams.buffered_step hs.buffered hb,?_⟩
    simp only [List.length_append, leftAt, calledAt, List.flatMap_nil, List.length_nil] at hsent hcalled
    omega

theorem calls_of_run {as : List (Action T)} (hrun : run (step onReceive) init as = some p) :
    collect (step onReceive) (calledAt onReceive) init as =
      (collect (step onReceive) leftAt init as).flatMap onReceive ++ called onReceive p := by
  have hflow := collect_balance (I := fun _ => True) (called onReceive) (fun _ _ _ _ _ => trivial)
    (fun _ _ _ _ hstep => called_balance hstep) trivial hrun
  rwa [collect_flatMap] at hflow

theorem sent_of_run {as : List (Action T)} (hrun : run (step onReceive) init as = some p)
    (hc : Along (step onReceive) Connected init as) :
    (collect (step onReceive) leftAt init as).flatMap onReceive <+:
      collect (step onReceive) sentAt init as := by
  have hpaced := run_invariant (fun _ _ _ => paced_step) paced_init hrun
  have hsent := collect_balance_along underway (fun _ _ _ hs _ hstep => paced_step hs hstep)
    (fun _ _ _ hs hc hstep => (sent_flow hs.buffered hstep).2 hc) paced_init hc hrun
  have hall : collect (step onReceive) sentAt init as ++ underway p =
      (collect (step onReceive) leftAt init as).flatMap onReceive ++ called onReceive p :=
    hsent.trans (calls_of_run hrun)
  refine List.prefix_of_prefix_length_le (List.prefix_append _ _) (hall ▸ List.prefix_append _ _) ?_
  have hlen := congrArg List.length hall
  have hbehind := hpaced.behind
  simp only [List.length_append] at hlen
  omega

end Flow

end InertiaRelayer.Hooks
