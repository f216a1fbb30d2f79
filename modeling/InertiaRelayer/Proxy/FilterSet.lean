import InertiaRelayer.Proxy.Filter
import InertiaRelayer.Library.Machine
import InertiaRelayer.Library.Mutex

namespace InertiaRelayer.Proxy
open Mutex

def ttl : Nat := 2000000000

structure Shared where
  map : Blocked
  len : Nat
  now : Nat
  latest : Signature → Option Nat
  inserted : Signature → Option Nat
  lastSweep : Option Nat

structure Answer (π : Type) where
  input : Item π
  output : Item π
  before : Signature → Option Nat
  blocked : Blocked
  inserted : Signature → Option Nat
  lastSweep : Option Nat

structure Release (π : Type) where
  answer : Answer π
  finish : Nat

inductive Task (π : Type) where
  | idle
  | insertLocking (sig : Signature)
  | insertStamping (sig : Signature)
  | insertPutting (sig : Signature) (stamp : Nat)
  | insertStoring (sig : Signature) (stamp : Nat)
  | insertUnlocking (sig : Signature) (stamp : Nat)
  | sweepLoading
  | sweepLocking
  | sweepStarting
  | sweepRetaining (start : Nat) (todo : List Signature)
  | sweepStoring (start : Nat)
  | sweepUnlocking (start : Nat)
  | filterLoading (item : Item π) (before : Signature → Option Nat)
  | filterLocking (item : Item π) (before : Signature → Option Nat)
  | filterHolding (item : Item π) (before : Signature → Option Nat)
  | filterUnlocking (answer : Answer π)
  | filterReturning (answer : Answer π)

def Task.critical {π : Type} : Task π → Bool
  | .insertStamping _ => true
  | .insertPutting _ _ => true
  | .insertStoring _ _ => true
  | .insertUnlocking _ _ => true
  | .sweepStarting => true
  | .sweepRetaining _ _ => true
  | .sweepStoring _ => true
  | .sweepUnlocking _ => true
  | .filterHolding _ _ => true
  | .filterUnlocking _ => true
  | _ => false

inductive Call (π : Type) where
  | ingestFilter (bytes : List UInt8)
  | sweep
  | release (item : Item π)

inductive Move (π : Type) where
  | call (call : Call π)
  | retain (order : List Signature)
  | advance

inductive Action (π : Type) where
  | tick (elapsed : Nat)
  | move (h : Nat) (m : Move π)

abbrev State (π : Type) := Mutex.State Shared (Task π) (Release π)

def init {π : Type} : State π :=
  ⟨⟨∅,0,0,fun _ => none,fun _ => none,none⟩,none,fun _ => .idle,[]⟩

section Step

variable {π : Type}

def Shared.tick (sh : Shared) (elapsed : Nat) : Shared := { sh with now := sh.now + elapsed }

def Shared.put (sh : Shared) (sig : Signature) (stamp : Nat) : Shared :=
  { sh with
    map := sh.map.insert sig stamp
    inserted := Function.update sh.inserted sig (some stamp) }

def Shared.storeLen (sh : Shared) : Shared := { sh with len := sh.map.size }

def Shared.complete (sh : Shared) (sig : Signature) (stamp : Nat) : Shared :=
  { sh with latest := Function.update sh.latest sig (some stamp) }

def Shared.retainOne (sh : Shared) (sig : Signature) : Shared :=
  match sh.map.lookup sig with
  | none => sh
  | some stamp => if sh.now - stamp < ttl then sh else { sh with map := sh.map.erase sig }

def Shared.isEmpty (sh : Shared) : Bool := sh.len == 0

def Call.start (sh : Shared) : Call π → Task π
  | .ingestFilter bytes =>
      match Proxy.ingestFilter bytes with
      | none => .idle
      | some sig => .insertLocking sig
  | .sweep => .sweepLoading
  | .release item => .filterLoading item sh.latest

theorem critical_start (sh : Shared) (call : Call π) : (call.start sh).critical = false := by
  cases call with
  | ingestFilter bytes =>
    simp only [Call.start]
    split <;> rfl
  | sweep => rfl
  | release => rfl

def Shared.unfiltered (sh : Shared) (item : Item π) (before : Signature → Option Nat) :
    Answer π :=
  ⟨item,item,before,∅,sh.inserted,sh.lastSweep⟩

variable [PacketRef π]

def Shared.filtered (sh : Shared) (item : Item π) (before : Signature → Option Nat) :
    Answer π :=
  ⟨item,item.filter sh.map,before,sh.map,sh.inserted,sh.lastSweep⟩

def advance (sh : Shared) : Task π → Option (Outcome Shared (Task π) (Release π))
  | .idle => none
  | .insertLocking sig => some ⟨sh,.insertStamping sig,.acquire,none⟩
  | .insertStamping sig => some ⟨sh,.insertPutting sig sh.now,.keep,none⟩
  | .insertPutting sig stamp => some ⟨sh.put sig stamp,.insertStoring sig stamp,.keep,none⟩
  | .insertStoring sig stamp => some ⟨sh.storeLen,.insertUnlocking sig stamp,.keep,none⟩
  | .insertUnlocking sig stamp => some ⟨sh.complete sig stamp,.idle,.release,none⟩
  | .sweepLoading => some ⟨sh,if sh.isEmpty then .idle else .sweepLocking,.keep,none⟩
  | .sweepLocking => some ⟨sh,.sweepStarting,.acquire,none⟩
  | .sweepStarting => none
  | .sweepRetaining start [] => some ⟨sh,.sweepStoring start,.keep,none⟩
  | .sweepRetaining start (sig :: todo) =>
      some ⟨sh.retainOne sig,.sweepRetaining start todo,.keep,none⟩
  | .sweepStoring start => some ⟨sh.storeLen,.sweepUnlocking start,.keep,none⟩
  | .sweepUnlocking start => some ⟨{ sh with lastSweep := some start },.idle,.release,none⟩
  | .filterLoading item before =>
      some ⟨sh,if !sh.isEmpty && item.locks then .filterLocking item before
        else .filterReturning (sh.unfiltered item before),.keep,none⟩
  | .filterLocking item before => some ⟨sh,.filterHolding item before,.acquire,none⟩
  | .filterHolding item before =>
      some ⟨sh,.filterUnlocking (sh.filtered item before),.keep,none⟩
  | .filterUnlocking answer => some ⟨sh,.idle,.release,some ⟨answer,sh.now⟩⟩
  | .filterReturning answer => some ⟨sh,.idle,.keep,some ⟨answer,sh.now⟩⟩

def outcome (sh : Shared) (task : Task π) :
    Move π → Option (Outcome Shared (Task π) (Release π))
  | .call call =>
      match task with
      | .idle => some ⟨sh,call.start sh,.keep,none⟩
      | _ => none
  | .retain order =>
      match task with
      | .sweepStarting =>
          if order.Perm sh.map.keys then some ⟨sh,.sweepRetaining sh.now order,.keep,none⟩
          else none
      | _ => none
  | .advance => advance sh task

def step (s : State π) : Action π → Option (State π)
  | .tick elapsed => some { s with shared := s.shared.tick elapsed }
  | .move h m =>
      match outcome s.shared (s.tasks h) m with
      | none => none
      | some o => s.commit h o

end Step

section Retain

variable {sh : Shared}

theorem retainOne_eq (sh : Shared) (sig : Signature) :
    sh.retainOne sig = { sh with map := (sh.retainOne sig).map } := by
  unfold Shared.retainOne
  split
  · rfl
  · split <;> rfl

theorem retainOne_now (sh : Shared) (sig : Signature) : (sh.retainOne sig).now = sh.now := by
  rw [retainOne_eq]

theorem lookup_retainOne {sig s : Signature} {st : Nat} :
    (sh.retainOne sig).map.lookup s = some st ↔
      sh.map.lookup s = some st ∧ (s = sig → sh.now - st < ttl) := by
  unfold Shared.retainOne
  by_cases heq : s = sig
  · subst heq
    cases hs : sh.map.lookup s with
    | none => simp [hs]
    | some stamp =>
      by_cases hfresh : sh.now - stamp < ttl
      · simp only [if_pos hfresh, hs]
        refine ⟨fun h => ⟨h,fun _ => Option.some.inj h ▸ hfresh⟩,And.left⟩
      · simp only [if_neg hfresh, AList.lookup_erase]
        refine ⟨nofun,fun h => absurd (h.2 trivial) ?_⟩
        rwa [← Option.some.inj h.1]
  · have hkeep : ∀ stamp, (if sh.now - stamp < ttl then sh else
        { sh with map := sh.map.erase sig }).map.lookup s = sh.map.lookup s := by
      intro stamp
      split
      · rfl
      · exact AList.lookup_erase_ne heq
    split
    · simp [heq]
    · rw [hkeep]
      simp [heq]

theorem lookup_foldl_retainOne {order : List Signature} {s : Signature} {st : Nat} :
    (order.foldl Shared.retainOne sh).map.lookup s = some st ↔
      sh.map.lookup s = some st ∧ (s ∈ order → sh.now - st < ttl) := by
  induction order generalizing sh with
  | nil => simp
  | cons sig order ih =>
    rw [List.foldl_cons, ih, retainOne_now, lookup_retainOne, List.mem_cons, and_assoc,
      or_imp]

theorem sweep_retains {order : List Signature} (hperm : order.Perm sh.map.keys)
    (s : Signature) (st : Nat) :
    (order.foldl Shared.retainOne sh).map.lookup s = some st ↔
      (sh.map.retain fun _ stamp => decide (sh.now - stamp < ttl)).lookup s = some st := by
  rw [lookup_foldl_retainOne, KeyMap.lookup_retain, decide_eq_true_iff]
  refine and_congr_right fun h => ⟨fun hfresh => hfresh (hperm.mem_iff.mpr ?_),fun hlt _ => hlt⟩
  exact AList.mem_keys.mp (AList.lookup_isSome.mp (h ▸ rfl))

end Retain

section Discipline

variable {π : Type} [PacketRef π] {sh : Shared} {task : Task π} {m : Move π}
  {o : Outcome Shared (Task π) (Release π)}

theorem outcome_cases (h : outcome sh task m = some o) :
    (∃ call : Call π, task = .idle ∧ o = ⟨sh,call.start sh,.keep,none⟩) ∨
    (∃ order, task = .sweepStarting ∧ order.Perm sh.map.keys ∧
      o = ⟨sh,.sweepRetaining sh.now order,.keep,none⟩) ∨
    advance sh task = some o := by
  cases m with
  | call call =>
    simp only [outcome] at h
    split at h
    · exact .inl ⟨call,rfl,(Option.some.inj h).symm⟩
    · cases h
  | retain order =>
    simp only [outcome] at h
    split at h
    · split at h
      · rename_i hperm
        exact .inr (.inl ⟨order,rfl,hperm,(Option.some.inj h).symm⟩)
      · cases h
    · cases h
  | advance => exact .inr (.inr h)

theorem advance_disciplined (h : advance sh task = some o) :
    Disciplined Task.critical sh task o := by
  cases task with
  | sweepRetaining start todo =>
    cases todo with
    | nil => cases h; exact ⟨fun _ => rfl,nofun,nofun⟩
    | cons sig todo => cases h; exact ⟨fun _ => rfl,nofun,nofun⟩
  | sweepLoading =>
    cases h
    refine ⟨fun _ => ?_,nofun,fun _ => rfl⟩
    simp only
    split <;> rfl
  | filterLoading item before =>
    cases h
    refine ⟨fun _ => ?_,nofun,fun _ => rfl⟩
    simp only
    split <;> rfl
  | insertUnlocking => cases h; exact ⟨nofun,fun _ => ⟨rfl,rfl⟩,nofun⟩
  | sweepUnlocking => cases h; exact ⟨nofun,fun _ => ⟨rfl,rfl⟩,nofun⟩
  | filterUnlocking => cases h; exact ⟨nofun,fun _ => ⟨rfl,rfl⟩,nofun⟩
  | insertLocking => cases h; exact ⟨nofun,nofun,fun _ => rfl⟩
  | sweepLocking => cases h; exact ⟨nofun,nofun,fun _ => rfl⟩
  | filterLocking => cases h; exact ⟨nofun,nofun,fun _ => rfl⟩
  | filterReturning => cases h; exact ⟨fun _ => rfl,nofun,fun _ => rfl⟩
  | insertStamping => cases h; exact ⟨fun _ => rfl,nofun,nofun⟩
  | insertPutting => cases h; exact ⟨fun _ => rfl,nofun,nofun⟩
  | insertStoring => cases h; exact ⟨fun _ => rfl,nofun,nofun⟩
  | sweepStoring => cases h; exact ⟨fun _ => rfl,nofun,nofun⟩
  | filterHolding => cases h; exact ⟨fun _ => rfl,nofun,nofun⟩
  | idle => cases h
  | sweepStarting => cases h

theorem outcome_disciplined (h : outcome sh task m = some o) :
    Disciplined Task.critical sh task o := by
  rcases outcome_cases h with ⟨call,rfl,rfl⟩ | ⟨order,rfl,_,rfl⟩ | h
  · exact ⟨fun _ => critical_start sh call,nofun,fun _ => rfl⟩
  · exact ⟨fun _ => rfl,nofun,nofun⟩
  · exact advance_disciplined h

theorem guarded_run {I : Shared → Prop} {T : Shared → Task π → Prop} {E : Release π → Prop}
    (hinit : I (init : State π).shared) (hidle : T (init : State π).shared .idle)
    (htick : ∀ sh elapsed, I sh → I (sh.tick elapsed))
    (htask : ∀ sh elapsed task, T sh task → T (sh.tick elapsed) task)
    (hout : ∀ sh task m o, I sh → T sh task → outcome sh task m = some o →
      Preserves Task.critical I T E sh o)
    {as : List (Action π)} {s : State π} (hrun : Machine.run step init as = some s) :
    Guarded Task.critical I T E s := by
  have h0 : Guarded Task.critical I T E init := by
    refine ⟨?_,hinit,fun _ => hidle,?_⟩
    · intro k hc
      cases hc
    · intro r hr
      cases hr
  refine Machine.run_invariant ?_ h0 hrun
  intro s a t hs h
  cases a with
  | tick elapsed =>
    cases h
    exact ⟨hs.exclusive,htick _ elapsed hs.shared,fun k => htask _ elapsed _ (hs.tasks k),hs.log⟩
  | move k m =>
    simp only [step] at h
    split at h
    · cases h
    · rename_i o ho
      exact guarded_commit hs (outcome_disciplined ho)
        (hout _ _ m o hs.shared (hs.tasks k) ho) h

end Discipline

end InertiaRelayer.Proxy
