import Mathlib.Logic.Function.Basic

namespace InertiaRelayer.Mutex

inductive Lock where
  | keep
  | acquire
  | release
deriving DecidableEq

structure Outcome (σ τ ε : Type) where
  shared : σ
  task : τ
  lock : Lock
  event : Option ε

structure State (σ τ ε : Type) where
  shared : σ
  holder : Option Nat
  tasks : Nat → τ
  log : List ε

variable {σ τ ε : Type}

def State.apply (s : State σ τ ε) (h : Nat) (o : Outcome σ τ ε) (holder : Option Nat) :
    State σ τ ε :=
  ⟨o.shared,holder,Function.update s.tasks h o.task,o.event.toList ++ s.log⟩

def State.commit (s : State σ τ ε) (h : Nat) (o : Outcome σ τ ε) : Option (State σ τ ε) :=
  match o.lock with
  | .keep => some (s.apply h o s.holder)
  | .acquire => if s.holder = none then some (s.apply h o (some h)) else none
  | .release => some (s.apply h o none)

structure Disciplined (critical : τ → Bool) (sh : σ) (t : τ) (o : Outcome σ τ ε) : Prop where
  keep : o.lock = .keep → critical o.task = critical t
  release : o.lock = .release → critical t = true ∧ critical o.task = false
  shared : critical t = false → o.shared = sh

def Exclusive (critical : τ → Bool) (s : State σ τ ε) : Prop :=
  ∀ h, critical (s.tasks h) = true → s.holder = some h

theorem commit_some {s t : State σ τ ε} {h : Nat} {o : Outcome σ τ ε}
    (hc : s.commit h o = some t) : ∃ holder, t = s.apply h o holder ∧
      ((o.lock = .keep ∧ holder = s.holder) ∨
        (o.lock = .acquire ∧ s.holder = none ∧ holder = some h) ∨
        (o.lock = .release ∧ holder = none)) := by
  unfold State.commit at hc
  split at hc
  · rename_i hl
    exact ⟨s.holder,(Option.some.inj hc).symm,.inl ⟨hl,rfl⟩⟩
  · rename_i hl
    split at hc
    · rename_i hnone
      exact ⟨some h,(Option.some.inj hc).symm,.inr (.inl ⟨hl,hnone,rfl⟩)⟩
    · cases hc
  · rename_i hl
    exact ⟨none,(Option.some.inj hc).symm,.inr (.inr ⟨hl,rfl⟩)⟩

theorem exclusive_commit {critical : τ → Bool} {s t : State σ τ ε} {h : Nat}
    {o : Outcome σ τ ε} (hs : Exclusive critical s)
    (hd : Disciplined critical s.shared (s.tasks h) o) (hc : s.commit h o = some t) :
    Exclusive critical t := by
  obtain ⟨holder,rfl,hcase⟩ := commit_some hc
  intro k hk
  simp only [State.apply] at hk ⊢
  by_cases hkh : k = h
  · subst hkh
    rw [Function.update_self] at hk
    rcases hcase with ⟨hl,rfl⟩ | ⟨_,_,rfl⟩ | ⟨hl,rfl⟩
    · exact hs k ((hd.keep hl).symm.trans hk)
    · rfl
    · rw [(hd.release hl).2] at hk
      cases hk
  · rw [Function.update_of_ne hkh] at hk
    have hheld := hs k hk
    rcases hcase with ⟨_,rfl⟩ | ⟨_,hnone,_⟩ | ⟨hl,_⟩
    · exact hheld
    · rw [hnone] at hheld
      cases hheld
    · rw [hs h (hd.release hl).1] at hheld
      cases hheld
      exact absurd rfl hkh

structure Guarded (critical : τ → Bool) (I : σ → Prop) (T : σ → τ → Prop) (E : ε → Prop)
    (s : State σ τ ε) : Prop where
  exclusive : Exclusive critical s
  shared : I s.shared
  tasks : ∀ h, T s.shared (s.tasks h)
  log : ∀ e ∈ s.log, E e

structure Preserves (critical : τ → Bool) (I : σ → Prop) (T : σ → τ → Prop) (E : ε → Prop)
    (sh : σ) (o : Outcome σ τ ε) : Prop where
  shared : I o.shared
  task : T o.shared o.task
  event : ∀ e, o.event = some e → E e
  others : ∀ t, critical t = false → T sh t → T o.shared t

theorem preserves_silent {critical : τ → Bool} {I : σ → Prop} {T : σ → τ → Prop} {E : ε → Prop}
    {sh sh' : σ} {t : τ} {lock : Lock} (hi : I sh') (ht : T sh' t)
    (ho : ∀ u, critical u = false → T sh u → T sh' u) :
    Preserves critical I T E sh ⟨sh',t,lock,none⟩ :=
  ⟨hi,ht,nofun,ho⟩

theorem preserves_same {critical : τ → Bool} {I : σ → Prop} {T : σ → τ → Prop} {E : ε → Prop}
    {sh : σ} {t : τ} {lock : Lock} (hi : I sh) (ht : T sh t) :
    Preserves critical I T E sh ⟨sh,t,lock,none⟩ :=
  preserves_silent hi ht (fun _ _ h => h)

theorem preserves_event {critical : τ → Bool} {I : σ → Prop} {T : σ → τ → Prop} {E : ε → Prop}
    {sh : σ} {t : τ} {lock : Lock} {e : ε} (hi : I sh) (ht : T sh t) (he : E e) :
    Preserves critical I T E sh ⟨sh,t,lock,some e⟩ :=
  ⟨hi,ht,fun _ h => Option.some.inj h ▸ he,fun _ _ h => h⟩

theorem guarded_commit {critical : τ → Bool} {I : σ → Prop} {T : σ → τ → Prop} {E : ε → Prop}
    {s t : State σ τ ε} {h : Nat} {o : Outcome σ τ ε} (hs : Guarded critical I T E s)
    (hd : Disciplined critical s.shared (s.tasks h) o)
    (hp : Preserves critical I T E s.shared o) (hc : s.commit h o = some t) :
    Guarded critical I T E t := by
  have hexclusive := exclusive_commit hs.exclusive hd hc
  obtain ⟨holder,rfl,hcase⟩ := commit_some hc
  refine ⟨hexclusive,hp.shared,?_,?_⟩
  · intro k
    simp only [State.apply]
    by_cases hkh : k = h
    · subst hkh
      rw [Function.update_self]
      exact hp.task
    · rw [Function.update_of_ne hkh]
      cases hck : critical (s.tasks k) with
      | false => exact hp.others _ hck (hs.tasks k)
      | true =>
        have hidle : critical (s.tasks h) = false := by
          cases hch : critical (s.tasks h) with
          | false => rfl
          | true =>
            have heq := (hs.exclusive k hck).symm.trans (hs.exclusive h hch)
            exact absurd (Option.some.inj heq) hkh
        rw [hd.shared hidle]
        exact hs.tasks k
  · intro e he
    rcases List.mem_append.mp he with he | he
    · exact hp.event e (Option.mem_toList.mp he)
    · exact hs.log e he

end InertiaRelayer.Mutex
