import Mathlib.Logic.Basic

namespace InertiaRelayer

def Program (σ ε α : Type) : Type := σ → Except ε α × σ

namespace Program

variable {σ ε α β : Type}

def ret (a : α) : Program σ ε α := fun s => (.ok a,s)

def andThen (x : Program σ ε α) (f : α → Program σ ε β) : Program σ ε β := fun s =>
  match x s with
  | (.ok a,t) => f a t
  | (.error e,t) => (.error e,t)

instance : Monad (Program σ ε) where
  pure := ret
  bind := andThen

def get : Program σ ε σ := fun s => (.ok s,s)

def modify (f : σ → σ) : Program σ ε Unit := fun s => (.ok (),f s)

def fail (e : ε) : Program σ ε α := fun s => (.error e,s)

def Triple (P : σ → Prop) (x : Program σ ε α) (Q : α → σ → Prop) (E : σ → Prop) : Prop :=
  ∀ s, P s →
    match x s with
    | (.ok a,t) => Q a t
    | (.error _,t) => E t

variable {P P' : σ → Prop} {Q : α → σ → Prop} {E : σ → Prop}

theorem triple_pure {a : α} (h : ∀ s, P s → Q a s) :
    Triple P (pure a : Program σ ε α) Q E :=
  h

theorem triple_bind {R : β → σ → Prop} {x : Program σ ε β} {f : β → Program σ ε α}
    (hx : Triple P x R E) (hf : ∀ b, Triple (R b) (f b) Q E) : Triple P (x >>= f) Q E := by
  intro s hs
  have h := hx s hs
  change match andThen x f s with | (.ok a,t) => Q a t | (.error _,t) => E t
  unfold andThen
  generalize x s = outcome at h ⊢
  obtain ⟨r,t⟩ := outcome
  cases r with
  | error e => exact h
  | ok b => exact hf b t h

theorem triple_get {Q : σ → σ → Prop} (h : ∀ s, P s → Q s s) :
    Triple P (get : Program σ ε σ) Q E :=
  h

theorem triple_modify {f : σ → σ} {Q : Unit → σ → Prop} (h : ∀ s, P s → Q () (f s)) :
    Triple P (modify f : Program σ ε Unit) Q E :=
  h

theorem triple_fail {e : ε} (h : ∀ s, P s → E s) : Triple P (fail e : Program σ ε α) Q E :=
  h

theorem triple_ite {c : Prop} [Decidable c] {x y : Program σ ε α}
    (hx : c → Triple P x Q E) (hy : ¬ c → Triple P y Q E) :
    Triple P (if c then x else y) Q E := by
  split
  · rename_i hc
    exact hx hc
  · rename_i hc
    exact hy hc

theorem triple_pre {x : Program σ ε α} (hx : Triple P' x Q E) (h : ∀ s, P s → P' s) :
    Triple P x Q E :=
  fun s hs => hx s (h s hs)

end Program

end InertiaRelayer
