import Mathlib.Data.Nat.Basic

namespace InertiaRelayer.Watch

variable {α : Type*}

structure Channel (α : Type*) where
  value : α
  version : Nat
  closed : Bool
deriving DecidableEq

structure Receiver where
  seen : Nat
deriving DecidableEq

namespace Channel

def opened (value : α) : Channel α := ⟨value,0,false⟩

def send (ch : Channel α) (value : α) : Channel α :=
  { ch with value := value, version := ch.version + 1 }

def dropSender (ch : Channel α) : Channel α := { ch with closed := true }

def subscribe (ch : Channel α) : Receiver := ⟨ch.version⟩

def changed (ch : Channel α) (rx : Receiver) : Option (Bool × Receiver) :=
  if rx.seen ≠ ch.version then some (true,⟨ch.version⟩)
  else if ch.closed then some (false,rx)
  else none

theorem changed_behind {ch : Channel α} {rx : Receiver} (h : rx.seen < ch.version) :
    ch.changed rx = some (true,⟨ch.version⟩) :=
  if_pos (Nat.ne_of_lt h)

theorem changed_pending {ch : Channel α} {rx : Receiver} (hseen : rx.seen = ch.version)
    (hopen : ch.closed = false) : ch.changed rx = none := by
  unfold changed
  rw [if_neg (not_not_intro hseen), hopen]
  rfl

end Channel

end InertiaRelayer.Watch
