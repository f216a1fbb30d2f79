import Mathlib.Data.List.Basic

namespace InertiaRelayer

def pubkeyBytes : Nat := 32
def signatureBytes : Nat := 64

def tryFromSlice {α : Type} (size : Nat)
    (mk : (bytes : List UInt8) → bytes.length = size → α) (bytes : List UInt8) : Option α :=
  if h : bytes.length = size then some (mk bytes h) else none

theorem tryFromSlice_eq_some {α : Type} {size : Nat}
    {mk : (bytes : List UInt8) → bytes.length = size → α} {bytes : List UInt8} {a : α}
    (h : tryFromSlice size mk bytes = some a) : ∃ hsize, mk bytes hsize = a := by
  unfold tryFromSlice at h
  split at h
  case isTrue hsize => exact ⟨hsize,Option.some.inj h⟩
  case isFalse => simp at h

structure Pubkey where
  bytes : List UInt8
  length_eq : bytes.length = pubkeyBytes
deriving DecidableEq

def Pubkey.tryFrom : List UInt8 → Option Pubkey :=
  tryFromSlice pubkeyBytes Pubkey.mk

theorem Pubkey.tryFrom_bytes (k : Pubkey) : Pubkey.tryFrom k.bytes = some k := by
  simp [Pubkey.tryFrom, tryFromSlice, k.length_eq]

structure Signature where
  bytes : List UInt8
  length_eq : bytes.length = signatureBytes
deriving DecidableEq

def Signature.tryFrom : List UInt8 → Option Signature :=
  tryFromSlice signatureBytes Signature.mk

inductive IpAddr where
  | v4 (a b c d : UInt8)
  | v6 (a b c d e f g h : UInt16)
deriving DecidableEq

structure SocketAddr where
  ip : IpAddr
  port : UInt16
deriving DecidableEq

inductive Code where
  | invalidArgument
  | permissionDenied
  | resourceExhausted
  | internal
deriving DecidableEq, Repr

structure Status where
  code : Code
  message : String
deriving DecidableEq, Repr

inductive PanicSite where
  | clientIpUnwrap
  | clientPubkeyUnwrap
  | expiresAtUnwrap
  | signingAlgoAssert
  | dateTimeOverflow
deriving DecidableEq, Repr

inductive Failure where
  | status (status : Status)
  | panicked (site : PanicSite)
deriving DecidableEq, Repr

def invalidArgument (message : String) : Failure := .status ⟨.invalidArgument,message⟩
def permissionDenied (message : String) : Failure := .status ⟨.permissionDenied,message⟩
def resourceExhausted (message : String) : Failure := .status ⟨.resourceExhausted,message⟩
def internal (message : String) : Failure := .status ⟨.internal,message⟩

theorem bind_ok {ε α β : Type} {x : Except ε α} {f : α → Except ε β} {b : β}
    (h : x >>= f = .ok b) : ∃ a, x = .ok a ∧ f a = .ok b := by
  cases x with
  | error e => cases h
  | ok a => exact ⟨a,rfl,h⟩

end InertiaRelayer
