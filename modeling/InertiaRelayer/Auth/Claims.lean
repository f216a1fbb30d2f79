import InertiaRelayer.Library.KeyMap
import InertiaRelayer.Types

namespace InertiaRelayer.Auth

def nanosPerSec : Int := 1000000000

def timestamp (t : Int) : Int := t / nanosPerSec

theorem timestamp_mul_le (t : Int) : timestamp t * nanosPerSec ≤ t :=
  Int.ediv_mul_le t (by decide)

structure Claims where
  clientIp : IpAddr
  clientPubkey : Pubkey
  expiresAtUtc : Int
deriving DecidableEq

def Claims.isExpired (c : Claims) (now : Int) : Bool := decide (c.expiresAtUtc ≤ now)

structure DeSerClaims where
  clientIp : String
  clientPubkey : String
  expiresAtUnixTs : Int
deriving DecidableEq

structure AuthChallenge where
  challenge : String
  accessClaims : Claims
  refreshClaims : Claims
  expiresAtUtc : Int
deriving DecidableEq

def AuthChallenge.isExpired (c : AuthChallenge) (now : Int) : Bool :=
  decide (c.expiresAtUtc ≤ now)

inductive AlgorithmType where
  | hs256 | hs384 | hs512
  | rs256 | rs384 | rs512
  | es256 | es384 | es512
  | ps256 | ps384 | ps512
  | none
deriving DecidableEq, Repr

structure Header where
  algorithm : AlgorithmType
deriving DecidableEq, Repr

structure TextForm (α : Type) where
  text : α → String
  parse : String → Option α
  parse_text : ∀ a, parse (text a) = some a

structure Platform where
  isAuthorized : Pubkey → Bool
  ipText : TextForm IpAddr
  pubkeyText : TextForm Pubkey
  heap : Heap IpAddr AuthChallenge AuthChallenge.expiresAtUtc
  minTimestamp : Int
  maxTimestamp : Int
  headerToStr : List UInt8 → Option String
  signWithKey : Header → DeSerClaims → Option String
  verifyWithKey : String → Option (Header × DeSerClaims)
  verify_of_sign : ∀ header claims text,
    signWithKey header claims = some text → verifyWithKey text = some (header,claims)
  PublicKey : Type
  publicKeyFromBytes : List UInt8 → Option PublicKey
  publicKeyToBytes : PublicKey → Pubkey
  toBytes_of_fromBytes : ∀ bytes key,
    publicKeyFromBytes bytes = some key → (publicKeyToBytes key).bytes = bytes
  EdSignature : Type
  signatureFromBytes : List UInt8 → Option EdSignature
  verify : PublicKey → String → EdSignature → Bool

namespace Platform

variable (p : Platform)

def inRange (t : Int) : Bool :=
  decide (p.minTimestamp * nanosPerSec ≤ t ∧ t < (p.maxTimestamp + 1) * nanosPerSec)

def add (t ttl : Int) : Except Failure Int :=
  if p.inRange (t + ttl) then .ok (t + ttl) else .error (.panicked .dateTimeOverflow)

def fromTimestamp (secs : Int) : Option Int :=
  if p.minTimestamp ≤ secs ∧ secs ≤ p.maxTimestamp then some (secs * nanosPerSec) else none

def deSerClaims (claims : Claims) : DeSerClaims where
  clientIp := p.ipText.text claims.clientIp
  clientPubkey := p.pubkeyText.text claims.clientPubkey
  expiresAtUnixTs := timestamp claims.expiresAtUtc

def claims (d : DeSerClaims) : Except Failure Claims :=
  match p.ipText.parse d.clientIp with
  | none => .error (.panicked .clientIpUnwrap)
  | some clientIp =>
      match p.pubkeyText.parse d.clientPubkey with
      | none => .error (.panicked .clientPubkeyUnwrap)
      | some clientPubkey =>
          match p.fromTimestamp d.expiresAtUnixTs with
          | none => .error (.panicked .expiresAtUnwrap)
          | some expiresAtUtc => .ok ⟨clientIp,clientPubkey,expiresAtUtc⟩

variable {p}

theorem add_ok {t ttl e : Int} (h : p.add t ttl = .ok e) :
    e = t + ttl ∧ p.inRange (t + ttl) = true := by
  unfold add at h
  split at h
  · rename_i hr
    exact ⟨(Except.ok.inj h).symm,hr⟩
  · cases h

theorem fromTimestamp_some {secs t : Int} (h : p.fromTimestamp secs = some t) :
    t = secs * nanosPerSec := by
  unfold fromTimestamp at h
  split at h
  · exact (Option.some.inj h).symm
  · cases h

theorem claims_of_deSer {c c' : Claims} (h : p.claims (p.deSerClaims c) = .ok c') :
    c'.clientIp = c.clientIp ∧ c'.clientPubkey = c.clientPubkey ∧
      c'.expiresAtUtc = timestamp c.expiresAtUtc * nanosPerSec := by
  simp only [claims, deSerClaims, p.ipText.parse_text, p.pubkeyText.parse_text] at h
  split at h
  · cases h
  · rename_i e he
    cases h
    exact ⟨rfl,rfl,fromTimestamp_some he⟩

theorem claims_deSer_ok {c : Claims} (h : p.inRange c.expiresAtUtc = true) :
    p.claims (p.deSerClaims c) =
      .ok ⟨c.clientIp,c.clientPubkey,timestamp c.expiresAtUtc * nanosPerSec⟩ := by
  have hr := of_decide_eq_true h
  have hlow : p.minTimestamp ≤ timestamp c.expiresAtUtc :=
    Int.le_ediv_of_mul_le (by decide) hr.1
  have hhigh : timestamp c.expiresAtUtc < p.maxTimestamp + 1 :=
    Int.ediv_lt_of_lt_mul (by decide) hr.2
  have hts : p.fromTimestamp (timestamp c.expiresAtUtc) =
      some (timestamp c.expiresAtUtc * nanosPerSec) :=
    if_pos ⟨hlow,Int.lt_add_one_iff.mp hhigh⟩
  simp only [claims, deSerClaims, p.ipText.parse_text, p.pubkeyText.parse_text, hts]

theorem not_expired_of_deSer {c c' : Claims} {now : Int}
    (h : p.claims (p.deSerClaims c) = .ok c') (hn : c'.isExpired now = false) :
    now < c.expiresAtUtc := by
  obtain ⟨_,_,he⟩ := claims_of_deSer h
  have hlt : now < c'.expiresAtUtc := by simpa [Claims.isExpired] using hn
  exact Int.lt_of_lt_of_le hlt (he ▸ timestamp_mul_le _)

end Platform

end InertiaRelayer.Auth
