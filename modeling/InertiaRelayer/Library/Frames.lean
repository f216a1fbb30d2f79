import Mathlib.Data.Nat.Digits.Defs
import Mathlib.Data.List.Basic

namespace InertiaRelayer.Frames

abbrev Bytes := List UInt8

def leValue (bytes : Bytes) : Nat := Nat.ofDigits 256 (bytes.map UInt8.toNat)

def leBytes : Nat → Nat → Bytes
  | 0, _ => []
  | w + 1, n => UInt8.ofNat n :: leBytes w (n / 256)

@[simp] theorem length_leBytes (w n : Nat) : (leBytes w n).length = w := by
  induction w generalizing n with
  | zero => rfl
  | succ w ih => rw [leBytes, List.length_cons, ih]

@[simp] theorem leValue_cons (b : UInt8) (bytes : Bytes) :
    leValue (b :: bytes) = b.toNat + 256 * leValue bytes := by
  simp [leValue, Nat.ofDigits_cons]

theorem leValue_leBytes (w n : Nat) : leValue (leBytes w n) = n % 256 ^ w := by
  induction w generalizing n with
  | zero => simp [leBytes, leValue, Nat.mod_one]
  | succ w ih =>
    rw [leBytes, leValue_cons, ih, Nat.pow_succ', Nat.mod_mul]
    rfl

theorem leBytes_mod (w n : Nat) : leBytes w (n % 256 ^ w) = leBytes w n := by
  induction w generalizing n with
  | zero => rfl
  | succ w ih =>
    have hhead : UInt8.ofNat (n % 256 ^ (w + 1)) = UInt8.ofNat n := by
      apply UInt8.toNat_inj.mp
      rw [UInt8.toNat_ofNat', UInt8.toNat_ofNat', Nat.pow_succ']
      exact Nat.mod_mul_right_mod n 256 (256 ^ w)
    rw [leBytes, leBytes, hhead, Nat.pow_succ', Nat.mod_mul_right_div_self, ih]

theorem leBytes_leValue (bytes : Bytes) : leBytes bytes.length (leValue bytes) = bytes := by
  induction bytes with
  | nil => rfl
  | cons b bytes ih =>
    have hb : b.toNat < 256 := b.toNat_lt
    have hdiv : leValue (b :: bytes) / 256 = leValue bytes := by
      rw [leValue_cons]
      omega
    have hmod : UInt8.ofNat (leValue (b :: bytes)) = b := by
      apply UInt8.toNat_inj.mp
      rw [leValue_cons, UInt8.toNat_ofNat']
      omega
    rw [List.length_cons, leBytes, hdiv, hmod, ih]

def frame (w : Nat) (payload : Bytes) : Bytes := leBytes w payload.length ++ payload

theorem length_frame (w : Nat) (payload : Bytes) :
    (frame w payload).length = w + payload.length := by
  rw [frame, List.length_append, length_leBytes]

def readExact (n : Nat) (bytes : Bytes) : Option (Bytes × Bytes) :=
  if n ≤ bytes.length then some (bytes.take n,bytes.drop n) else none

theorem readExact_iff {n : Nat} {bytes read rest : Bytes} :
    readExact n bytes = some (read,rest) ↔ read.length = n ∧ bytes = read ++ rest := by
  unfold readExact
  constructor
  · intro h
    split at h
    · rename_i hn
      cases h
      exact ⟨List.length_take_of_le hn,(List.take_append_drop n bytes).symm⟩
    · cases h
  · rintro ⟨rfl,rfl⟩
    simp

def readFrame (w limit : Nat) (bytes : Bytes) : Option (Bytes × Bytes) :=
  match readExact w bytes with
  | none => none
  | some (header,rest) =>
      if limit < leValue header then none else readExact (leValue header) rest

section Reading

variable {w limit : Nat} (hlimit : limit < 256 ^ w)
include hlimit

theorem readFrame_iff {bytes payload rest : Bytes} :
    readFrame w limit bytes = some (payload,rest) ↔
      payload.length ≤ limit ∧ bytes = frame w payload ++ rest := by
  unfold readFrame
  constructor
  · intro h
    split at h
    · cases h
    · rename_i header body hheader
      obtain ⟨rfl,rfl⟩ := readExact_iff.mp hheader
      split at h
      · cases h
      · rename_i hle
        obtain ⟨hlen,rfl⟩ := readExact_iff.mp h
        rw [frame, hlen, leBytes_leValue, List.append_assoc]
        exact ⟨by omega,rfl⟩
  · rintro ⟨hle,rfl⟩
    have hvalue : leValue (leBytes w payload.length) = payload.length := by
      rw [leValue_leBytes, Nat.mod_eq_of_lt (by omega)]
    rw [frame, List.append_assoc, readExact_iff.mpr ⟨length_leBytes w _,rfl⟩]
    simp only [hvalue, Nat.not_lt.mpr hle, if_false]
    exact readExact_iff.mpr ⟨rfl,rfl⟩

end Reading

structure Split (w limit : Nat) (bytes : Bytes) (payloads : List Bytes) (rest : Bytes) : Prop where
  bytes_eq : bytes = payloads.flatMap (frame w) ++ rest
  within : ∀ payload ∈ payloads, payload.length ≤ limit
  stuck : ∀ payload more, payload.length ≤ limit → rest ≠ frame w payload ++ more

section Splitting

variable {w limit : Nat} (hlimit : limit < 256 ^ w)
include hlimit

theorem split_nil {bytes : Bytes} (h : readFrame w limit bytes = none) :
    Split w limit bytes [] bytes where
  bytes_eq := rfl
  within _ hp := by cases hp
  stuck payload more hle heq := by
    rw [(readFrame_iff hlimit).mpr ⟨hle,heq⟩] at h
    cases h

theorem split_cons {bytes payload more rest : Bytes} {payloads : List Bytes}
    (h : readFrame w limit bytes = some (payload,more)) (hs : Split w limit more payloads rest) :
    Split w limit bytes (payload :: payloads) rest where
  bytes_eq := by
    obtain ⟨_,rfl⟩ := (readFrame_iff hlimit).mp h
    rw [hs.bytes_eq, List.flatMap_cons, List.append_assoc]
  within := List.forall_mem_cons.mpr ⟨((readFrame_iff hlimit).mp h).1,hs.within⟩
  stuck := hs.stuck

theorem length_readFrame {bytes payload rest : Bytes}
    (h : readFrame w limit bytes = some (payload,rest)) : rest.length + w ≤ bytes.length := by
  obtain ⟨_,rfl⟩ := (readFrame_iff hlimit).mp h
  rw [List.length_append, length_frame]
  omega

theorem exists_split (hw : 0 < w) (bytes : Bytes) :
    ∃ payloads rest, Split w limit bytes payloads rest := by
  induction hn : bytes.length using Nat.strong_induction_on generalizing bytes with
  | _ n ih =>
    cases h : readFrame w limit bytes with
    | none => exact ⟨[],bytes,split_nil hlimit h⟩
    | some out =>
      have hlen := length_readFrame hlimit h
      obtain ⟨payloads,rest,hs⟩ := ih out.2.length (by omega) out.2 rfl
      exact ⟨out.1 :: payloads,rest,split_cons hlimit h hs⟩

theorem readFrame_split_nil {bytes rest : Bytes} (h : Split w limit bytes [] rest) :
    readFrame w limit bytes = none ∧ rest = bytes := by
  have hrest : bytes = rest := h.bytes_eq
  subst hrest
  refine ⟨?_,rfl⟩
  cases hr : readFrame w limit bytes with
  | none => rfl
  | some out =>
    obtain ⟨hle,heq⟩ := (readFrame_iff hlimit).mp hr
    exact absurd heq (h.stuck _ _ hle)

theorem readFrame_split_cons {bytes payload rest : Bytes} {payloads : List Bytes}
    (h : Split w limit bytes (payload :: payloads) rest) :
    ∃ more, readFrame w limit bytes = some (payload,more) ∧ Split w limit more payloads rest := by
  obtain ⟨hle,hwithin⟩ := List.forall_mem_cons.mp h.within
  refine ⟨payloads.flatMap (frame w) ++ rest,?_,rfl,hwithin,h.stuck⟩
  rw [readFrame_iff hlimit, h.bytes_eq, List.flatMap_cons, List.append_assoc]
  exact ⟨hle,rfl⟩

theorem split_unique {bytes rest rest' : Bytes} {payloads payloads' : List Bytes}
    (h : Split w limit bytes payloads rest) (h' : Split w limit bytes payloads' rest') :
    payloads = payloads' ∧ rest = rest' := by
  induction payloads generalizing bytes payloads' with
  | nil =>
    obtain ⟨hnone,rfl⟩ := readFrame_split_nil hlimit h
    cases payloads' with
    | nil => exact ⟨rfl,(readFrame_split_nil hlimit h').2.symm⟩
    | cons payload' payloads' =>
      obtain ⟨more,hsome,_⟩ := readFrame_split_cons hlimit h'
      rw [hnone] at hsome
      cases hsome
  | cons payload payloads ih =>
    obtain ⟨more,hsome,hs⟩ := readFrame_split_cons hlimit h
    cases payloads' with
    | nil =>
      rw [(readFrame_split_nil hlimit h').1] at hsome
      cases hsome
    | cons payload' payloads' =>
      obtain ⟨more',hsome',hs'⟩ := readFrame_split_cons hlimit h'
      rw [hsome] at hsome'
      cases hsome'
      obtain ⟨rfl,rfl⟩ := ih hs hs'
      exact ⟨rfl,rfl⟩

end Splitting

def Torn (w : Nat) (tail payload : Bytes) : Prop :=
  tail <+: frame w payload ∧ tail ≠ frame w payload

theorem split_torn {w limit : Nat} (hlimit : limit < 256 ^ w) {payloads : List Bytes}
    {tail payload : Bytes} (hwithin : ∀ payload ∈ payloads, payload.length ≤ limit)
    (hle : payload.length ≤ limit) (htorn : Torn w tail payload) :
    Split w limit (payloads.flatMap (frame w) ++ tail) payloads tail where
  bytes_eq := rfl
  within := hwithin
  stuck payload' more hle' heq := by
    obtain ⟨⟨missing,hmissing⟩,hne⟩ := htorn
    have hwhole : readFrame w limit (frame w payload) = some (payload,[]) :=
      (readFrame_iff hlimit).mpr ⟨hle,(List.append_nil _).symm⟩
    have hshort : readFrame w limit (frame w payload) = some (payload',more ++ missing) :=
      (readFrame_iff hlimit).mpr ⟨hle',by rw [← hmissing, heq, List.append_assoc]⟩
    rw [hwhole] at hshort
    obtain ⟨_,hnil⟩ := Prod.mk.inj (Option.some.inj hshort)
    obtain ⟨_,rfl⟩ := List.append_eq_nil_iff.mp hnil.symm
    exact hne (by rw [← hmissing, List.append_nil])

theorem torn_nil {w : Nat} (hw : 0 < w) (payload : Bytes) : Torn w [] payload := by
  refine ⟨⟨frame w payload,rfl⟩,fun h => ?_⟩
  have hlen := congrArg List.length h
  rw [length_frame, List.length_nil] at hlen
  omega

theorem take_frames {w : Nat} (hw : 0 < w) (payloads : List Bytes) (k : Nat) :
    ∃ m tail payload, (payloads.flatMap (frame w)).take k =
        (payloads.take m).flatMap (frame w) ++ tail ∧ Torn w tail payload ∧
      (payload = [] ∨ payload ∈ payloads) ∧
      ∀ i < payloads.length,
        i < m ↔ ((payloads.take (i + 1)).flatMap (frame w)).length ≤ k := by
  induction payloads generalizing k with
  | nil => exact ⟨0,[],[],by simp,torn_nil hw [],.inl rfl,fun i hi => absurd hi (Nat.not_lt_zero i)⟩
  | cons p payloads ih =>
    rcases Nat.lt_or_ge k (frame w p).length with hk | hk
    · refine ⟨0,(frame w p).take k,p,?_,⟨⟨_,List.take_append_drop k _⟩,fun h => ?_⟩,
        .inr List.mem_cons_self,fun i _ => ?_⟩
      · rw [List.flatMap_cons, List.take_append_of_le_length hk.le]
        rfl
      · have hlen := congrArg List.length h
        rw [List.length_take_of_le hk.le] at hlen
        omega
      · rw [List.take_succ_cons, List.flatMap_cons, List.length_append]
        omega
    · obtain ⟨m,tail,payload,htake,htorn,hmem,hends⟩ := ih (k - (frame w p).length)
      refine ⟨m + 1,tail,payload,?_,htorn,hmem.imp_right (List.mem_cons_of_mem p),fun i hi => ?_⟩
      · rw [List.flatMap_cons, List.take_append, List.take_of_length_le hk, htake,
          List.take_succ_cons, List.flatMap_cons, List.append_assoc]
      · rw [List.take_succ_cons, List.flatMap_cons, List.length_append]
        cases i with
        | zero => simpa using hk
        | succ i =>
          rw [Nat.add_lt_add_iff_right, hends i (by simpa using hi)]
          omega

end InertiaRelayer.Frames
