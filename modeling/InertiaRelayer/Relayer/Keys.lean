import InertiaRelayer.Library.KeyMap
import InertiaRelayer.Library.Machine
import InertiaRelayer.Library.Program

namespace InertiaRelayer.Keys
open Machine Program

abbrev Bytes := List UInt8
abbrev Path := String

structure Crypto where
  PrivateKey : Type
  PublicKey : Type
  publicOf : PrivateKey → PublicKey
  privateKeyToPem : PrivateKey → Bytes
  privateKeyFromPem : Bytes → Option PrivateKey
  publicKeyToPem : PublicKey → Bytes
  publicKeyFromPem : Bytes → Option PublicKey
  private_pem : ∀ k, privateKeyFromPem (privateKeyToPem k) = some k
  public_pem : ∀ k, publicKeyFromPem (publicKeyToPem k) = some k
  sign : PrivateKey → Bytes → Bytes
  verify : PublicKey → Bytes → Bytes → Bool
  verify_sign : ∀ k m, verify (publicOf k) m (sign k m) = true

structure Paths where
  signing : Path
  verifying : Path
  distinct : signing ≠ verifying

abbrev Files := KeyMap Path Bytes

inductive KeyPanic where
  | createKeyDirectory
  | generateSigningKey
  | serializeSigningKey
  | writeSigningKey
  | setPermissions
  | readSigningKey
  | parseSigningKey
  | serializeVerifyingKey
  | writeVerifyingKey
  | readVerifyingKey
deriving DecidableEq

section Load

variable (c : Crypto) (paths : Paths) (fails : KeyPanic → Bool)

def attempt (site : KeyPanic) : Program Files KeyPanic Unit :=
  if fails site then fail site else pure ()

def ensureParentDir : Program Files KeyPanic Unit := attempt fails .createKeyDirectory

def restrictPermissions : Program Files KeyPanic Unit := attempt fails .setPermissions

def write (site : KeyPanic) (path : Path) (contents : Bytes) : Program Files KeyPanic Unit := do
  attempt fails site
  modify (fun files => files.insert path contents)

def read (site : KeyPanic) (path : Path) : Program Files KeyPanic Bytes := do
  attempt fails site
  let files ← get
  match files.lookup path with
  | none => fail site
  | some contents => pure contents

def generateSigningKey (fresh : c.PrivateKey) : Program Files KeyPanic Unit := do
  ensureParentDir fails
  attempt fails .generateSigningKey
  attempt fails .serializeSigningKey
  write fails .writeSigningKey paths.signing (c.privateKeyToPem fresh)
  restrictPermissions fails

def deriveVerifyingKey (privateKey : Bytes) : Program Files KeyPanic Unit := do
  ensureParentDir fails
  match c.privateKeyFromPem privateKey with
  | none => fail .parseSigningKey
  | some pkey => do
      attempt fails .serializeVerifyingKey
      write fails .writeVerifyingKey paths.verifying (c.publicKeyToPem (c.publicOf pkey))

def unlessExists (path : Path) (create : Program Files KeyPanic Unit) :
    Program Files KeyPanic Unit := do
  let files ← get
  if files.containsKey path then pure () else create

def loadOrGenerateKeys (fresh : c.PrivateKey) : Program Files KeyPanic (Bytes × Bytes) := do
  unlessExists paths.signing (generateSigningKey c paths fails fresh)
  let privateKey ← read fails .readSigningKey paths.signing
  unlessExists paths.verifying (deriveVerifyingKey c paths fails privateKey)
  let publicKey ← read fails .readVerifyingKey paths.verifying
  return (privateKey,publicKey)

end Load

structure KeyPair (c : Crypto) (privateKey publicKey : Bytes) : Prop where
  matching : ∃ k, c.privateKeyFromPem privateKey = some k ∧
    c.publicKeyFromPem publicKey = some (c.publicOf k)

theorem KeyPair.verifies {c : Crypto} {privateKey publicKey : Bytes}
    (h : KeyPair c privateKey publicKey) (message : Bytes) :
    ∃ k v, c.privateKeyFromPem privateKey = some k ∧ c.publicKeyFromPem publicKey = some v ∧
      c.verify v message (c.sign k message) = true := by
  obtain ⟨k,hk,hv⟩ := h.matching
  exact ⟨k,c.publicOf k,hk,hv,c.verify_sign k message⟩

structure Sound (c : Crypto) (paths : Paths) (files : Files) : Prop where
  parses : ∀ privateKey, files.lookup paths.signing = some privateKey →
    ∃ k, c.privateKeyFromPem privateKey = some k
  paired : ∀ privateKey publicKey, files.lookup paths.signing = some privateKey →
    files.lookup paths.verifying = some publicKey → KeyPair c privateKey publicKey

def SigningKept (paths : Paths) (files : Files) : Prop :=
  files.lookup paths.signing = none → files.lookup paths.verifying = none

instance (paths : Paths) (files : Files) : Decidable (SigningKept paths files) :=
  inferInstanceAs (Decidable
    (files.lookup paths.signing = none → files.lookup paths.verifying = none))

section Triples

variable {c : Crypto} {paths : Paths} {fails : KeyPanic → Bool} {P E : Files → Prop}

theorem triple_attempt {site : KeyPanic} (h : ∀ files, P files → E files) :
    Triple P (attempt fails site) (fun _ => P) E :=
  triple_ite (fun _ => triple_fail h) (fun _ => triple_pure (fun _ hs => hs))

theorem triple_write {site : KeyPanic} {path : Path} {contents : Bytes} {Q : Unit → Files → Prop}
    (he : ∀ files, P files → E files) (hq : ∀ files, P files → Q () (files.insert path contents)) :
    Triple P (write fails site path contents) Q E :=
  triple_bind (triple_attempt he) (fun _ => triple_modify hq)

theorem triple_read {site : KeyPanic} {path : Path} (he : ∀ files, P files → E files) :
    Triple P (read fails site path)
      (fun contents files => P files ∧ files.lookup path = some contents) E := by
  refine triple_bind (triple_attempt he) (fun _ => ?_)
  refine triple_bind (R := fun seen files => P files ∧ files = seen)
    (triple_get (fun files hs => ⟨hs,rfl⟩)) (fun seen => ?_)
  cases hl : seen.lookup path with
  | none => exact triple_fail (fun files hs => he files hs.1)
  | some contents => exact triple_pure (fun files hs => ⟨hs.1,hs.2 ▸ hl⟩)

theorem triple_unlessExists {path : Path} {create : Program Files KeyPanic Unit}
    {Q : Unit → Files → Prop} (hq : ∀ files contents, P files →
      files.lookup path = some contents → Q () files)
    (hcreate : Triple (fun files => P files ∧ files.lookup path = none) create Q E) :
    Triple P (unlessExists path create) Q E := by
  refine triple_bind (R := fun seen files => P files ∧ files = seen)
    (triple_get (fun files hs => ⟨hs,rfl⟩)) (fun seen => ?_)
  refine triple_ite (fun hsome => ?_) (fun hnone => ?_)
  · obtain ⟨contents,hl⟩ := KeyMap.containsKey_iff.mp hsome
    exact triple_pure (fun files hs => hq files contents hs.1 (hs.2 ▸ hl))
  · refine triple_pre hcreate (fun files hs => ⟨hs.1,?_⟩)
    rw [hs.2]
    simpa [KeyMap.containsKey] using hnone

theorem sound_generated {files : Files} {k : c.PrivateKey}
    (hnone : files.lookup paths.verifying = none) :
    Sound c paths (files.insert paths.signing (c.privateKeyToPem k)) where
  parses privateKey h := by
    rw [AList.lookup_insert] at h
    exact ⟨k,Option.some.inj h ▸ c.private_pem k⟩
  paired privateKey publicKey _ h := by
    rw [AList.lookup_insert_ne paths.distinct.symm, hnone] at h
    cases h

theorem generateSigningKey_triple (fresh : c.PrivateKey) :
    Triple (fun files => (Sound c paths files ∧ SigningKept paths files) ∧
        files.lookup paths.signing = none)
      (generateSigningKey c paths fails fresh) (fun _ => Sound c paths) (Sound c paths) := by
  refine triple_bind (triple_attempt (fun files hs => hs.1.1)) (fun _ => ?_)
  refine triple_bind (triple_attempt (fun files hs => hs.1.1)) (fun _ => ?_)
  refine triple_bind (triple_attempt (fun files hs => hs.1.1)) (fun _ => ?_)
  refine triple_bind (R := fun _ => Sound c paths) (triple_write (fun files hs => hs.1.1)
    (fun files hs => sound_generated (hs.1.2 hs.2))) (fun _ => ?_)
  exact triple_attempt (fun files hs => hs)

theorem sound_derived {files : Files} {privateKey : Bytes} {k : c.PrivateKey}
    (hs : Sound c paths files) (hl : files.lookup paths.signing = some privateKey)
    (hk : c.privateKeyFromPem privateKey = some k) :
    Sound c paths (files.insert paths.verifying (c.publicKeyToPem (c.publicOf k))) where
  parses privateKey' h := by
    rw [AList.lookup_insert_ne paths.distinct] at h
    exact hs.parses privateKey' h
  paired privateKey' publicKey h hv := by
    rw [AList.lookup_insert_ne paths.distinct, hl] at h
    rw [AList.lookup_insert] at hv
    obtain rfl := Option.some.inj h
    obtain rfl := Option.some.inj hv
    exact ⟨k,hk,c.public_pem _⟩

theorem deriveVerifyingKey_triple (privateKey : Bytes) :
    Triple (fun files => (Sound c paths files ∧ files.lookup paths.signing = some privateKey) ∧
        files.lookup paths.verifying = none)
      (deriveVerifyingKey c paths fails privateKey)
      (fun _ files => Sound c paths files ∧ files.lookup paths.signing = some privateKey)
      (Sound c paths) := by
  refine triple_bind (triple_attempt (fun files hs => hs.1.1)) (fun _ => ?_)
  cases hk : c.privateKeyFromPem privateKey with
  | none => exact triple_fail (fun files hs => hs.1.1)
  | some k =>
    refine triple_bind (triple_attempt (fun files hs => hs.1.1)) (fun _ => ?_)
    refine triple_write (fun files hs => hs.1.1) (fun files hs => ⟨?_,?_⟩)
    · exact sound_derived hs.1.1 hs.1.2 hk
    · rw [AList.lookup_insert_ne paths.distinct]
      exact hs.1.2

theorem loadOrGenerateKeys_triple (fresh : c.PrivateKey) :
    Triple (fun files => Sound c paths files ∧ SigningKept paths files)
      (loadOrGenerateKeys c paths fails fresh)
      (fun keys files => Sound c paths files ∧ KeyPair c keys.1 keys.2) (Sound c paths) := by
  refine triple_bind (triple_unlessExists (fun files _ hs _ => hs.1)
    (generateSigningKey_triple fresh)) (fun _ => ?_)
  refine triple_bind (triple_read (fun files hs => hs)) (fun privateKey => ?_)
  refine triple_bind (triple_unlessExists (fun files _ hs _ => hs)
    (deriveVerifyingKey_triple privateKey)) (fun _ => ?_)
  refine triple_bind (triple_read (fun files hs => hs.1)) (fun publicKey => ?_)
  exact triple_pure (fun files hs => ⟨hs.1.1,hs.1.1.paired _ _ hs.1.2 hs.2⟩)

end Triples

structure State where
  files : Files
  returned : List (Bytes × Bytes)

def init : State := ⟨∅,[]⟩

inductive Action (c : Crypto) where
  | start (fresh : c.PrivateKey) (fails : KeyPanic → Bool)
  | deleteSigning
  | deleteVerifying

section Restarts

variable {c : Crypto} (paths : Paths)

def startStep (s : State) (fresh : c.PrivateKey) (fails : KeyPanic → Bool) : State :=
  match loadOrGenerateKeys c paths fails fresh s.files with
  | (.ok keys,files) => ⟨files,keys :: s.returned⟩
  | (.error _,files) => ⟨files,s.returned⟩

def step (s : State) : Action c → Option State
  | .start fresh fails => some (startStep paths s fresh fails)
  | .deleteSigning => some { s with files := s.files.erase paths.signing }
  | .deleteVerifying => some { s with files := s.files.erase paths.verifying }

def StartsWithSigningKept (s : State) : Action c → Prop
  | .start _ _ => SigningKept paths s.files
  | _ => True

instance (s : State) : ∀ a : Action c, Decidable (StartsWithSigningKept paths s a)
  | .start _ _ => inferInstanceAs (Decidable (SigningKept paths s.files))
  | .deleteSigning | .deleteVerifying => .isTrue trivial

variable {paths} {s t : State} {a : Action c}

structure Agrees (c : Crypto) (paths : Paths) (s : State) : Prop where
  sound : Sound c paths s.files
  returned : ∀ keys ∈ s.returned, KeyPair c keys.1 keys.2

theorem sound_erase {files : Files} (hs : Sound c paths files) (path : Path) :
    Sound c paths (files.erase path) where
  parses privateKey h := hs.parses privateKey (KeyMap.lookup_erase_some h).2
  paired privateKey publicKey h hv :=
    hs.paired privateKey publicKey (KeyMap.lookup_erase_some h).2 (KeyMap.lookup_erase_some hv).2

theorem agrees_start (hs : Agrees c paths s) (hkept : SigningKept paths s.files)
    (fresh : c.PrivateKey) (fails : KeyPanic → Bool) :
    Agrees c paths (startStep paths s fresh fails) := by
  have hload := @loadOrGenerateKeys_triple c paths fails fresh s.files ⟨hs.sound,hkept⟩
  unfold startStep
  generalize loadOrGenerateKeys c paths fails fresh s.files = outcome at hload ⊢
  obtain ⟨r,files⟩ := outcome
  cases r with
  | error panic => exact ⟨hload,hs.returned⟩
  | ok keys => exact ⟨hload.1,List.forall_mem_cons.mpr ⟨hload.2,hs.returned⟩⟩

theorem agrees_step (hs : Agrees c paths s) (hkept : StartsWithSigningKept paths s a)
    (hstep : step paths s a = some t) : Agrees c paths t := by
  cases a with
  | start fresh fails =>
    cases hstep
    exact agrees_start hs hkept fresh fails
  | deleteSigning =>
    cases hstep
    exact ⟨sound_erase hs.sound _,hs.returned⟩
  | deleteVerifying =>
    cases hstep
    exact ⟨sound_erase hs.sound _,hs.returned⟩

theorem agrees_init : Agrees c paths init where
  sound := ⟨fun privateKey h => by simp [init] at h,fun _ _ h => by simp [init] at h⟩
  returned keys h := by cases h

end Restarts

theorem returned_keys_pair_of_signing_kept (c : Crypto) (paths : Paths) (as : List (Action c))
    (s : State) (hrun : run (step paths) init as = some s)
    (hkept : Along (step paths) (StartsWithSigningKept paths) init as) :
    ∀ keys ∈ s.returned, KeyPair c keys.1 keys.2 ∧ ∀ message, ∃ k v,
      c.privateKeyFromPem keys.1 = some k ∧ c.publicKeyFromPem keys.2 = some v ∧
        c.verify v message (c.sign k message) = true := by
  have hagrees := run_invariant_along (I := Agrees c paths) (fun _ _ _ => agrees_step)
    agrees_init hkept hrun
  intro keys hkeys
  have hpair := hagrees.returned keys hkeys
  exact ⟨hpair,hpair.verifies⟩

section Example

def byteCrypto : Crypto where
  PrivateKey := UInt8
  PublicKey := UInt8
  publicOf k := k
  privateKeyToPem k := [0,k]
  privateKeyFromPem
    | [0,k] => some k
    | _ => none
  publicKeyToPem k := [1,k]
  publicKeyFromPem
    | [1,k] => some k
    | _ => none
  private_pem _ := rfl
  public_pem _ := rfl
  sign k m := k :: m
  verify k m sig := decide (sig = k :: m)
  verify_sign _ _ := decide_eq_true rfl

def keyPaths : Paths := ⟨"signing.pem","verifying.pem",by decide⟩

def startWith (k : UInt8) : Action byteCrypto := .start k (fun _ => false)

theorem deleted_signing_key_mismatch :
    ∃ s, run (step keyPaths) init [startWith 1,.deleteSigning,startWith 2] = some s ∧
      ∃ keys ∈ s.returned, ¬ KeyPair byteCrypto keys.1 keys.2 := by
  obtain ⟨s,hs,hr⟩ := exists_run_of_map (step keyPaths) init
    [startWith 1,.deleteSigning,startWith 2]
    (fun s => decide (s.returned = [([0,2],[1,1]),([0,1],[1,1])])) (by decide)
  refine ⟨s,hs,([0,2],[1,1]),by rw [of_decide_eq_true hr]; exact List.mem_cons_self,?_⟩
  rintro ⟨k,hk,hv⟩
  have hpriv : k = (2 : UInt8) := (Option.some.inj hk).symm
  have hpub : (1 : UInt8) = k := Option.some.inj hv
  exact absurd (hpub.trans hpriv) (by decide)

theorem both_keys_deleted_pair :
    ∃ s, run (step keyPaths) init [startWith 1,.deleteVerifying,startWith 2,.deleteSigning,
        .deleteVerifying,startWith 3] = some s ∧
      s.returned = [([0,3],[1,3]),([0,1],[1,1]),([0,1],[1,1])] ∧
      ∀ keys ∈ s.returned, KeyPair byteCrypto keys.1 keys.2 := by
  obtain ⟨s,hs,hr⟩ := exists_run_of_map (step keyPaths) init [startWith 1,.deleteVerifying,
      startWith 2,.deleteSigning,.deleteVerifying,startWith 3]
    (fun s => decide (s.returned = [([0,3],[1,3]),([0,1],[1,1]),([0,1],[1,1])])) (by decide)
  refine ⟨s,hs,of_decide_eq_true hr,fun keys hkeys => ?_⟩
  exact (returned_keys_pair_of_signing_kept byteCrypto keyPaths _ s hs (by decide) keys hkeys).1

end Example

end InertiaRelayer.Keys
