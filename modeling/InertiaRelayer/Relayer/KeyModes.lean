import InertiaRelayer.Relayer.Keys
import Mathlib.Logic.Function.Basic

namespace InertiaRelayer.KeyModes
open Machine Program
open Keys (Bytes Path Crypto Paths Files KeyPanic)

structure Disk where
  files : Files
  modes : Path → Nat

def Disk.chmod (d : Disk) (path : Path) (mode : Nat) : Disk :=
  { d with modes := Function.update d.modes path mode }

def ownerOnly : Nat := 0o600

section Load

variable (c : Crypto) (paths : Paths) (fails : KeyPanic → Bool) (created : Nat) {α : Type}

def onFiles (p : Program Files KeyPanic α) : Program Disk KeyPanic α := fun d =>
  ((p d.files).1,{ d with files := (p d.files).2 })

def write (site : KeyPanic) (path : Path) (contents : Bytes) : Program Disk KeyPanic Unit := do
  let before ← get
  onFiles (Keys.write fails site path contents)
  modify (fun d => if before.files.containsKey path then d else d.chmod path created)

def restrictPermissions (path : Path) : Program Disk KeyPanic Unit := do
  onFiles (Keys.restrictPermissions fails)
  modify (fun d => d.chmod path ownerOnly)

def generateSigningKey (fresh : c.PrivateKey) : Program Disk KeyPanic Unit := do
  onFiles (Keys.ensureParentDir fails)
  onFiles (Keys.attempt fails .generateSigningKey)
  onFiles (Keys.attempt fails .serializeSigningKey)
  write fails created .writeSigningKey paths.signing (c.privateKeyToPem fresh)
  restrictPermissions fails paths.signing

def deriveVerifyingKey (privateKey : Bytes) : Program Disk KeyPanic Unit := do
  onFiles (Keys.ensureParentDir fails)
  match c.privateKeyFromPem privateKey with
  | none => fail .parseSigningKey
  | some pkey => do
      onFiles (Keys.attempt fails .serializeVerifyingKey)
      write fails created .writeVerifyingKey paths.verifying (c.publicKeyToPem (c.publicOf pkey))

def unlessExists (path : Path) (create : Program Disk KeyPanic Unit) :
    Program Disk KeyPanic Unit := do
  let d ← get
  if d.files.containsKey path then pure () else create

def loadOrGenerateKeys (fresh : c.PrivateKey) : Program Disk KeyPanic (Bytes × Bytes) := do
  unlessExists paths.signing (generateSigningKey c paths fails created fresh)
  let privateKey ← onFiles (Keys.read fails .readSigningKey paths.signing)
  unlessExists paths.verifying (deriveVerifyingKey c paths fails created privateKey)
  let publicKey ← onFiles (Keys.read fails .readVerifyingKey paths.verifying)
  return (privateKey,publicKey)

end Load

section Refinement

variable {α β : Type}

def Lifted (p : Program Files KeyPanic α) (q : Program Disk KeyPanic α) : Prop :=
  ∀ d, (q d).1 = (p d.files).1 ∧ (q d).2.files = (p d.files).2

theorem lifted_onFiles (p : Program Files KeyPanic α) : Lifted p (onFiles p) := fun _ => ⟨rfl,rfl⟩

theorem lifted_bind {p : Program Files KeyPanic α} {q : Program Disk KeyPanic α}
    {f : α → Program Files KeyPanic β} {g : α → Program Disk KeyPanic β} (hp : Lifted p q)
    (hf : ∀ a, Lifted (f a) (g a)) : Lifted (p >>= f) (q >>= g) := by
  intro d
  obtain ⟨hresult,hfiles⟩ := hp d
  change (andThen q g d).1 = (andThen p f d.files).1 ∧
    (andThen q g d).2.files = (andThen p f d.files).2
  unfold andThen
  generalize q d = after at hresult hfiles ⊢
  generalize p d.files = before at hresult hfiles ⊢
  obtain ⟨r,e⟩ := after
  obtain ⟨r',files⟩ := before
  obtain rfl : r = r' := hresult
  obtain rfl : e.files = files := hfiles
  cases r with
  | error panic => exact ⟨rfl,rfl⟩
  | ok a => exact hf a e

theorem lifted_get {p : Program Files KeyPanic α} {q : Disk → Program Disk KeyPanic α}
    (h : ∀ d, Lifted p (q d)) : Lifted p (get >>= q) := fun d => h d d

theorem lifted_aside {p : Program Files KeyPanic Unit} {q : Program Disk KeyPanic Unit}
    {f : Disk → Disk} (hp : Lifted p q) (hf : ∀ d, (f d).files = d.files) :
    Lifted p (q >>= fun _ => modify f) := by
  intro d
  obtain ⟨hresult,hfiles⟩ := hp d
  change (andThen q (fun _ => modify f) d).1 = (p d.files).1 ∧
    (andThen q (fun _ => modify f) d).2.files = (p d.files).2
  unfold andThen
  rw [← hresult, ← hfiles]
  generalize q d = after
  obtain ⟨r,e⟩ := after
  cases r with
  | error panic => exact ⟨rfl,rfl⟩
  | ok a => exact ⟨rfl,hf e⟩

variable {c : Crypto} {paths : Paths} {fails : KeyPanic → Bool} {created : Nat}

theorem lifted_write (site : KeyPanic) (path : Path) (contents : Bytes) :
    Lifted (Keys.write fails site path contents) (write fails created site path contents) := by
  refine lifted_get (fun before => lifted_aside (lifted_onFiles _) (fun d => ?_))
  split
  · rfl
  · rfl

theorem lifted_restrict (path : Path) :
    Lifted (Keys.restrictPermissions fails) (restrictPermissions fails path) :=
  lifted_aside (lifted_onFiles _) (fun _ => rfl)

theorem lifted_generate (fresh : c.PrivateKey) :
    Lifted (Keys.generateSigningKey c paths fails fresh)
      (generateSigningKey c paths fails created fresh) := by
  refine lifted_bind (lifted_onFiles _) (fun _ => ?_)
  refine lifted_bind (lifted_onFiles _) (fun _ => ?_)
  refine lifted_bind (lifted_onFiles _) (fun _ => ?_)
  exact lifted_bind (lifted_write _ _ _) (fun _ => lifted_restrict _)

theorem lifted_derive (privateKey : Bytes) :
    Lifted (Keys.deriveVerifyingKey c paths fails privateKey)
      (deriveVerifyingKey c paths fails created privateKey) := by
  refine lifted_bind (lifted_onFiles _) (fun _ => ?_)
  cases c.privateKeyFromPem privateKey with
  | none => exact fun _ => ⟨rfl,rfl⟩
  | some pkey => exact lifted_bind (lifted_onFiles _) (fun _ => lifted_write _ _ _)

theorem lifted_unlessExists {path : Path} {p : Program Files KeyPanic Unit}
    {q : Program Disk KeyPanic Unit} (h : Lifted p q) :
    Lifted (Keys.unlessExists path p) (unlessExists path q) := by
  intro d
  change ((if d.files.containsKey path then pure () else q) d).1 =
      ((if d.files.containsKey path then pure () else p) d.files).1 ∧
    ((if d.files.containsKey path then pure () else q) d).2.files =
      ((if d.files.containsKey path then pure () else p) d.files).2
  split
  · exact ⟨rfl,rfl⟩
  · exact h d

theorem lifted_loadOrGenerateKeys (paths : Paths) (fails : KeyPanic → Bool) (created : Nat)
    (fresh : c.PrivateKey) :
    Lifted (Keys.loadOrGenerateKeys c paths fails fresh)
      (loadOrGenerateKeys c paths fails created fresh) := by
  refine lifted_bind (lifted_unlessExists (lifted_generate fresh)) (fun _ => ?_)
  refine lifted_bind (lifted_onFiles _) (fun privateKey => ?_)
  refine lifted_bind (lifted_unlessExists (lifted_derive privateKey)) (fun _ => ?_)
  exact lifted_bind (lifted_onFiles _) (fun _ _ => ⟨rfl,rfl⟩)

end Refinement

section Triples

variable {α : Type} {c : Crypto} {paths : Paths} {fails : KeyPanic → Bool} {created : Nat}
  {P E : Disk → Prop}

def Disk.written (created : Nat) (d : Disk) (path : Path) (contents : Bytes) : Disk :=
  if d.files.containsKey path then { d with files := d.files.insert path contents }
  else ({ d with files := d.files.insert path contents } : Disk).chmod path created

theorem triple_onFiles {p : Program Files KeyPanic α} (hp : ∀ files, (p files).2 = files)
    (he : ∀ d, P d → E d) : Triple P (onFiles p) (fun _ => P) E := by
  intro d hd
  have hsame : ({ d with files := (p d.files).2 } : Disk) = d := by rw [hp]
  unfold onFiles
  rw [hsame]
  cases (p d.files).1 with
  | error panic => exact he d hd
  | ok a => exact hd

theorem attempt_files (site : KeyPanic) (files : Files) :
    (Keys.attempt fails site files).2 = files := by
  unfold Keys.attempt
  split
  · rfl
  · rfl

theorem read_files (site : KeyPanic) (path : Path) (files : Files) :
    (Keys.read fails site path files).2 = files := by
  have hread := @Keys.triple_read fails (fun f => f = files) (fun f => f = files) site path
    (fun _ h => h) files rfl
  generalize Keys.read fails site path files = outcome at hread ⊢
  obtain ⟨r,after⟩ := outcome
  cases r with
  | error panic => exact hread
  | ok contents => exact hread.1

theorem write_eq (site : KeyPanic) (path : Path) (contents : Bytes) (d : Disk) :
    write fails created site path contents d =
      if fails site then (.error site,d) else (.ok (),d.written created path contents) := by
  change andThen (onFiles (Keys.write fails site path contents)) (fun _ => modify (fun e =>
    if d.files.containsKey path then e else e.chmod path created)) d = _
  cases hfails : fails site with
  | true =>
    have hwrite : Keys.write fails site path contents d.files = (.error site,d.files) := by
      change andThen (Keys.attempt fails site) _ d.files = _
      simp [andThen, Keys.attempt, hfails, fail]
    simp [andThen, onFiles, hwrite]
  | false =>
    have hwrite : Keys.write fails site path contents d.files =
        (.ok (),d.files.insert path contents) := by
      change andThen (Keys.attempt fails site) _ d.files = _
      simp [andThen, Keys.attempt, hfails, pure, ret, Program.modify]
    simp [andThen, onFiles, hwrite, Program.modify, Disk.written]

theorem triple_write {site : KeyPanic} {path : Path} {contents : Bytes} {Q : Unit → Disk → Prop}
    (he : ∀ d, P d → E d) (hq : ∀ d, P d → Q () (d.written created path contents)) :
    Triple P (write fails created site path contents) Q E := by
  intro d hd
  rw [write_eq]
  cases fails site with
  | true => exact he d hd
  | false => exact hq d hd

theorem restrictPermissions_eq (path : Path) (d : Disk) : restrictPermissions fails path d =
    if fails .setPermissions then (.error .setPermissions,d)
    else (.ok (),d.chmod path ownerOnly) := by
  change andThen (onFiles (Keys.restrictPermissions fails))
    (fun _ => modify (fun d => d.chmod path ownerOnly)) d = _
  cases hfails : fails .setPermissions with
  | true => simp [andThen, onFiles, Keys.restrictPermissions, Keys.attempt, hfails, fail]
  | false =>
    simp [andThen, onFiles, Keys.restrictPermissions, Keys.attempt, hfails, pure, ret, Program.modify]

theorem triple_restrict {path : Path} {Q : Unit → Disk → Prop}
    (hok : fails .setPermissions = false) (hq : ∀ d, P d → Q () (d.chmod path ownerOnly)) :
    Triple P (restrictPermissions fails path) Q E := by
  intro d hd
  rw [restrictPermissions_eq, hok]
  exact hq d hd

theorem triple_unlessExists {path : Path} {create : Program Disk KeyPanic Unit}
    (hcreate : Triple (fun d => P d ∧ d.files.lookup path = none) create (fun _ => P) E) :
    Triple P (unlessExists path create) (fun _ => P) E := by
  refine triple_bind (R := fun seen d => P d ∧ d = seen) (triple_get (fun d hd => ⟨hd,rfl⟩))
    (fun seen => triple_ite (fun _ => triple_pure (fun d hd => hd.1)) (fun hnone => ?_))
  refine triple_pre hcreate (fun d hd => ⟨hd.1,?_⟩)
  rw [hd.2]
  simpa [KeyMap.containsKey] using hnone

theorem triple_derive {privateKey : Bytes}
    (hP : ∀ d contents, P d → P (d.written created paths.verifying contents)) :
    Triple P (deriveVerifyingKey c paths fails created privateKey) (fun _ => P) P := by
  refine triple_bind (triple_onFiles (attempt_files _) (fun _ hd => hd)) (fun _ => ?_)
  cases c.privateKeyFromPem privateKey with
  | none => exact triple_fail (fun _ hd => hd)
  | some pkey =>
    refine triple_bind (triple_onFiles (attempt_files _) (fun _ hd => hd)) (fun _ => ?_)
    exact triple_write (fun _ hd => hd) (fun d hd => hP d _ hd)

theorem triple_load {fresh : c.PrivateKey}
    (hP : ∀ d contents, P d → P (d.written created paths.verifying contents))
    (hgenerate : Triple (fun d => P d ∧ d.files.lookup paths.signing = none)
      (generateSigningKey c paths fails created fresh) (fun _ => P) P) :
    Triple P (loadOrGenerateKeys c paths fails created fresh) (fun _ => P) P := by
  refine triple_bind (triple_unlessExists hgenerate) (fun _ => ?_)
  refine triple_bind (triple_onFiles (read_files _ _) (fun _ hd => hd)) (fun privateKey => ?_)
  refine triple_bind (triple_unlessExists ?_) (fun _ => ?_)
  · exact triple_pre (triple_derive hP) (fun _ hd => hd.1)
  · refine triple_bind (triple_onFiles (read_files _ _) (fun _ hd => hd)) (fun _ => ?_)
    exact triple_pure (fun _ hd => hd)

def Restricted (paths : Paths) (d : Disk) : Prop :=
  d.files.lookup paths.signing ≠ none → d.modes paths.signing = ownerOnly

structure Stored (paths : Paths) (contents : Bytes) (mode : Nat) (d : Disk) : Prop where
  contents : d.files.lookup paths.signing = some contents
  mode : d.modes paths.signing = mode

theorem written_verifying (paths : Paths) (created : Nat) (d : Disk) (contents : Bytes) :
    (d.written created paths.verifying contents).files.lookup paths.signing =
        d.files.lookup paths.signing ∧
      (d.written created paths.verifying contents).modes paths.signing =
        d.modes paths.signing := by
  unfold Disk.written
  split
  · exact ⟨AList.lookup_insert_ne paths.distinct,rfl⟩
  · exact ⟨AList.lookup_insert_ne paths.distinct,Function.update_of_ne paths.distinct _ _⟩

theorem restricted_load {fresh : c.PrivateKey} (hok : fails .setPermissions = false) :
    Triple (Restricted paths) (loadOrGenerateKeys c paths fails created fresh)
      (fun _ => Restricted paths) (Restricted paths) := by
  refine triple_load (fun d contents hd => ?_) ?_
  · obtain ⟨hlookup,hmode⟩ := written_verifying paths created d contents
    unfold Restricted
    rwa [hlookup, hmode]
  · refine triple_bind (triple_onFiles (attempt_files _) (fun _ hd => hd.1)) (fun _ => ?_)
    refine triple_bind (triple_onFiles (attempt_files _) (fun _ hd => hd.1)) (fun _ => ?_)
    refine triple_bind (triple_onFiles (attempt_files _) (fun _ hd => hd.1)) (fun _ => ?_)
    refine triple_bind (R := fun _ _ => True)
      (triple_write (fun _ hd => hd.1) (fun _ _ => trivial)) (fun _ => ?_)
    exact triple_restrict hok (fun d _ _ => Function.update_self ..)

theorem stored_load {fresh : c.PrivateKey} {contents : Bytes} {mode : Nat} :
    Triple (Stored paths contents mode) (loadOrGenerateKeys c paths fails created fresh)
      (fun _ => Stored paths contents mode) (Stored paths contents mode) := by
  refine triple_load (fun d other hd => ?_) (fun d hd => ?_)
  · obtain ⟨hlookup,hmode⟩ := written_verifying paths created d other
    exact ⟨hlookup.trans hd.contents,hmode.trans hd.mode⟩
  · cases hd.1.contents.symm.trans hd.2

end Triples

structure State where
  disk : Disk
  returned : List (Bytes × Bytes)

def init : State := ⟨⟨∅,fun _ => 0⟩,[]⟩

def State.keys (s : State) : Keys.State := ⟨s.disk.files,s.returned⟩

section Restarts

variable {c : Crypto} (paths : Paths) (created : Nat)

def startStep (s : State) (fresh : c.PrivateKey) (fails : KeyPanic → Bool) : State :=
  match loadOrGenerateKeys c paths fails created fresh s.disk with
  | (.ok keys,disk) => ⟨disk,keys :: s.returned⟩
  | (.error _,disk) => ⟨disk,s.returned⟩

def step (s : State) : Keys.Action c → Option State
  | .start fresh fails => some (startStep paths created s fresh fails)
  | .deleteSigning => some { s with disk := { s.disk with files := s.disk.files.erase paths.signing } }
  | .deleteVerifying =>
      some { s with disk := { s.disk with files := s.disk.files.erase paths.verifying } }

def Restricts (s : State) : Keys.Action c → Prop
  | .start _ fails => s.disk.files.lookup paths.signing ≠ none ∨ fails .setPermissions = false
  | _ => True

instance (s : State) : ∀ a : Keys.Action c, Decidable (Restricts paths s a)
  | .start _ fails => inferInstanceAs (Decidable
      (s.disk.files.lookup paths.signing ≠ none ∨ fails .setPermissions = false))
  | .deleteSigning | .deleteVerifying => .isTrue trivial

def Keeps (_ : State) : Keys.Action c → Prop
  | .deleteSigning => False
  | _ => True

instance (s : State) : ∀ a : Keys.Action c, Decidable (Keeps s a)
  | .start _ _ | .deleteVerifying => .isTrue trivial
  | .deleteSigning => .isFalse id

variable {paths created} {s t : State} {a : Keys.Action c}

theorem keys_step (hstep : step paths created s a = some t) :
    Keys.step paths s.keys a = some t.keys := by
  cases a with
  | start fresh fails =>
    cases hstep
    obtain ⟨hresult,hfiles⟩ := lifted_loadOrGenerateKeys paths fails created fresh s.disk
    simp only [Keys.step, Keys.startStep, startStep, State.keys]
    generalize loadOrGenerateKeys c paths fails created fresh s.disk = after at hresult hfiles ⊢
    generalize Keys.loadOrGenerateKeys c paths fails fresh s.disk.files = before at hresult hfiles ⊢
    obtain ⟨r,disk⟩ := after
    obtain ⟨r',files⟩ := before
    obtain rfl : r = r' := hresult
    obtain rfl : disk.files = files := hfiles
    cases r with
    | error panic => rfl
    | ok keys => rfl
  | deleteSigning =>
    cases hstep
    rfl
  | deleteVerifying =>
    cases hstep
    rfl

theorem startStep_triple {fresh : c.PrivateKey} {fails : KeyPanic → Bool} {P : Disk → Prop}
    (hload : Triple P (loadOrGenerateKeys c paths fails created fresh) (fun _ => P) P)
    (hs : P s.disk) : P (startStep paths created s fresh fails).disk := by
  have hafter := hload s.disk hs
  unfold startStep
  generalize loadOrGenerateKeys c paths fails created fresh s.disk = outcome at hafter ⊢
  obtain ⟨r,disk⟩ := outcome
  cases r with
  | error panic => exact hafter
  | ok keys => exact hafter

theorem stored_step {contents : Bytes} {mode : Nat} (hs : Stored paths contents mode s.disk)
    (ha : Keeps s a) (hstep : step paths created s a = some t) :
    Stored paths contents mode t.disk := by
  cases a with
  | start fresh fails =>
    cases hstep
    exact startStep_triple stored_load hs
  | deleteSigning => cases ha
  | deleteVerifying =>
    cases hstep
    exact ⟨(AList.lookup_erase_ne paths.distinct).trans hs.contents,hs.mode⟩

theorem restricted_step (hs : Restricted paths s.disk) (ha : Restricts paths s a)
    (hstep : step paths created s a = some t) : Restricted paths t.disk := by
  cases a with
  | start fresh fails =>
    cases hstep
    rcases ha with hexists | hok
    · obtain ⟨contents,hcontents⟩ := Option.ne_none_iff_exists'.mp hexists
      have hstored : Stored paths contents ownerOnly s.disk := ⟨hcontents,hs hexists⟩
      exact fun _ => (startStep_triple stored_load hstored).mode
    · exact startStep_triple (restricted_load hok) hs
  | deleteSigning =>
    cases hstep
    exact fun hne => absurd (AList.lookup_erase _ _) hne
  | deleteVerifying =>
    cases hstep
    intro hne
    exact hs (fun hnone => hne ((AList.lookup_erase_ne paths.distinct).trans hnone))

theorem signing_key_mode (paths : Paths) (created : Nat) (as : List (Keys.Action c)) (s : State)
    (hrun : run (step paths created) init as = some s) :
    Reachable (Keys.step (c := c) paths) Keys.init s.keys ∧
    (Along (step paths created) (Restricts paths) init as →
      s.disk.files.lookup paths.signing ≠ none → s.disk.modes paths.signing = ownerOnly) ∧
    ∀ contents (bs : List (Keys.Action c)) t, s.disk.files.lookup paths.signing = some contents →
      run (step paths created) s bs = some t → Along (step paths created) Keeps s bs →
      t.disk.files.lookup paths.signing = some contents ∧
        t.disk.modes paths.signing = s.disk.modes paths.signing := by
  refine ⟨?_,fun hc => ?_,fun contents bs t hcontents hbs hc => ?_⟩
  · refine reachable_simulation (I := fun _ => True) State.keys trivial (fun _ _ _ _ _ => trivial)
      (fun s a t _ hstep => ⟨[a],?_⟩) ⟨as,hrun⟩
    rw [run, keys_step hstep]
    rfl
  · have hinit : Restricted paths init.disk := fun hne => absurd rfl hne
    exact run_invariant_along (I := fun s => Restricted paths s.disk)
      (fun _ _ _ => restricted_step) hinit hc hrun
  · have hstored := run_invariant_along
      (I := fun u : State => Stored paths contents (s.disk.modes paths.signing) u.disk)
      (fun _ _ _ => stored_step) ⟨hcontents,rfl⟩ hc hbs
    exact ⟨hstored.contents,hstored.mode⟩

end Restarts

section Sample

open Keys (byteCrypto keyPaths startWith)

def startInterrupted (k : UInt8) : Keys.Action byteCrypto :=
  .start k (fun site => decide (site = .setPermissions))

theorem interrupted_key_stays_readable :
    ∃ s t, run (step keyPaths 0o644) init [startInterrupted 1] = some s ∧ s.returned = [] ∧
      run (step keyPaths 0o644) s [startWith 2,startWith 3] = some t ∧
      t.returned = [([0,1],[1,1]),([0,1],[1,1])] ∧ t.disk.modes keyPaths.signing = 0o644 := by
  obtain ⟨s,hs,hstate⟩ := exists_run_of_map (step keyPaths 0o644) init [startInterrupted 1]
    (fun s => decide (s.returned = [] ∧ s.disk.files.lookup keyPaths.signing = some [0,1] ∧
      s.disk.modes keyPaths.signing = 0o644 ∧
      ((run (step keyPaths 0o644) s [startWith 2,startWith 3]).map fun t =>
        decide (t.returned = [([0,1],[1,1]),([0,1],[1,1])])) = some true)) (by decide)
  obtain ⟨hnone,hcontents,hmode,hmore⟩ := of_decide_eq_true hstate
  obtain ⟨t,ht,hreturned⟩ := exists_run_of_map (step keyPaths 0o644) s [startWith 2,startWith 3]
    (fun t => decide (t.returned = [([0,1],[1,1]),([0,1],[1,1])])) hmore
  obtain ⟨_,_,hkept⟩ := signing_key_mode keyPaths 0o644 [startInterrupted 1] s hs
  obtain ⟨_,hsame⟩ := hkept [0,1] [startWith 2,startWith 3] t hcontents ht
    ⟨trivial,trivial,trivial⟩
  exact ⟨s,t,hs,hnone,ht,of_decide_eq_true hreturned,hsame.trans hmode⟩

end Sample

end InertiaRelayer.KeyModes
