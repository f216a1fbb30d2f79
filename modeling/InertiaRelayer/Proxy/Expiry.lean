import InertiaRelayer.Proxy.Withholding

namespace InertiaRelayer.Proxy
open Mutex

def SweptBy (map : Blocked) (start : Nat) : Prop :=
  ∀ sig stamp, map.lookup sig = some stamp → start < stamp + ttl

structure Swept (sh : Shared) : Prop where
  inserted : ∀ sig stamp, sh.map.lookup sig = some stamp → sh.inserted sig = some stamp
  le_now : ∀ start, sh.lastSweep = some start → start ≤ sh.now
  swept : ∀ start, sh.lastSweep = some start → SweptBy sh.map start

section Expiry

variable {π : Type} [PacketRef π]

structure Accounted (answer : Answer π) : Prop where
  output : answer.output = answer.input.filter answer.blocked
  inserted : ∀ sig stamp, answer.blocked.lookup sig = some stamp →
    answer.inserted sig = some stamp
  swept : ∀ start, answer.lastSweep = some start → SweptBy answer.blocked start

def SweptTask (sh : Shared) : Task π → Prop
  | .insertPutting _ stamp => ∀ start, sh.lastSweep = some start → start ≤ stamp
  | .sweepRetaining start todo => start ≤ sh.now ∧
      ∀ sig stamp, sh.map.lookup sig = some stamp → sig ∉ todo → start < stamp + ttl
  | .sweepStoring start => start ≤ sh.now ∧ SweptBy sh.map start
  | .sweepUnlocking start => start ≤ sh.now ∧ SweptBy sh.map start
  | .filterUnlocking answer => Accounted answer
  | .filterReturning answer => Accounted answer
  | _ => True

def AccountedRelease (r : Release π) : Prop := Accounted r.answer

variable {sh sh' : Shared} {task : Task π} {m : Move π}
  {o : Outcome Shared (Task π) (Release π)}

theorem sweptTask_others (hc : task.critical = false) (ht : SweptTask sh task) :
    SweptTask sh' task := by
  cases task with
  | filterReturning answer => exact ht
  | insertPutting => cases hc
  | sweepRetaining => cases hc
  | sweepStoring => cases hc
  | sweepUnlocking => cases hc
  | filterUnlocking => cases hc
  | _ => trivial

theorem swept_put (hs : Swept sh) {sig : Signature} {stamp : Nat}
    (hstamp : ∀ start, sh.lastSweep = some start → start ≤ stamp) : Swept (sh.put sig stamp) where
  inserted s st h := by
    rcases KeyMap.lookup_insert_cases h with ⟨rfl,rfl⟩ | ⟨hne,h⟩
    · simp [Shared.put]
    · simpa [Shared.put, Function.update_of_ne hne] using hs.inserted s st h
  le_now := hs.le_now
  swept start hstart s st h := by
    rcases KeyMap.lookup_insert_cases h with ⟨_,rfl⟩ | ⟨_,h⟩
    · have hle := hstamp start hstart
      simp only [ttl]
      omega
    · exact hs.swept start hstart s st h

theorem swept_retainOne (hs : Swept sh) (sig : Signature) : Swept (sh.retainOne sig) := by
  rw [retainOne_eq]
  refine ⟨?_,hs.le_now,?_⟩
  · intro s st h
    exact hs.inserted s st (lookup_retainOne.mp h).1
  · intro start hstart s st h
    exact hs.swept start hstart s st (lookup_retainOne.mp h).1

theorem retained_cons {start : Nat} {sig : Signature} {todo : List Signature}
    (ht : SweptTask sh (.sweepRetaining start (sig :: todo) : Task π)) :
    SweptTask (sh.retainOne sig) (.sweepRetaining start todo : Task π) := by
  obtain ⟨hle,hdone⟩ := ht
  refine ⟨by rwa [retainOne_now],?_⟩
  intro s stamp h hm
  obtain ⟨hold,hfresh⟩ := lookup_retainOne.mp h
  by_cases heq : s = sig
  · have hlt := hfresh heq
    simp only [ttl] at hlt ⊢
    omega
  · exact hdone s stamp hold (fun hmem => by
      rcases List.mem_cons.mp hmem with h | h
      · exact heq h
      · exact hm h)

theorem accounted_filtered (hs : Swept sh) (item : Item π) (before : Signature → Option Nat) :
    Accounted (sh.filtered item before) :=
  ⟨rfl,hs.inserted,hs.swept⟩

theorem accounted_unfiltered (item : Item π) (before : Signature → Option Nat) :
    Accounted (sh.unfiltered item before) :=
  ⟨(filter_empty item).symm,nofun,nofun⟩

theorem swept_advance (hs : Swept sh) (ht : SweptTask sh task) (h : advance sh task = some o) :
    Preserves Task.critical Swept SweptTask AccountedRelease sh o := by
  cases task with
  | idle => cases h
  | insertLocking sig => cases h; exact preserves_same hs trivial
  | insertStamping sig => cases h; exact preserves_same hs hs.le_now
  | insertPutting sig stamp =>
    cases h
    exact preserves_silent (swept_put hs ht) trivial (fun _ => sweptTask_others)
  | insertStoring sig stamp =>
    cases h
    exact preserves_silent ⟨hs.inserted,hs.le_now,hs.swept⟩ trivial (fun _ => sweptTask_others)
  | insertUnlocking sig stamp =>
    cases h
    exact preserves_silent ⟨hs.inserted,hs.le_now,hs.swept⟩ trivial (fun _ => sweptTask_others)
  | sweepLoading =>
    cases h
    refine preserves_same hs ?_
    split <;> trivial
  | sweepLocking => cases h; exact preserves_same hs trivial
  | sweepStarting => cases h
  | sweepRetaining start todo =>
    cases todo with
    | nil =>
      cases h
      exact preserves_same hs ⟨ht.1,fun sig stamp hl => ht.2 sig stamp hl (by simp)⟩
    | cons sig todo =>
      cases h
      exact preserves_silent (swept_retainOne hs sig) (retained_cons ht)
        (fun _ => sweptTask_others)
  | sweepStoring start =>
    cases h
    exact preserves_silent ⟨hs.inserted,hs.le_now,hs.swept⟩ ht (fun _ => sweptTask_others)
  | sweepUnlocking start =>
    cases h
    obtain ⟨hle,hswept⟩ := ht
    refine preserves_silent ⟨hs.inserted,?_,?_⟩ trivial (fun _ => sweptTask_others)
    · intro w hw
      cases hw
      exact hle
    · intro w hw
      cases hw
      exact hswept
  | filterLoading item before =>
    cases h
    refine preserves_same hs ?_
    split
    · trivial
    · exact accounted_unfiltered item before
  | filterLocking item before => cases h; exact preserves_same hs trivial
  | filterHolding item before =>
    cases h
    exact preserves_same hs (accounted_filtered hs item before)
  | filterUnlocking answer => cases h; exact preserves_event hs trivial ht
  | filterReturning answer => cases h; exact preserves_event hs trivial ht

theorem sweptTask_start (sh : Shared) (call : Call π) : SweptTask sh (call.start sh) := by
  cases call with
  | ingestFilter bytes =>
    simp only [Call.start]
    split <;> trivial
  | sweep => trivial
  | release item => trivial

theorem swept_outcome (hs : Swept sh) (ht : SweptTask sh task) (h : outcome sh task m = some o) :
    Preserves Task.critical Swept SweptTask AccountedRelease sh o := by
  rcases outcome_cases h with ⟨call,rfl,rfl⟩ | ⟨order,rfl,hperm,rfl⟩ | h
  · exact preserves_same hs (sweptTask_start sh call)
  · refine preserves_same hs ⟨le_rfl,?_⟩
    intro sig stamp hl hm
    have hkey : sig ∈ sh.map.keys := AList.mem_keys.mpr (AList.lookup_isSome.mp (by simp [hl]))
    exact absurd (hperm.symm.subset hkey) hm
  · exact swept_advance hs ht h

theorem sweptTask_tick (elapsed : Nat) (ht : SweptTask sh task) :
    SweptTask (sh.tick elapsed) task := by
  cases task with
  | sweepRetaining start todo => exact ⟨Nat.le_add_right_of_le ht.1,ht.2⟩
  | sweepStoring start => exact ⟨Nat.le_add_right_of_le ht.1,ht.2⟩
  | sweepUnlocking start => exact ⟨Nat.le_add_right_of_le ht.1,ht.2⟩
  | insertPutting sig stamp => exact ht
  | filterUnlocking answer => exact ht
  | filterReturning answer => exact ht
  | _ => trivial

theorem swept_tick (elapsed : Nat) (hs : Swept sh) : Swept (sh.tick elapsed) where
  inserted := hs.inserted
  le_now start h := Nat.le_add_right_of_le (hs.le_now start h)
  swept := hs.swept

def WithheldBecause (r : Release π) (sig : Signature) : Prop :=
  sig ∈ r.answer.input.signatures ∧ r.answer.blocked.containsKey sig = true

def Expires (r : Release π) : Prop :=
  ∀ sig stamp, WithheldBecause r sig → r.answer.inserted sig = some stamp →
    r.finish - stamp < ttl

theorem accounted_run {as : List (Action π)} {s : State π}
    (hrun : Machine.run step init as = some s) {r : Release π} (hr : r ∈ s.log) :
    Accounted r.answer := by
  have hs : Guarded Task.critical Swept SweptTask AccountedRelease s :=
    guarded_run ⟨nofun,nofun,nofun⟩ trivial (fun _ elapsed => swept_tick elapsed)
      (fun _ elapsed _ => sweptTask_tick elapsed) (fun _ _ _ _ => swept_outcome) hrun
  exact hs.log r hr

theorem withheld_since_last_sweep (as : List (Action π)) (s : State π)
    (hrun : Machine.run step init as = some s) (r : Release π) (hr : r ∈ s.log) :
    r.answer.output = r.answer.input.filter r.answer.blocked ∧
    ∀ sig, WithheldBecause r sig → ∃ stamp, r.answer.inserted sig = some stamp ∧
      ∀ start, r.answer.lastSweep = some start → start - stamp < ttl := by
  have ha := accounted_run hrun hr
  refine ⟨ha.output,?_⟩
  rintro sig ⟨_,hblocked⟩
  obtain ⟨stamp,hstamp⟩ := KeyMap.containsKey_iff.mp hblocked
  refine ⟨stamp,ha.inserted sig stamp hstamp,?_⟩
  intro start hstart
  have hlt := ha.swept start hstart sig stamp hstamp
  simp only [ttl] at hlt ⊢
  omega

end Expiry

section Sample

def staleRelease : List (Action Packet) :=
  insertRun ++ .tick 1950000000 :: sweepRun ++ .tick 60000000 :: releaseRun

def withheldAt (finish : Nat) (s : State Packet) : Bool :=
  match s.log with
  | [r] => decide (blockedSignature ∈ r.answer.input.signatures ∧
      r.answer.blocked.containsKey blockedSignature = true ∧
      r.answer.inserted blockedSignature = some 0 ∧ r.finish = finish ∧
      r.answer.output = .packets ⟨none,some ⟨[otherPacket]⟩⟩)
  | _ => false

theorem withheldAt_log {finish : Nat} {s : State Packet} (h : withheldAt finish s = true) :
    ∃ r ∈ s.log, WithheldBecause r blockedSignature ∧
      r.answer.inserted blockedSignature = some 0 ∧ r.finish = finish ∧
      r.answer.output = .packets ⟨none,some ⟨[otherPacket]⟩⟩ := by
  unfold withheldAt at h
  split at h
  · rename_i r hlog
    obtain ⟨hsig,hblocked,hrest⟩ := of_decide_eq_true h
    exact ⟨r,by simp [hlog],⟨hsig,hblocked⟩,hrest⟩
  · cases h

theorem expired_signature_withheld :
    ∃ s r, Machine.run step init staleRelease = some s ∧ r ∈ s.log ∧
      r.answer.output = .packets ⟨none,some ⟨[otherPacket]⟩⟩ ∧ ¬ Expires r := by
  obtain ⟨s,hs,hw⟩ := Machine.exists_run_of_map step init staleRelease (withheldAt 2010000000)
    (by decide +kernel)
  obtain ⟨r,hr,hbecause,hinserted,hfinish,houtput⟩ := withheldAt_log hw
  refine ⟨s,r,hs,hr,houtput,?_⟩
  intro hexpires
  have hlt := hexpires blockedSignature 0 hbecause hinserted
  simp [hfinish, ttl] at hlt

theorem swept_release_accounted :
    ∃ s r, Machine.run step init freshRelease = some s ∧ r ∈ s.log ∧
      WithheldBecause r blockedSignature ∧
      ∃ stamp, r.answer.inserted blockedSignature = some stamp ∧
        ∀ start, r.answer.lastSweep = some start → start - stamp < ttl := by
  obtain ⟨s,hs,hw⟩ := Machine.exists_run_of_map step init freshRelease (withheldAt 1990000000)
    (by decide +kernel)
  obtain ⟨r,hr,hbecause,_⟩ := withheldAt_log hw
  exact ⟨s,r,hs,hr,hbecause,
    (withheld_since_last_sweep _ s hs r hr).2 blockedSignature hbecause⟩

end Sample

end InertiaRelayer.Proxy
