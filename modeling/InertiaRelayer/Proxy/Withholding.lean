import InertiaRelayer.Proxy.FilterSet

namespace InertiaRelayer.Proxy
open Mutex

structure Kept (sh : Shared) : Prop where
  latest_le : ∀ sig t0, sh.latest sig = some t0 → t0 ≤ sh.now
  stamp_le : ∀ sig stamp, sh.map.lookup sig = some stamp → stamp ≤ sh.now
  kept : ∀ sig t0, sh.latest sig = some t0 → sh.now < t0 + ttl →
    ∃ stamp, sh.map.lookup sig = some stamp ∧ t0 ≤ stamp
  counted : ∀ sig t0, sh.latest sig = some t0 → sh.now < t0 + ttl → 0 < sh.len

def Since (sh : Shared) (before : Signature → Option Nat) : Prop :=
  ∀ sig t0, before sig = some t0 → ∃ t1, sh.latest sig = some t1 ∧ t0 ≤ t1

structure Stamped (sh : Shared) (stamp : Nat) : Prop where
  le_now : stamp ≤ sh.now
  latest_le : ∀ sig t0, sh.latest sig = some t0 → t0 ≤ stamp

section Withholding

variable {π : Type} [PacketRef π]

def WithholdsUntil (answer : Answer π) (now : Nat) : Prop :=
  ∀ sig t0, answer.before sig = some t0 → now < t0 + ttl →
    Withholds sig answer.input answer.output

def KeptTask (sh : Shared) : Task π → Prop
  | .insertPutting _ stamp => Stamped sh stamp ∧
      ∀ sig st, sh.map.lookup sig = some st → st ≤ stamp
  | .insertStoring sig stamp => Stamped sh stamp ∧ sh.map.lookup sig = some stamp
  | .insertUnlocking sig stamp => Stamped sh stamp ∧ sh.map.lookup sig = some stamp ∧ 0 < sh.len
  | .filterLoading _ before => Since sh before
  | .filterLocking _ before => Since sh before
  | .filterHolding _ before => Since sh before
  | .filterUnlocking answer => WithholdsUntil answer sh.now
  | .filterReturning answer => WithholdsUntil answer sh.now
  | _ => True

def Withheld (r : Release π) : Prop := WithholdsUntil r.answer r.finish

variable {sh sh' : Shared} {task : Task π} {m : Move π}
  {o : Outcome Shared (Task π) (Release π)}

theorem since_trans {before : Signature → Option Nat} (hb : Since sh before)
    (h : Since sh' sh.latest) : Since sh' before := by
  intro sig t0 ht
  obtain ⟨t1,h1,hle⟩ := hb sig t0 ht
  obtain ⟨t2,h2,hle'⟩ := h sig t1 h1
  exact ⟨t2,h2,hle.trans hle'⟩

theorem since_latest (sh : Shared) : Since sh sh.latest := fun _ t0 ht => ⟨t0,ht,le_rfl⟩

theorem withholdsUntil_mono {answer : Answer π} {now later : Nat}
    (h : WithholdsUntil answer now) (hle : now ≤ later) : WithholdsUntil answer later :=
  fun sig t0 ht hlt => h sig t0 ht (by omega)

theorem keptTask_others (hsince : Since sh' sh.latest) (hnow : sh'.now = sh.now)
    (hc : task.critical = false) (ht : KeptTask sh task) : KeptTask sh' task := by
  cases task with
  | filterLoading item before => exact since_trans ht hsince
  | filterLocking item before => exact since_trans ht hsince
  | filterReturning answer => exact withholdsUntil_mono ht hnow.ge
  | insertPutting => cases hc
  | insertStoring => cases hc
  | insertUnlocking => cases hc
  | filterHolding => cases hc
  | filterUnlocking => cases hc
  | _ => trivial

theorem kept_put (hs : Kept sh) {sig : Signature} {stamp : Nat} (hstamp : Stamped sh stamp)
    (hmap : ∀ sig st, sh.map.lookup sig = some st → st ≤ stamp) : Kept (sh.put sig stamp) where
  latest_le := hs.latest_le
  stamp_le s st h := by
    rcases KeyMap.lookup_insert_cases h with ⟨_,rfl⟩ | ⟨_,h⟩
    · exact hstamp.le_now
    · exact hs.stamp_le s st h
  kept s t0 hlatest hlt := by
    obtain ⟨st,hst,hle⟩ := hs.kept s t0 hlatest hlt
    by_cases heq : s = sig
    · subst heq
      exact ⟨stamp,AList.lookup_insert _,hle.trans (hmap s st hst)⟩
    · exact ⟨st,(AList.lookup_insert_ne heq).trans hst,hle⟩
  counted := hs.counted

theorem kept_storeLen (hs : Kept sh) : Kept sh.storeLen where
  latest_le := hs.latest_le
  stamp_le := hs.stamp_le
  kept := hs.kept
  counted s t0 hlatest hlt := by
    obtain ⟨st,hst,_⟩ := hs.kept s t0 hlatest hlt
    exact KeyMap.size_pos_of_lookup hst

theorem kept_complete (hs : Kept sh) {sig : Signature} {stamp : Nat} (hstamp : Stamped sh stamp)
    (hmap : sh.map.lookup sig = some stamp) (hlen : 0 < sh.len) :
    Kept (sh.complete sig stamp) := by
  have hcases (s : Signature) (t0 : Nat) (h : (sh.complete sig stamp).latest s = some t0) :
      (s = sig ∧ t0 = stamp) ∨ sh.latest s = some t0 := by
    by_cases heq : s = sig
    · subst heq
      simp only [Shared.complete, Function.update_self] at h
      exact .inl ⟨rfl,(Option.some.inj h).symm⟩
    · simp only [Shared.complete, Function.update_of_ne heq] at h
      exact .inr h
  refine ⟨?_,hs.stamp_le,?_,?_⟩
  · intro s t0 h
    rcases hcases s t0 h with ⟨_,rfl⟩ | h
    · exact hstamp.le_now
    · exact hs.latest_le s t0 h
  · intro s t0 h hlt
    rcases hcases s t0 h with ⟨rfl,rfl⟩ | h
    · exact ⟨t0,hmap,le_rfl⟩
    · exact hs.kept s t0 h hlt
  · intro s t0 h hlt
    rcases hcases s t0 h with _ | h
    · exact hlen
    · exact hs.counted s t0 h hlt

theorem since_complete {sig : Signature} {stamp : Nat} (hstamp : Stamped sh stamp) :
    Since (sh.complete sig stamp) sh.latest := by
  intro s t0 h
  by_cases heq : s = sig
  · subst heq
    exact ⟨stamp,by simp [Shared.complete],hstamp.latest_le s t0 h⟩
  · exact ⟨t0,by simpa [Shared.complete, Function.update_of_ne heq] using h,le_rfl⟩

theorem kept_retainOne (hs : Kept sh) (sig : Signature) : Kept (sh.retainOne sig) := by
  rw [retainOne_eq]
  refine ⟨hs.latest_le,?_,?_,hs.counted⟩
  · intro s st h
    exact hs.stamp_le s st (lookup_retainOne.mp h).1
  · intro s t0 h hlt
    obtain ⟨st,hst,hle⟩ := hs.kept s t0 h hlt
    refine ⟨st,lookup_retainOne.mpr ⟨hst,fun _ => ?_⟩,hle⟩
    simp only [ttl] at hlt ⊢
    omega

theorem withholds_locked (hs : Kept sh) {item : Item π} {before : Signature → Option Nat}
    (hb : Since sh before) : WithholdsUntil (sh.filtered item before) sh.now := by
  intro sig t0 ht hlt
  obtain ⟨t1,h1,hle⟩ := hb sig t0 ht
  obtain ⟨stamp,hst,_⟩ := hs.kept sig t1 h1 (by omega)
  exact withholds_filter (KeyMap.containsKey_iff.mpr ⟨stamp,hst⟩) item

theorem withholds_empty (hs : Kept sh) {item : Item π} {before : Signature → Option Nat}
    (hb : Since sh before) (hempty : sh.isEmpty = true) :
    WithholdsUntil (sh.unfiltered item before) sh.now := by
  intro sig t0 ht hlt
  obtain ⟨t1,h1,hle⟩ := hb sig t0 ht
  have hpos := hs.counted sig t1 h1 (by omega)
  simp only [Shared.isEmpty, beq_iff_eq] at hempty
  omega

theorem withholds_unlocked {item : Item π} {before : Signature → Option Nat}
    (hl : item.locks = false) (now : Nat) : WithholdsUntil (sh.unfiltered item before) now := by
  intro sig t0 _ _
  cases item with
  | packets resp =>
    intro batch hbatch
    simp only [Item.locks, Option.isSome_eq_false_iff, Option.isNone_iff_eq_none] at hl
    cases hl.symm.trans hbatch
  | banking => cases hl
  | bundles => cases hl

theorem withholds_loading (hs : Kept sh) {item : Item π} {before : Signature → Option Nat}
    (hb : Since sh before) : KeptTask sh
      (if !sh.isEmpty && item.locks then Task.filterLocking item before
        else .filterReturning (sh.unfiltered item before)) := by
  split
  · exact hb
  · rename_i hskip
    cases hempty : sh.isEmpty with
    | true => exact withholds_empty hs hb hempty
    | false =>
      cases hl : item.locks with
      | false => exact withholds_unlocked hl sh.now
      | true => simp [hempty, hl] at hskip

theorem kept_advance (hs : Kept sh) (ht : KeptTask sh task) (h : advance sh task = some o) :
    Preserves Task.critical Kept KeptTask Withheld sh o := by
  cases task with
  | idle => cases h
  | insertLocking sig => cases h; exact preserves_same hs trivial
  | insertStamping sig =>
    cases h
    exact preserves_same hs ⟨⟨le_rfl,hs.latest_le⟩,hs.stamp_le⟩
  | insertPutting sig stamp =>
    cases h
    obtain ⟨hstamp,hmap⟩ := ht
    exact preserves_silent (kept_put hs hstamp hmap)
      ⟨⟨hstamp.le_now,hstamp.latest_le⟩,AList.lookup_insert _⟩
      (fun _ => keptTask_others (since_latest sh) rfl)
  | insertStoring sig stamp =>
    cases h
    obtain ⟨hstamp,hmap⟩ := ht
    exact preserves_silent (kept_storeLen hs)
      ⟨⟨hstamp.le_now,hstamp.latest_le⟩,hmap,KeyMap.size_pos_of_lookup hmap⟩
      (fun _ => keptTask_others (since_latest sh) rfl)
  | insertUnlocking sig stamp =>
    cases h
    obtain ⟨hstamp,hmap,hlen⟩ := ht
    exact preserves_silent (kept_complete hs hstamp hmap hlen) trivial
      (fun _ => keptTask_others (since_complete hstamp) rfl)
  | sweepLoading =>
    cases h
    refine preserves_same hs ?_
    split <;> trivial
  | sweepLocking => cases h; exact preserves_same hs trivial
  | sweepStarting => cases h
  | sweepRetaining start todo =>
    cases todo with
    | nil => cases h; exact preserves_same hs trivial
    | cons sig todo =>
      cases h
      refine preserves_silent (kept_retainOne hs sig) trivial
        (fun _ => keptTask_others ?_ (retainOne_now sh sig))
      rw [retainOne_eq]
      exact since_latest sh
  | sweepStoring start =>
    cases h
    exact preserves_silent (kept_storeLen hs) trivial
      (fun _ => keptTask_others (since_latest sh) rfl)
  | sweepUnlocking start =>
    cases h
    exact preserves_silent ⟨hs.latest_le,hs.stamp_le,hs.kept,hs.counted⟩ trivial
      (fun _ => keptTask_others (since_latest sh) rfl)
  | filterLoading item before => cases h; exact preserves_same hs (withholds_loading hs ht)
  | filterLocking item before => cases h; exact preserves_same hs ht
  | filterHolding item before => cases h; exact preserves_same hs (withholds_locked hs ht)
  | filterUnlocking answer => cases h; exact preserves_event hs trivial ht
  | filterReturning answer => cases h; exact preserves_event hs trivial ht

theorem keptTask_start (sh : Shared) (call : Call π) : KeptTask sh (call.start sh) := by
  cases call with
  | ingestFilter bytes =>
    simp only [Call.start]
    split <;> trivial
  | sweep => trivial
  | release item => exact since_latest sh

theorem kept_outcome (hs : Kept sh) (ht : KeptTask sh task) (h : outcome sh task m = some o) :
    Preserves Task.critical Kept KeptTask Withheld sh o := by
  rcases outcome_cases h with ⟨call,rfl,rfl⟩ | ⟨order,rfl,_,rfl⟩ | h
  · exact preserves_same hs (keptTask_start sh call)
  · exact preserves_same hs trivial
  · exact kept_advance hs ht h

theorem kept_tick (elapsed : Nat) (hs : Kept sh) : Kept (sh.tick elapsed) where
  latest_le sig t0 h := Nat.le_add_right_of_le (hs.latest_le sig t0 h)
  stamp_le sig stamp h := Nat.le_add_right_of_le (hs.stamp_le sig stamp h)
  kept sig t0 h hlt := hs.kept sig t0 h (Nat.lt_of_le_of_lt (Nat.le_add_right _ _) hlt)
  counted sig t0 h hlt := hs.counted sig t0 h (Nat.lt_of_le_of_lt (Nat.le_add_right _ _) hlt)

theorem keptTask_tick (elapsed : Nat) (ht : KeptTask sh task) :
    KeptTask (sh.tick elapsed) task := by
  have hstamped {stamp : Nat} (h : Stamped sh stamp) : Stamped (sh.tick elapsed) stamp :=
    ⟨Nat.le_add_right_of_le h.le_now,h.latest_le⟩
  cases task with
  | insertPutting sig stamp => exact ⟨hstamped ht.1,ht.2⟩
  | insertStoring sig stamp => exact ⟨hstamped ht.1,ht.2⟩
  | insertUnlocking sig stamp => exact ⟨hstamped ht.1,ht.2⟩
  | filterUnlocking answer => exact withholdsUntil_mono ht (Nat.le_add_right _ _)
  | filterReturning answer => exact withholdsUntil_mono ht (Nat.le_add_right _ _)
  | filterLoading item before => exact ht
  | filterLocking item before => exact ht
  | filterHolding item before => exact ht
  | _ => trivial

theorem recent_filters_withhold (as : List (Action π)) (s : State π)
    (hrun : Machine.run step init as = some s) (r : Release π) (hr : r ∈ s.log)
    (sig : Signature) (t0 : Nat) (hbefore : r.answer.before sig = some t0)
    (hfresh : r.finish - t0 < ttl) : Withholds sig r.answer.input r.answer.output := by
  have hs : Guarded Task.critical Kept KeptTask Withheld s :=
    guarded_run ⟨nofun,nofun,nofun,nofun⟩ trivial (fun _ elapsed => kept_tick elapsed)
      (fun _ elapsed _ => keptTask_tick elapsed) (fun _ _ _ _ => kept_outcome) hrun
  exact hs.log r hr sig t0 hbefore (by simp only [ttl] at *; omega)

end Withholding

section Sample

def blockedSignature : Signature := ⟨List.replicate 64 7,by decide⟩

def filterDatagram : List UInt8 := filterTag :: blockedSignature.bytes

def blockedPacket : ProtoPacket := ⟨1 :: blockedSignature.bytes,none⟩

def otherPacket : ProtoPacket := ⟨1 :: List.replicate 64 8,none⟩

def packetsResponse : SubscribePacketsResponse := ⟨none,some ⟨[blockedPacket,otherPacket]⟩⟩

def advances (h n : Nat) : List (Action Packet) := List.replicate n (.move h .advance)

def insertRun : List (Action Packet) :=
  .move 0 (.call (.ingestFilter filterDatagram)) :: advances 0 5

def sweepRun : List (Action Packet) :=
  .move 1 (.call .sweep) :: advances 1 2 ++ .move 1 (.retain [blockedSignature]) :: advances 1 4

def releaseRun : List (Action Packet) :=
  .move 2 (.call (.release (.packets packetsResponse))) :: advances 2 4

def freshRelease : List (Action Packet) :=
  insertRun ++ .tick 1950000000 :: sweepRun ++ .tick 40000000 :: releaseRun

def recentlyInserted (s : State Packet) : Bool :=
  match s.log with
  | [r] => decide (r.answer.before blockedSignature = some 0 ∧ r.finish - 0 < ttl)
  | _ => false

theorem swept_signature_withheld :
    ∃ s r, Machine.run step init freshRelease = some s ∧ s.log = [r] ∧
      Withholds blockedSignature r.answer.input r.answer.output := by
  obtain ⟨s,hs,hr⟩ := Machine.exists_run_of_map step init freshRelease recentlyInserted
    (by decide +kernel)
  unfold recentlyInserted at hr
  split at hr
  · rename_i r hlog
    obtain ⟨hbefore,hfresh⟩ := of_decide_eq_true hr
    exact ⟨s,r,hs,hlog,
      recent_filters_withhold _ s hs r (by simp [hlog]) blockedSignature 0 hbefore hfresh⟩
  · cases hr

end Sample

end InertiaRelayer.Proxy
