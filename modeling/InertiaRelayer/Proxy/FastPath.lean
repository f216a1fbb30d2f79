import InertiaRelayer.Proxy.Withholding

namespace InertiaRelayer.Proxy
open Machine Mutex

section Recording

variable {π : Type}

def Task.storesLen : Task π → Bool
  | .insertStoring _ _ => true
  | .sweepStoring _ => true
  | _ => false

def Task.dirty : Task π → Bool
  | .insertStoring _ _ => true
  | .sweepRetaining _ _ => true
  | .sweepStoring _ => true
  | _ => false

structure Record (π : Type) where
  published : Blocked
  window : Nat → List Blocked
  results : List (Release π × List Blocked)

def Record.init : Record π := ⟨∅,fun _ => [],[]⟩

def Record.publish (g : Record π) (map : Blocked) : Record π :=
  { g with published := map, window := fun k => map :: g.window k }

def Record.enter (g : Record π) (h : Nat) : Record π :=
  { g with window := Function.update g.window h [g.published] }

def Record.finish (g : Record π) (h : Nat) (releases : List (Release π)) : Record π :=
  { g with results := releases.map (fun r => (r,g.window h)) ++ g.results }

def Record.observe (g : Record π) (s : State π) (a : Action π) (t : State π) : Record π :=
  match a with
  | .tick _ => g
  | .move h m =>
      if (s.tasks h).storesLen then g.publish t.shared.map
      else
        match m with
        | .call _ => g.enter h
        | _ => g.finish h (t.log.take (t.log.length - s.log.length))

end Recording

variable {π : Type} [PacketRef π]

def Answers (window : List Blocked) (answer : Answer π) : Prop :=
  ∃ m ∈ window, answer.output = answer.input.filter m

def TaskOk (published : Blocked) (window : List Blocked) : Task π → Prop
  | .filterLoading _ _ => published ∈ window
  | .filterLocking _ _ => published ∈ window
  | .filterHolding _ _ => published ∈ window
  | .filterUnlocking answer => Answers window answer
  | .filterReturning answer => Answers window answer
  | _ => True

structure Linear (s : State π) (g : Record π) : Prop where
  exclusive : Exclusive Task.critical s
  len : s.shared.len = g.published.size
  synced : s.shared.map = g.published ∨ ∃ h, (s.tasks h).dirty = true
  tasks : ∀ h, TaskOk g.published (g.window h) (s.tasks h)
  logged : g.results.map Prod.fst = s.log
  results : ∀ r ∈ g.results, Answers r.2 r.1.answer

omit [PacketRef π] in
theorem critical_of_dirty {task : Task π} (h : task.dirty = true) : task.critical = true := by
  cases task with
  | insertStoring => rfl
  | sweepRetaining => rfl
  | sweepStoring => rfl
  | _ => cases h

theorem answers_cons {window : List Blocked} {answer : Answer π} (m : Blocked)
    (h : Answers window answer) : Answers (m :: window) answer := by
  obtain ⟨m',hm,heq⟩ := h
  exact ⟨m',List.mem_cons_of_mem m hm,heq⟩

theorem taskOk_publish {published : Blocked} {window : List Blocked} {task : Task π}
    (m : Blocked) (h : TaskOk published window task) : TaskOk m (m :: window) task := by
  cases task with
  | filterLoading => exact List.mem_cons_self
  | filterLocking => exact List.mem_cons_self
  | filterHolding => exact List.mem_cons_self
  | filterUnlocking answer => exact answers_cons m h
  | filterReturning answer => exact answers_cons m h
  | _ => trivial

theorem filter_of_size_zero {m : Blocked} (h : m.size = 0) (item : Item π) :
    item.filter m = item := by
  apply filter_of_no_hit
  intro sig _
  exact KeyMap.containsKey_of_size_zero h sig

theorem filter_of_not_locks {item : Item π} (h : item.locks = false) (m : Blocked) :
    item.filter m = item := by
  cases item with
  | banking batch => cases h
  | packets resp =>
    refine congrArg Item.packets (retainPackets_of_no_hit ?_)
    intro batch hbatch
    simp [Item.locks, hbatch] at h
  | bundles resp => cases h

variable {s t : State π} {g : Record π} {h : Nat} {o : Outcome Shared (Task π) (Release π)}

theorem linear_synced (hl : Linear s g) (hcritical : (s.tasks h).critical = true)
    (hclean : (s.tasks h).dirty = false) : s.shared.map = g.published := by
  obtain hsame | ⟨k,hk⟩ := hl.synced
  · exact hsame
  · have hheld := hl.exclusive k (critical_of_dirty hk)
    cases hheld.symm.trans (hl.exclusive h hcritical)
    rw [hclean] at hk
    cases hk

theorem synced_apply (holder : Option Nat) (hl : Linear s g)
    (hsync : o.task.dirty = true ∨ o.shared.map = s.shared.map ∧ (s.tasks h).dirty = false) :
    (s.apply h o holder).shared.map = g.published ∨
      ∃ k, ((s.apply h o holder).tasks k).dirty = true := by
  simp only [State.apply]
  obtain hdirty | ⟨hmap,hclean⟩ := hsync
  · exact .inr ⟨h,by rwa [Function.update_self]⟩
  · obtain hsame | ⟨k,hk⟩ := hl.synced
    · exact .inl (hmap.trans hsame)
    · have hkh : k ≠ h := by
        rintro rfl
        rw [hclean] at hk
        cases hk
      exact .inr ⟨k,by rwa [Function.update_of_ne hkh]⟩

theorem tasks_apply {holder : Option Nat} {published : Blocked} {window : Nat → List Blocked}
    (hnew : TaskOk published (window h) o.task)
    (hold : ∀ k, k ≠ h → TaskOk published (window k) (s.tasks k)) (k : Nat) :
    TaskOk published (window k) ((s.apply h o holder).tasks k) := by
  simp only [State.apply]
  by_cases hkh : k = h
  · subst hkh
    rwa [Function.update_self]
  · rw [Function.update_of_ne hkh]
    exact hold k hkh

theorem linear_finish (hl : Linear s g) (hd : Disciplined Task.critical s.shared (s.tasks h) o)
    (hc : s.commit h o = some t) (hlen : o.shared.len = s.shared.len)
    (hsync : o.task.dirty = true ∨ o.shared.map = s.shared.map ∧ (s.tasks h).dirty = false)
    (htask : TaskOk g.published (g.window h) o.task)
    (hevent : ∀ r, o.event = some r → Answers (g.window h) r.answer) :
    Linear t (g.finish h (t.log.take (t.log.length - s.log.length))) := by
  have hexclusive := exclusive_commit hl.exclusive hd hc
  obtain ⟨holder,rfl,_⟩ := commit_some hc
  have hnew : (s.apply h o holder).log.take ((s.apply h o holder).log.length - s.log.length) =
      o.event.toList := by
    simp [State.apply]
  have hsynced := synced_apply holder hl hsync
  rw [hnew]
  refine ⟨hexclusive,hlen.trans hl.len,hsynced,
    tasks_apply htask (fun k _ => hl.tasks k),?_,?_⟩
  · simp [Record.finish, State.apply, hl.logged, Function.comp_def]
  · intro r hr
    obtain hr | hr := List.mem_append.mp hr
    · obtain ⟨release,hrelease,rfl⟩ := List.mem_map.mp hr
      exact hevent release (Option.mem_toList.mp hrelease)
    · exact hl.results r hr

theorem linear_publish (hl : Linear s g) (hd : Disciplined Task.critical s.shared (s.tasks h) o)
    (hc : s.commit h o = some t) (hshared : o.shared = s.shared.storeLen)
    (htask : ∀ published window, TaskOk published window o.task) (hevent : o.event = none) :
    Linear t (g.publish t.shared.map) := by
  have hexclusive := exclusive_commit hl.exclusive hd hc
  obtain ⟨holder,rfl,_⟩ := commit_some hc
  refine ⟨hexclusive,?_,.inl rfl,?_,?_,hl.results⟩
  · simp only [State.apply, hshared]
    rfl
  · apply tasks_apply (htask _ _)
    intro k _
    exact taskOk_publish _ (hl.tasks k)
  · simp only [State.apply, hevent]
    exact hl.logged

theorem linear_enter (hl : Linear s g) (hd : Disciplined Task.critical s.shared (s.tasks h) o)
    (hc : s.commit h o = some t) {call : Call π} (hidle : s.tasks h = .idle)
    (ho : o = ⟨s.shared,call.start s.shared,.keep,none⟩) : Linear t (g.enter h) := by
  have hexclusive := exclusive_commit hl.exclusive hd hc
  obtain ⟨holder,rfl,_⟩ := commit_some hc
  subst ho
  have hsynced := synced_apply (o := ⟨s.shared,call.start s.shared,.keep,none⟩) holder hl
    (.inr ⟨rfl,by rw [hidle]; rfl⟩)
  refine ⟨hexclusive,hl.len,hsynced,?_,hl.logged,hl.results⟩
  apply tasks_apply
  · simp only [Record.enter, Function.update_self]
    cases call with
    | ingestFilter bytes =>
      simp only [Call.start]
      split <;> trivial
    | sweep => trivial
    | release item => exact List.mem_singleton_self _
  · intro k hkh
    simp only [Record.enter, Function.update_of_ne hkh]
    exact hl.tasks k

theorem answers_fast (hl : Linear s g) {item : Item π} {before : Signature → Option Nat}
    (htask : s.tasks h = .filterLoading item before)
    (hfast : (!s.shared.isEmpty && item.locks) = false) :
    Answers (g.window h) (s.shared.unfiltered item before) := by
  have hok := hl.tasks h
  rw [htask] at hok
  refine ⟨g.published,hok,?_⟩
  obtain hempty | hlocks := Bool.and_eq_false_iff.mp hfast
  · have hsize : g.published.size = 0 := by
      rw [← hl.len]
      simpa [Shared.isEmpty] using hempty
    exact (filter_of_size_zero hsize item).symm
  · exact (filter_of_not_locks hlocks g.published).symm

theorem answers_slow (hl : Linear s g) {item : Item π} {before : Signature → Option Nat}
    (htask : s.tasks h = .filterHolding item before) :
    Answers (g.window h) (s.shared.filtered item before) := by
  have hok := hl.tasks h
  rw [htask] at hok
  refine ⟨g.published,hok,?_⟩
  rw [← linear_synced hl (by rw [htask]; rfl) (by rw [htask]; rfl)]
  rfl

theorem advance_frame {sh : Shared} {task : Task π} (hstore : task.storesLen = false)
    (ho : advance sh task = some o) :
    o.shared.len = sh.len ∧
      (o.task.dirty = true ∨ o.shared.map = sh.map ∧ task.dirty = false) := by
  cases task with
  | idle => cases ho
  | sweepStarting => cases ho
  | insertStoring => cases hstore
  | sweepStoring => cases hstore
  | insertPutting sig stamp =>
    cases ho
    exact ⟨rfl,.inl rfl⟩
  | sweepRetaining start todo =>
    cases todo with
    | nil =>
      cases ho
      exact ⟨rfl,.inl rfl⟩
    | cons sig todo =>
      cases ho
      refine ⟨?_,.inl rfl⟩
      simp only
      rw [retainOne_eq]
  | _ =>
    cases ho
    exact ⟨rfl,.inr ⟨rfl,rfl⟩⟩

theorem advance_taskOk (hl : Linear s g) (ho : advance s.shared (s.tasks h) = some o) :
    TaskOk g.published (g.window h) o.task := by
  have hok := hl.tasks h
  cases htask : s.tasks h with
  | idle =>
    rw [htask] at ho
    cases ho
  | sweepStarting =>
    rw [htask] at ho
    cases ho
  | sweepLoading =>
    rw [htask] at ho
    cases ho
    simp only
    split <;> trivial
  | sweepRetaining start todo =>
    rw [htask] at ho
    cases todo with
    | nil =>
      cases ho
      trivial
    | cons sig todo =>
      cases ho
      trivial
  | filterLoading item before =>
    rw [htask] at ho hok
    cases ho
    simp only
    cases hfast : !s.shared.isEmpty && item.locks with
    | true => exact hok
    | false => exact answers_fast hl htask hfast
  | filterLocking item before =>
    rw [htask] at ho hok
    cases ho
    exact hok
  | filterHolding item before =>
    rw [htask] at ho
    cases ho
    exact answers_slow hl htask
  | _ =>
    rw [htask] at ho
    cases ho
    trivial

theorem advance_event (hl : Linear s g) (ho : advance s.shared (s.tasks h) = some o)
    {r : Release π} (hr : o.event = some r) : Answers (g.window h) r.answer := by
  have hok := hl.tasks h
  cases htask : s.tasks h with
  | idle =>
    rw [htask] at ho
    cases ho
  | sweepStarting =>
    rw [htask] at ho
    cases ho
  | sweepRetaining start todo =>
    rw [htask] at ho
    cases todo with
    | nil =>
      cases ho
      cases hr
    | cons sig todo =>
      cases ho
      cases hr
  | filterUnlocking answer =>
    rw [htask] at ho hok
    cases ho
    cases hr
    exact hok
  | filterReturning answer =>
    rw [htask] at ho hok
    cases ho
    cases hr
    exact hok
  | _ =>
    rw [htask] at ho
    cases ho
    cases hr

theorem linear_advance (hl : Linear s g) (hstore : (s.tasks h).storesLen = false)
    (ho : advance s.shared (s.tasks h) = some o) (hc : s.commit h o = some t) :
    Linear t (g.finish h (t.log.take (t.log.length - s.log.length))) := by
  obtain ⟨hlen,hsync⟩ := advance_frame hstore ho
  exact linear_finish hl (advance_disciplined ho) hc hlen hsync (advance_taskOk hl ho)
    (fun _ => advance_event hl ho)

theorem linear_storesLen (hl : Linear s g) (hstore : (s.tasks h).storesLen = true) {m : Move π}
    (ho : outcome s.shared (s.tasks h) m = some o) (hc : s.commit h o = some t) :
    Linear t (g.publish t.shared.map) := by
  have hd := outcome_disciplined ho
  obtain ⟨call,hidle,-⟩ | ⟨order,hstart,-,-⟩ | hadv := outcome_cases ho
  · rw [hidle] at hstore
    cases hstore
  · rw [hstart] at hstore
    cases hstore
  · cases htask : s.tasks h with
    | insertStoring sig stamp =>
      rw [htask] at hadv
      cases hadv
      exact linear_publish hl hd hc rfl (fun _ _ => trivial) rfl
    | sweepStoring start =>
      rw [htask] at hadv
      cases hadv
      exact linear_publish hl hd hc rfl (fun _ _ => trivial) rfl
    | _ =>
      rw [htask] at hstore
      cases hstore

theorem linear_move (hl : Linear s g) {m : Move π}
    (ho : outcome s.shared (s.tasks h) m = some o) (hc : s.commit h o = some t) :
    Linear t (g.observe s (.move h m) t) := by
  simp only [Record.observe]
  cases hstore : (s.tasks h).storesLen with
  | true => exact linear_storesLen hl hstore ho hc
  | false =>
    have hd := outcome_disciplined ho
    cases m with
    | call call =>
      cases htask : s.tasks h with
      | idle =>
        rw [htask] at ho
        exact linear_enter hl hd hc htask (Option.some.inj ho).symm
      | _ =>
        rw [htask] at ho
        cases ho
    | retain order =>
      obtain ⟨call,hidle,rfl⟩ | ⟨order,hstart,-,rfl⟩ | hadv := outcome_cases ho
      · rw [hidle] at ho
        cases ho
      · exact linear_finish hl hd hc rfl (.inl rfl) trivial (fun _ hr => by cases hr)
      · exact linear_advance hl hstore hadv hc
    | advance => exact linear_advance hl hstore ho hc

theorem linear_init : Linear (init : State π) Record.init where
  exclusive k hk := by cases hk
  len := rfl
  synced := .inl rfl
  tasks _ := trivial
  logged := rfl
  results r hr := by cases hr

theorem linear_ghost {w w' : State π × Record π} {a : Action π} (hl : Linear w.1 w.2)
    (hstep : ghost step Record.observe w a = some w') : Linear w'.1 w'.2 := by
  obtain ⟨s,g⟩ := w
  obtain ⟨t,ht,rfl⟩ := Option.map_eq_some_iff.mp hstep
  cases a with
  | tick elapsed =>
    cases ht
    exact ⟨hl.exclusive,hl.len,hl.synced,hl.tasks,hl.logged,hl.results⟩
  | move h m =>
    simp only [step] at ht
    split at ht
    · cases ht
    · rename_i o ho
      exact linear_move hl ho ht

theorem len_of_free (hl : Linear s g) (hfree : s.holder = none) :
    s.shared.len = s.shared.map.size := by
  obtain hsame | ⟨k,hk⟩ := hl.synced
  · rw [hsame]
    exact hl.len
  · have hheld := hl.exclusive k (critical_of_dirty hk)
    rw [hfree] at hheld
    cases hheld

theorem fast_path_agrees (as : List (Action π)) (s : State π)
    (hrun : run step init as = some s) :
    (∃ g, run (ghost step Record.observe) (init,Record.init) as = some (s,g) ∧
      g.results.map Prod.fst = s.log ∧
      ∀ r window, (r,window) ∈ g.results →
        ∃ m ∈ window, r.answer.output = r.answer.input.filter m) ∧
    (s.holder = none → s.shared.len = s.shared.map.size) := by
  obtain ⟨g,hg⟩ := run_ghost Record.observe hrun Record.init
  have hl : Linear s g := run_invariant
    (I := fun w : State π × Record π => Linear w.1 w.2)
    (fun _ _ _ => linear_ghost) linear_init hg
  refine ⟨⟨g,hg,hl.logged,?_⟩,len_of_free hl⟩
  intro r window hr
  exact hl.results (r,window) hr

def racingRelease : List (Action Packet) :=
  .move 0 (.call (.ingestFilter filterDatagram)) :: advances 0 3 ++
    .move 2 (.call (.release (.packets packetsResponse))) :: advances 2 2 ++ advances 0 2

def releasedOnce (s : State Packet) : Bool :=
  decide (s.log.length = 1 ∧ s.holder = none ∧ s.shared.map.size = 1)

theorem racing_release_agrees :
    ∃ s g r window, run step init racingRelease = some s ∧
      run (ghost step Record.observe) (init,Record.init) racingRelease = some (s,g) ∧
      g.results = [(r,window)] ∧
      (∃ m ∈ window, r.answer.output = r.answer.input.filter m) ∧ s.shared.len = 1 := by
  obtain ⟨s,hs,honce⟩ := exists_run_of_map step init racingRelease releasedOnce
    (by decide +kernel)
  obtain ⟨hlog,hfree,hsize⟩ := of_decide_eq_true honce
  obtain ⟨⟨g,hg,hfst,hresults⟩,hlen⟩ := fast_path_agrees racingRelease s hs
  rw [← hfst, List.length_map] at hlog
  obtain ⟨⟨r,window⟩,hone⟩ := List.length_eq_one_iff.mp hlog
  refine ⟨s,g,r,window,hs,hg,hone,hresults r window ?_,(hlen hfree).trans hsize⟩
  rw [hone]
  exact List.mem_singleton_self _

end InertiaRelayer.Proxy
