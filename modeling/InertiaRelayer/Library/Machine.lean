import Mathlib.Algebra.Ring.Nat
import Mathlib.Data.List.Basic
import Mathlib.Data.Nat.ModEq

namespace InertiaRelayer.Machine

variable {σ τ α β : Type*}

def run (step : σ → α → Option σ) : σ → List α → Option σ
  | s, [] => some s
  | s, a :: as =>
      match step s a with
      | none => none
      | some t => run step t as

def Along (step : σ → α → Option σ) (P : σ → α → Prop) : σ → List α → Prop
  | _, [] => True
  | s, a :: as => P s a ∧
      match step s a with
      | none => True
      | some t => Along step P t as

instance decidableAlong (step : σ → α → Option σ) (P : σ → α → Prop)
    [∀ s a, Decidable (P s a)] : ∀ s as, Decidable (Along step P s as)
  | _, [] => .isTrue trivial
  | s, a :: as =>
      match h : step s a with
      | none => decidable_of_iff (P s a) (by simp [Along, h])
      | some t =>
          have := decidableAlong step P t as
          decidable_of_iff (P s a ∧ Along step P t as) (by simp [Along, h])

theorem run_cons {step : σ → α → Option σ} {s t : σ} {a : α} {as : List α}
    (h : run step s (a :: as) = some t) : ∃ u, step s a = some u ∧ run step u as = some t := by
  cases hs : step s a with
  | none => simp [run, hs] at h
  | some u => exact ⟨u,rfl,by simpa [run, hs] using h⟩

theorem along_cons {step : σ → α → Option σ} {P : σ → α → Prop} {s u : σ} {a : α} {as : List α}
    (h : Along step P s (a :: as)) (hs : step s a = some u) : P s a ∧ Along step P u as := by
  simpa [Along, hs] using h

theorem along_append {step : σ → α → Option σ} {P : σ → α → Prop} {s t : σ} {as bs : List α}
    (h : Along step P s (as ++ bs)) (hr : run step s as = some t) : Along step P t bs := by
  induction as generalizing s with
  | nil => exact Option.some.inj hr ▸ h
  | cons a as ih =>
    obtain ⟨u,hu,hr⟩ := run_cons hr
    exact ih (along_cons h hu).2 hr

theorem run_append (step : σ → α → Option σ) (s : σ) (as bs : List α) :
    run step s (as ++ bs) = (run step s as).bind (fun t => run step t bs) := by
  induction as generalizing s with
  | nil => rfl
  | cons a as ih =>
    cases hs : step s a with
    | none => simp [run, hs]
    | some t => simpa [run, hs] using ih t

theorem run_after {step : σ → α → Option σ} {s t u : σ} {as bs : List α}
    (hs : run step s as = some t) (hu : run step s (as ++ bs) = some u) :
    run step t bs = some u := by
  rwa [run_append, hs] at hu

theorem run_concat {step : σ → α → Option σ} {s t u : σ} {as : List α} {a : α}
    (h : run step s as = some t) (ha : step t a = some u) :
    run step s (as ++ [a]) = some u := by
  simp [run_append, h, run, ha]

theorem exists_run_of_map (step : σ → α → Option σ) (s : σ) (as : List α) (p : σ → Bool)
    (h : (run step s as).map p = some true) : ∃ t, run step s as = some t ∧ p t = true :=
  Option.map_eq_some_iff.mp h

def Reachable (step : σ → α → Option σ) (init s : σ) : Prop :=
  ∃ as, run step init as = some s

theorem run_invariant_along {step : σ → α → Option σ} {I : σ → Prop} {C : σ → α → Prop}
    (hstep : ∀ s a t, I s → C s a → step s a = some t → I t)
    {s t : σ} {as : List α} (hs : I s) (hc : Along step C s as)
    (h : run step s as = some t) : I t := by
  induction as generalizing s with
  | nil => exact Option.some.inj h ▸ hs
  | cons a as ih =>
    obtain ⟨u,hu,hr⟩ := run_cons h
    obtain ⟨ha,hc⟩ := along_cons hc hu
    exact ih (hstep s a u hs ha hu) hc hr

theorem along_true (step : σ → α → Option σ) (s : σ) (as : List α) :
    Along step (fun _ _ => True) s as := by
  induction as generalizing s with
  | nil => trivial
  | cons a as ih =>
    refine ⟨trivial,?_⟩
    cases step s a with
    | none => trivial
    | some t => exact ih t

theorem run_invariant {step : σ → α → Option σ} {I : σ → Prop}
    (hstep : ∀ s a t, I s → step s a = some t → I t)
    {s t : σ} {as : List α} (hs : I s) (h : run step s as = some t) : I t :=
  run_invariant_along (C := fun _ _ => True) (fun s a t hi _ => hstep s a t hi) hs
    (along_true step s as) h

theorem reachable_invariant {step : σ → α → Option σ} {I : σ → Prop} {init s : σ}
    (h0 : I init) (hstep : ∀ s a t, I s → step s a = some t → I t)
    (h : Reachable step init s) : I s := by
  obtain ⟨as,hr⟩ := h
  exact run_invariant hstep h0 hr

theorem along_of_invariant {step : σ → α → Option σ} {I : σ → Prop} {C P : σ → α → Prop}
    (hstep : ∀ s a t, I s → C s a → step s a = some t → I t)
    (hP : ∀ s a, I s → C s a → P s a)
    {s : σ} {as : List α} (hs : I s) (hc : Along step C s as) : Along step P s as := by
  induction as generalizing s with
  | nil => trivial
  | cons a as ih =>
    refine ⟨hP s a hs hc.1,?_⟩
    cases ht : step s a with
    | none => trivial
    | some t => exact ih (hstep s a t hs hc.1 ht) (along_cons hc ht).2

theorem run_relates {step : σ → α → Option σ} {R : σ → σ → Prop} {I : σ → Prop} {C : σ → α → Prop}
    (hrefl : ∀ s, R s s) (htrans : ∀ s t u, R s t → R t u → R s u)
    (hI : ∀ s a t, I s → C s a → step s a = some t → I t)
    (hstep : ∀ s a t, I s → C s a → step s a = some t → R s t)
    {s t : σ} {as : List α} (hs : I s) (hc : Along step C s as) (h : run step s as = some t) :
    R s t := by
  induction as generalizing s with
  | nil => exact Option.some.inj h ▸ hrefl s
  | cons a as ih =>
    obtain ⟨u,hu,hr⟩ := run_cons h
    obtain ⟨ha,hc⟩ := along_cons hc hu
    exact htrans s u t (hstep s a u hs ha hu) (ih (hI s a u hs ha hu) hc hr)

theorem run_pullback {step : σ → α → Option σ} {Q : σ → Prop}
    (hback : ∀ s a t, step s a = some t → Q t → Q s)
    {s t : σ} {as : List α} (h : run step s as = some t) (ht : Q t) : Q s := by
  induction as generalizing s with
  | nil => exact Option.some.inj h ▸ ht
  | cons a as ih =>
    obtain ⟨u,hu,hr⟩ := run_cons h
    exact hback s a u hu (ih hr)

theorem along_of_pullback {step : σ → α → Option σ} {I Q : σ → Prop} {C : σ → α → Prop}
    (hstep : ∀ s a t, I s → step s a = some t → I t)
    (hback : ∀ s a t, step s a = some t → Q t → Q s)
    (hC : ∀ s a t, I s → step s a = some t → Q t → C s a)
    {s t : σ} {as : List α} (hs : I s) (h : run step s as = some t) (ht : Q t) :
    Along step C s as := by
  induction as generalizing s with
  | nil => trivial
  | cons a as ih =>
    obtain ⟨u,hu,hr⟩ := run_cons h
    refine ⟨hC s a u hs hu (run_pullback hback hr ht),?_⟩
    rw [hu]
    exact ih (hstep s a u hs hu) hr

def collect (step : σ → α → Option σ) (observe : σ → α → List β) : σ → List α → List β
  | _, [] => []
  | s, a :: as => observe s a ++
      match step s a with
      | none => []
      | some t => collect step observe t as

theorem collect_cons {step : σ → α → Option σ} (observe : σ → α → List β) {s t : σ} {a : α}
    (h : step s a = some t) (as : List α) :
    collect step observe s (a :: as) = observe s a ++ collect step observe t as := by
  simp [collect, h]

theorem collect_append {step : σ → α → Option σ} (observe : σ → α → List β) {s t : σ} {as : List α}
    (h : run step s as = some t) (bs : List α) :
    collect step observe s (as ++ bs) =
      collect step observe s as ++ collect step observe t bs := by
  induction as generalizing s with
  | nil =>
    obtain rfl := Option.some.inj h
    rfl
  | cons a as ih =>
    obtain ⟨u,hu,hr⟩ := run_cons h
    rw [List.cons_append, collect_cons observe hu, collect_cons observe hu, ih hr,
      List.append_assoc]

theorem collect_balance {step : σ → α → Option σ} {I : σ → Prop} {sent used : σ → α → List β}
    (held : σ → List β) (hI : ∀ s a t, I s → step s a = some t → I t)
    (hstep : ∀ s a t, I s → step s a = some t → held s ++ sent s a = used s a ++ held t)
    {s t : σ} {as : List α} (hs : I s) (h : run step s as = some t) :
    held s ++ collect step sent s as = collect step used s as ++ held t := by
  induction as generalizing s with
  | nil =>
    obtain rfl := Option.some.inj h
    simp [collect]
  | cons a as ih =>
    obtain ⟨u,hu,hr⟩ := run_cons h
    rw [collect_cons sent hu, collect_cons used hu, ← List.append_assoc, hstep s a u hs hu,
      List.append_assoc, ih (hI s a u hs hu) hr, List.append_assoc]

theorem collect_nil (step : σ → α → Option σ) (s : σ) (as : List α) :
    collect step (fun _ _ => ([] : List β)) s as = [] := by
  induction as generalizing s with
  | nil => rfl
  | cons a as ih =>
    cases hs : step s a with
    | none => simp [collect, hs]
    | some t => simpa [collect, hs] using ih t

theorem collect_flow {step : σ → α → Option σ} {I : σ → Prop} {C : σ → α → Prop}
    {sent used : σ → α → List β} (R : List β → List β → Prop) (held : σ → List β)
    (hrefl : ∀ l, R l l) (htrans : ∀ k l m, R k l → R l m → R k m)
    (hleft : ∀ k l m, R l m → R (k ++ l) (k ++ m)) (hright : ∀ k l m, R k l → R (k ++ m) (l ++ m))
    (hI : ∀ s a t, I s → C s a → step s a = some t → I t)
    (hstep : ∀ s a t, I s → C s a → step s a = some t →
      R (used s a ++ held t) (held s ++ sent s a))
    {s t : σ} {as : List α} (hs : I s) (hc : Along step C s as) (h : run step s as = some t) :
    R (collect step used s as ++ held t) (held s ++ collect step sent s as) := by
  induction as generalizing s with
  | nil =>
    obtain rfl := Option.some.inj h
    simpa [collect] using hrefl (held s)
  | cons a as ih =>
    obtain ⟨u,hu,hr⟩ := run_cons h
    obtain ⟨ha,hc⟩ := along_cons hc hu
    have hrest := hleft (used s a) _ _ (ih (hI s a u hs ha hu) hc hr)
    have hfirst := hright _ _ (collect step sent u as) (hstep s a u hs ha hu)
    rw [collect_cons sent hu, collect_cons used hu]
    rw [List.append_assoc] at hfirst ⊢
    rw [List.append_assoc] at hfirst
    exact htrans _ _ _ hrest hfirst

theorem collect_sublist_along {step : σ → α → Option σ} {I : σ → Prop} {C : σ → α → Prop}
    {sent used : σ → α → List β} (held : σ → List β)
    (hI : ∀ s a t, I s → C s a → step s a = some t → I t)
    (hstep : ∀ s a t, I s → C s a → step s a = some t →
      (used s a ++ held t).Sublist (held s ++ sent s a))
    {s t : σ} {as : List α} (hs : I s) (hc : Along step C s as) (h : run step s as = some t) :
    (collect step used s as ++ held t).Sublist (held s ++ collect step sent s as) :=
  collect_flow List.Sublist held List.Sublist.refl (fun _ _ _ => List.Sublist.trans)
    (fun k _ _ h => h.append_left k) (fun _ _ m h => h.append_right m) hI hstep hs hc h

theorem collect_sublist {step : σ → α → Option σ} {I : σ → Prop} {sent used : σ → α → List β}
    (held : σ → List β) (hI : ∀ s a t, I s → step s a = some t → I t)
    (hstep : ∀ s a t, I s → step s a = some t →
      (used s a ++ held t).Sublist (held s ++ sent s a))
    {s t : σ} {as : List α} (hs : I s) (h : run step s as = some t) :
    (collect step used s as ++ held t).Sublist (held s ++ collect step sent s as) :=
  collect_sublist_along (C := fun _ _ => True) held (fun s a t hi _ => hI s a t hi)
    (fun s a t hi _ => hstep s a t hi) hs (along_true step s as) h

theorem collect_balance_along {step : σ → α → Option σ} {I : σ → Prop} {C : σ → α → Prop}
    {sent used : σ → α → List β} (held : σ → List β)
    (hI : ∀ s a t, I s → C s a → step s a = some t → I t)
    (hstep : ∀ s a t, I s → C s a → step s a = some t → used s a ++ held t = held s ++ sent s a)
    {s t : σ} {as : List α} (hs : I s) (hc : Along step C s as) (h : run step s as = some t) :
    collect step used s as ++ held t = held s ++ collect step sent s as :=
  collect_flow Eq held (fun _ => rfl) (fun _ _ _ => Eq.trans) (fun k _ _ h => congrArg (k ++ ·) h)
    (fun _ _ m h => congrArg (· ++ m) h) hI hstep hs hc h

theorem collect_log {step : σ → α → Option σ} {observe : σ → α → List β} (log : σ → List β)
    (hstep : ∀ s a t, step s a = some t → log t = log s ++ observe s a)
    {s t : σ} {as : List α} (h : run step s as = some t) :
    log t = log s ++ collect step observe s as := by
  induction as generalizing s with
  | nil =>
    obtain rfl := Option.some.inj h
    simp [collect]
  | cons a as ih =>
    obtain ⟨u,hu,hr⟩ := run_cons h
    rw [ih hr, hstep s a u hu, collect_cons observe hu, List.append_assoc]

theorem log_of_actions {step : σ → α → Option σ} {f : α → List β} (log : σ → List β)
    (hstep : ∀ s a t, step s a = some t → log t = log s ++ f a)
    {s t : σ} {as : List α} (h : run step s as = some t) : log t = log s ++ as.flatMap f := by
  induction as generalizing s with
  | nil =>
    obtain rfl := Option.some.inj h
    simp
  | cons a as ih =>
    obtain ⟨u,hu,hr⟩ := run_cons h
    rw [ih hr, hstep s a u hu, List.flatMap_cons, List.append_assoc]

theorem run_history {step : σ → α → Option σ} {I : List α → σ → Prop}
    (hstep : ∀ past s a t, I past s → step s a = some t → I (past ++ [a]) t)
    {past : List α} {s t : σ} {as : List α} (hs : I past s) (h : run step s as = some t) :
    I (past ++ as) t := by
  induction as generalizing past s with
  | nil =>
    obtain rfl := Option.some.inj h
    rwa [List.append_nil]
  | cons a as ih =>
    obtain ⟨u,hu,hr⟩ := run_cons h
    rw [List.append_cons]
    exact ih (hstep past s a u hs hu) hr

theorem collect_history_along {step : σ → α → Option σ} {observe : σ → α → List β}
    {I : List β → σ → Prop} {C : σ → α → Prop}
    (hstep : ∀ log s a t, I log s → C s a → step s a = some t → I (log ++ observe s a) t)
    {log : List β} {s t : σ} {as : List α} (hs : I log s) (hc : Along step C s as)
    (h : run step s as = some t) : I (log ++ collect step observe s as) t := by
  induction as generalizing s log with
  | nil =>
    obtain rfl := Option.some.inj h
    rwa [collect, List.append_nil]
  | cons a as ih =>
    obtain ⟨u,hu,hr⟩ := run_cons h
    obtain ⟨ha,hc⟩ := along_cons hc hu
    rw [collect_cons observe hu, ← List.append_assoc]
    exact ih (hstep log s a u hs ha hu) hc hr

theorem collect_history {step : σ → α → Option σ} {observe : σ → α → List β}
    {I : List β → σ → Prop}
    (hstep : ∀ log s a t, I log s → step s a = some t → I (log ++ observe s a) t)
    {log : List β} {s t : σ} {as : List α} (hs : I log s) (h : run step s as = some t) :
    I (log ++ collect step observe s as) t :=
  collect_history_along (C := fun _ _ => True) (fun log s a t hi _ => hstep log s a t hi) hs
    (along_true step s as) h

theorem collect_tally_mod {γ : Type*} {step : σ → α → Option σ} {I : σ → Prop}
    {sent : σ → α → List β} {used : σ → α → List γ} (n : Nat) (w : β → Nat) (v : γ → Nat)
    (held : σ → Nat) (hI : ∀ s a t, I s → step s a = some t → I t)
    (hstep : ∀ s a t, I s → step s a = some t →
      Nat.ModEq n (held s + ((sent s a).map w).sum) (((used s a).map v).sum + held t))
    {s t : σ} {as : List α} (hs : I s) (h : run step s as = some t) :
    Nat.ModEq n (held s + ((collect step sent s as).map w).sum)
      (((collect step used s as).map v).sum + held t) := by
  induction as generalizing s with
  | nil =>
    obtain rfl := Option.some.inj h
    simp [collect, Nat.ModEq]
  | cons a as ih =>
    obtain ⟨u,hu,hr⟩ := run_cons h
    have hfirst := (hstep s a u hs hu).add_right ((collect step sent u as).map w).sum
    have hrest := (ih (hI s a u hs hu) hr).add_left ((used s a).map v).sum
    rw [collect_cons sent hu, collect_cons used hu, List.map_append, List.map_append,
      List.sum_append, List.sum_append, ← Nat.add_assoc, Nat.add_assoc ((used s a).map v).sum]
    exact hfirst.trans (by rw [Nat.add_assoc]; exact hrest)

theorem collect_tally_lt {γ : Type*} {step : σ → α → Option σ} {I : σ → Prop}
    {sent : σ → α → List β} {used : σ → α → List γ} (bound : Nat) (w : β → Nat) (v : γ → Nat)
    (held : σ → Nat) (hI : ∀ s a t, I s → step s a = some t → I t)
    (hstep : ∀ s a t, I s → step s a = some t → held s + ((sent s a).map w).sum < bound →
      held s + ((sent s a).map w).sum = ((used s a).map v).sum + held t)
    {s t : σ} {as : List α} (hs : I s) (h : run step s as = some t)
    (hlt : held s + ((collect step sent s as).map w).sum < bound) :
    held s + ((collect step sent s as).map w).sum =
      ((collect step used s as).map v).sum + held t := by
  induction as generalizing s with
  | nil =>
    obtain rfl := Option.some.inj h
    simp [collect]
  | cons a as ih =>
    obtain ⟨u,hu,hr⟩ := run_cons h
    rw [collect_cons sent hu, List.map_append, List.sum_append] at hlt
    rw [collect_cons sent hu, collect_cons used hu, List.map_append, List.map_append,
      List.sum_append, List.sum_append]
    have hfirst := hstep s a u hs hu (by omega)
    have hrest := ih (hI s a u hs hu) hr (by omega)
    omega

theorem collect_flatMap {γ : Type*} (step : σ → α → Option σ) (observe : σ → α → List β)
    (f : β → List γ) (s : σ) (as : List α) :
    collect step (fun s a => (observe s a).flatMap f) s as =
      (collect step observe s as).flatMap f := by
  induction as generalizing s with
  | nil => rfl
  | cons a as ih =>
    cases hs : step s a with
    | none => simp [collect, hs]
    | some t => simp [collect, hs, ih]

theorem collect_forall {step : σ → α → Option σ} {I : σ → Prop} {observe : σ → α → List β}
    {P : β → Prop} (hI : ∀ s a t, I s → step s a = some t → I t)
    (hP : ∀ s a, I s → ∀ b ∈ observe s a, P b) {s : σ} (as : List α) (hs : I s) :
    ∀ b ∈ collect step observe s as, P b := by
  induction as generalizing s with
  | nil => simp [collect]
  | cons a as ih =>
    intro b hb
    rcases List.mem_append.mp hb with hb | hb
    · exact hP s a hs b hb
    · cases ht : step s a with
      | none => simp [ht] at hb
      | some t =>
        rw [ht] at hb
        exact ih (hI s a t hs ht) b hb

def ghost {γ : Type*} (step : σ → α → Option σ) (observe : γ → σ → α → σ → γ) (w : σ × γ) (a : α) :
    Option (σ × γ) :=
  (step w.1 a).map (fun t => (t,observe w.2 w.1 a t))

theorem run_ghost {γ : Type*} {step : σ → α → Option σ} (observe : γ → σ → α → σ → γ) {s t : σ}
    {as : List α} (h : run step s as = some t) (g : γ) :
    ∃ g', run (ghost step observe) (s,g) as = some (t,g') := by
  induction as generalizing s g with
  | nil =>
    cases h
    exact ⟨g,rfl⟩
  | cons a as ih =>
    obtain ⟨u,hu,hrun⟩ := run_cons h
    obtain ⟨g',hg'⟩ := ih hrun (observe g s a u)
    refine ⟨g',?_⟩
    simp only [run, ghost, hu, Option.map_some]
    exact hg'

def Within (step : σ → α → Option σ) (P : α → Prop) (n : Nat) (s t : σ) : Prop :=
  ∃ as, as.length ≤ n ∧ (∀ a ∈ as, P a) ∧ run step s as = some t

theorem within_refl (step : σ → α → Option σ) (P : α → Prop) (s : σ) : Within step P 0 s s :=
  ⟨[],Nat.le_refl 0,nofun,rfl⟩

theorem within_step {step : σ → α → Option σ} {P : α → Prop} {s t u : σ} {n : Nat} {a : α}
    (ha : P a) (h : step s a = some t) (hn : Within step P n t u) : Within step P (n + 1) s u := by
  obtain ⟨as,hlen,hall,hrun⟩ := hn
  refine ⟨a :: as,Nat.succ_le_succ hlen,List.forall_mem_cons.mpr ⟨ha,hall⟩,?_⟩
  rw [run, h]
  exact hrun

theorem within_mono {step : σ → α → Option σ} {P : α → Prop} {s t : σ} {m n : Nat} (h : m ≤ n)
    (hm : Within step P m s t) : Within step P n s t := by
  obtain ⟨as,hlen,hall,hrun⟩ := hm
  exact ⟨as,Nat.le_trans hlen h,hall,hrun⟩

theorem within_weaken {step : σ → α → Option σ} {P Q : α → Prop} {s t : σ} {n : Nat}
    (h : ∀ a, P a → Q a) (hn : Within step P n s t) : Within step Q n s t := by
  obtain ⟨as,hlen,hall,hrun⟩ := hn
  exact ⟨as,hlen,fun a ha => h a (hall a ha),hrun⟩

theorem within_invariant {step : σ → α → Option σ} {P : α → Prop} {I : σ → Prop} {s t : σ} {n : Nat}
    (hI : ∀ s a t, P a → I s → step s a = some t → I t) (hs : I s) (hn : Within step P n s t) :
    I t := by
  obtain ⟨as,-,hall,hrun⟩ := hn
  induction as generalizing s with
  | nil =>
    obtain rfl := Option.some.inj hrun
    exact hs
  | cons a as ih =>
    obtain ⟨u,hu,hr⟩ := run_cons hrun
    obtain ⟨ha,hall⟩ := List.forall_mem_cons.mp hall
    exact ih (hI s a u ha hs hu) hall hr

theorem within_trans {step : σ → α → Option σ} {P : α → Prop} {s t u : σ} {m n : Nat}
    (hm : Within step P m s t) (hn : Within step P n t u) : Within step P (m + n) s u := by
  obtain ⟨as,hlen,hall,hrun⟩ := hm
  obtain ⟨bs,hlen',hall',hrun'⟩ := hn
  refine ⟨as ++ bs,?_,List.forall_mem_append.mpr ⟨hall,hall'⟩,?_⟩
  · rw [List.length_append]
    exact Nat.add_le_add hlen hlen'
  · rw [run_append, hrun]
    exact hrun'

theorem length_le_measure {step : σ → α → Option σ} {P : α → Prop} {I : σ → Prop}
    (measure : σ → Nat) (hI : ∀ s a t, P a → I s → step s a = some t → I t)
    (hdec : ∀ s a t, P a → I s → step s a = some t → measure t < measure s) {s t : σ} {as : List α}
    (hs : I s) (hall : ∀ a ∈ as, P a) (hrun : run step s as = some t) :
    as.length + measure t ≤ measure s := by
  induction as generalizing s with
  | nil =>
    obtain rfl := Option.some.inj hrun
    exact Nat.le_of_eq (Nat.zero_add _)
  | cons a as ih =>
    obtain ⟨u,hu,hr⟩ := run_cons hrun
    obtain ⟨ha,hall⟩ := List.forall_mem_cons.mp hall
    have hrest := ih (hI s a u ha hs hu) hall hr
    have hfirst := hdec s a u ha hs hu
    rw [List.length_cons]
    omega

theorem within_of_measure {step : σ → α → Option σ} {P : α → Prop} {I Q : σ → Prop}
    (measure : σ → Nat) (hI : ∀ s a t, P a → I s → step s a = some t → I t)
    (hdec : ∀ s a t, P a → I s → step s a = some t → measure t < measure s)
    (hprogress : ∀ s, I s → Q s ∨ ∃ a t, P a ∧ step s a = some t) {s : σ} (hs : I s) :
    ∃ t, Within step P (measure s) s t ∧ I t ∧ Q t := by
  generalize hm : measure s = m
  induction m using Nat.strong_induction_on generalizing s with
  | _ m ih =>
    rcases hprogress s hs with hq | ⟨a,t,ha,ht⟩
    · exact ⟨s,within_mono (Nat.zero_le m) (within_refl step P s),hs,hq⟩
    · have hlt := hdec s a t ha hs ht
      obtain ⟨u,hu,hend⟩ := ih (measure t) (hm ▸ hlt) (hI s a t ha hs ht) rfl
      exact ⟨u,within_mono (by omega) (within_step ha ht hu),hend⟩

theorem within_lift {step : σ → α → Option σ} {step' : τ → β → Option τ} {P : α → Prop}
    {Q : β → Prop} (put : σ → τ) (g : α → β) (hP : ∀ a, P a → Q (g a))
    (hstep : ∀ s a t, P a → step s a = some t → step' (put s) (g a) = some (put t))
    {s t : σ} {n : Nat} (h : Within step P n s t) : Within step' Q n (put s) (put t) := by
  obtain ⟨as,hlen,hall,hrun⟩ := h
  induction as generalizing s n with
  | nil =>
    obtain rfl := Option.some.inj hrun
    exact ⟨[],hlen,nofun,rfl⟩
  | cons a as ih =>
    obtain ⟨u,hu,hr⟩ := run_cons hrun
    obtain ⟨ha,hall⟩ := List.forall_mem_cons.mp hall
    exact within_mono hlen (within_step (hP a ha) (hstep s a u ha hu)
      (ih (Nat.le_refl _) hall hr))

theorem reachable_simulation {step : σ → α → Option σ} {step' : τ → β → Option τ} {I : σ → Prop}
    (f : σ → τ) {init s : σ} (h0 : I init) (hI : ∀ s a t, I s → step s a = some t → I t)
    (hf : ∀ s a t, I s → step s a = some t → ∃ bs, run step' (f s) bs = some (f t))
    (h : Reachable step init s) : Reachable step' (f init) (f s) := by
  refine (reachable_invariant (I := fun s => I s ∧ Reachable step' (f init) (f s))
    ⟨h0,[],rfl⟩ ?_ h).2
  rintro s a t ⟨hs,bs,hb⟩ hstep
  obtain ⟨cs,hc⟩ := hf s a t hs hstep
  exact ⟨hI s a t hs hstep,bs ++ cs,by simp [run_append, hb, hc]⟩

end InertiaRelayer.Machine

namespace InertiaRelayer.History

variable {ε : Type*}

def Justified (J : ε → List ε → Prop) : List ε → Prop
  | [] => True
  | e :: earlier => J e earlier ∧ Justified J earlier

theorem justified_at {J : ε → List ε → Prop} {log later earlier : List ε} {e : ε}
    (h : Justified J log) (hl : log = later ++ e :: earlier) :
    J e earlier ∧ Justified J earlier := by
  induction later generalizing log with
  | nil => subst hl; exact h
  | cons x later ih => subst hl; exact ih h.2 rfl

theorem justified_mem {J : ε → List ε → Prop} {log : List ε} {e : ε}
    (h : Justified J log) (he : e ∈ log) :
    ∃ later earlier, log = later ++ e :: earlier ∧ J e earlier ∧ Justified J earlier := by
  obtain ⟨later,earlier,hl⟩ := List.append_of_mem he
  exact ⟨later,earlier,hl,justified_at h hl⟩

end InertiaRelayer.History
