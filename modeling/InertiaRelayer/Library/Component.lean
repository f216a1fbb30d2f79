import InertiaRelayer.Library.Machine

namespace InertiaRelayer.Component
open Machine

variable {σ τ α β γ : Type*}

structure Projects (step : σ → α → Option σ) (step' : τ → β → Option τ) (I : σ → Prop) (f : σ → τ)
    (act : σ → α → Option β) : Prop where
  keeps : ∀ s a t, I s → step s a = some t → I t
  rests : ∀ s a t, I s → step s a = some t → act s a = none → f t = f s
  moves : ∀ s a t b, I s → step s a = some t → act s a = some b → step' (f s) b = some (f t)

def schedule (step : σ → α → Option σ) (act : σ → α → Option β) : σ → List α → List β :=
  collect step fun s a => (act s a).toList

def through (act : σ → α → Option β) (f : σ → τ) (observe : τ → β → List γ) (s : σ) (a : α) :
    List γ :=
  (act s a).toList.flatMap (observe (f s))

def Through (act : σ → α → Option β) (f : σ → τ) (P : τ → β → Prop) (s : σ) (a : α) : Prop :=
  ∀ b ∈ act s a, P (f s) b

instance (act : σ → α → Option β) (f : σ → τ) (P : τ → β → Prop) [∀ x b, Decidable (P x b)] (s : σ)
    (a : α) : Decidable (Through act f P s a) :=
  inferInstanceAs (Decidable (∀ b ∈ act s a, P (f s) b))

variable {step : σ → α → Option σ} {step' : τ → β → Option τ} {I : σ → Prop} {f : σ → τ}
  {act : σ → α → Option β} {s t : σ} {as : List α}

theorem schedule_cons {a : α} (h : step s a = some t) :
    schedule step act s (a :: as) = (act s a).toList ++ schedule step act t as :=
  collect_cons _ h as

theorem run_schedule (h : Projects step step' I f act) (hs : I s) (hrun : run step s as = some t) :
    run step' (f s) (schedule step act s as) = some (f t) := by
  induction as generalizing s with
  | nil =>
    obtain rfl := Option.some.inj hrun
    rfl
  | cons a as ih =>
    obtain ⟨u,hu,hrun⟩ := run_cons hrun
    have hrest := ih (h.keeps s a u hs hu) hrun
    rw [schedule_cons hu]
    cases ha : act s a with
    | none => simpa [h.rests s a u hs hu ha] using hrest
    | some b => simpa [run, h.moves s a u b hs hu ha] using hrest

theorem collect_through (h : Projects step step' I f act) (observe : τ → β → List γ) (hs : I s)
    (hrun : run step s as = some t) :
    collect step (through act f observe) s as =
      collect step' observe (f s) (schedule step act s as) := by
  induction as generalizing s with
  | nil => rfl
  | cons a as ih =>
    obtain ⟨u,hu,hrun⟩ := run_cons hrun
    have hrest := ih (h.keeps s a u hs hu) hrun
    rw [schedule_cons hu, collect_cons _ hu, hrest]
    cases ha : act s a with
    | none => simp [through, ha, h.rests s a u hs hu ha]
    | some b => simp [through, ha, collect, h.moves s a u b hs hu ha]

theorem along_through (h : Projects step step' I f act) {P : τ → β → Prop} (hs : I s)
    (hrun : run step s as = some t) (hP : Along step (Through act f P) s as) :
    Along step' P (f s) (schedule step act s as) := by
  induction as generalizing s with
  | nil => trivial
  | cons a as ih =>
    obtain ⟨u,hu,hrun⟩ := run_cons hrun
    obtain ⟨ha,hP⟩ := along_cons hP hu
    have hrest := ih (h.keeps s a u hs hu) hrun hP
    rw [schedule_cons hu]
    cases hact : act s a with
    | none => simpa [h.rests s a u hs hu hact] using hrest
    | some b => simpa [Along, h.moves s a u b hs hu hact] using And.intro (ha b hact) hrest

end InertiaRelayer.Component
