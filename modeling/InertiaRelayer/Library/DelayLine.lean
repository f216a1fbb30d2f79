import InertiaRelayer.Library.Machine
import Mathlib.Data.List.Sort

namespace InertiaRelayer.DelayLine

structure Emission (T : Type*) where
  due : Nat
  time : Nat
  item : T

structure Line (T : Type*) where
  clock : Nat
  arrived : List (Nat × T)
  waiting : List (Nat × T)
  emitted : List (Emission T)

inductive Event (T : Type*) where
  | tick (t : Nat)
  | arrive (t : Nat) (x : T)
  | emit (t : Nat)

variable {T : Type*}

def init : Line T := ⟨0,[],[],[]⟩

def step (delay : Nat) (l : Line T) : Event T → Option (Line T)
  | .tick t => if l.clock ≤ t then some { l with clock := t } else none
  | .arrive t x =>
      if l.clock ≤ t then
        some { l with
          clock := t
          arrived := l.arrived ++ [(t,x)]
          waiting := l.waiting ++ [(t + delay,x)] }
      else none
  | .emit t =>
      match l.waiting with
      | [] => none
      | (due,x) :: rest =>
          if l.clock ≤ t ∧ due ≤ t then
            some { l with clock := t, waiting := rest, emitted := l.emitted ++ [⟨due,t,x⟩] }
          else none

structure Lawful (delay : Nat) (l : Line T) : Prop where
  conserved : l.arrived.map (fun a => (a.1 + delay,a.2)) =
    l.emitted.map (fun e => (e.due,e.item)) ++ l.waiting
  ordered : l.arrived.Pairwise (fun a b => a.1 ≤ b.1)
  past : ∀ a ∈ l.arrived, a.1 ≤ l.clock
  timely : ∀ e ∈ l.emitted, e.due ≤ e.time

variable {delay : Nat} {l m : Line T} {e : Event T}

theorem lawful_init : Lawful delay (init : Line T) where
  conserved := rfl
  ordered := .nil
  past _ h := by cases h
  timely _ h := by cases h

theorem lawful_step (hl : Lawful delay l) (h : step delay l e = some m) : Lawful delay m := by
  cases e with
  | tick t =>
    simp only [step] at h
    split at h
    · rename_i hle
      cases h
      exact ⟨hl.conserved,hl.ordered,fun a ha => (hl.past a ha).trans hle,hl.timely⟩
    · cases h
  | arrive t x =>
    simp only [step] at h
    split at h
    · rename_i hle
      cases h
      refine ⟨?_,?_,?_,hl.timely⟩
      · simp only [List.map_append, hl.conserved, List.map_cons, List.map_nil, List.append_assoc]
      · refine List.pairwise_append.mpr ⟨hl.ordered,List.pairwise_singleton _ _,?_⟩
        intro a ha b hb
        rw [List.mem_singleton.mp hb]
        exact (hl.past a ha).trans hle
      · intro a ha
        rcases List.mem_append.mp ha with ha | ha
        · exact (hl.past a ha).trans hle
        · rw [List.mem_singleton.mp ha]
    · cases h
  | emit t =>
    simp only [step] at h
    split at h
    · cases h
    · rename_i due x rest hw
      split at h
      · rename_i hg
        cases h
        refine ⟨?_,hl.ordered,fun a ha => (hl.past a ha).trans hg.1,?_⟩
        · simp [hl.conserved, hw]
        · intro e he
          rcases List.mem_append.mp he with he | he
          · exact hl.timely e he
          · rw [List.mem_singleton.mp he]
            exact hg.2
      · cases h

theorem lawful_reachable (h : Machine.Reachable (step delay) init l) : Lawful delay l :=
  Machine.reachable_invariant lawful_init (fun _ _ _ => lawful_step) h

theorem waiting_sorted (hl : Lawful delay l) : l.waiting.Pairwise (fun a b => a.1 ≤ b.1) := by
  have hall : (l.emitted.map (fun e => (e.due,e.item)) ++ l.waiting).Pairwise
      (fun a b => a.1 ≤ b.1) := by
    rw [← hl.conserved, List.pairwise_map]
    exact hl.ordered.imp (fun h => Nat.add_le_add_right h delay)
  exact (List.pairwise_append.mp hall).2.1

theorem items_conserved (hl : Lawful delay l) :
    l.arrived.map Prod.snd = l.emitted.map Emission.item ++ l.waiting.map Prod.snd := by
  have h := congrArg (List.map Prod.snd) hl.conserved
  simpa [List.map_map, Function.comp_def] using h

end InertiaRelayer.DelayLine
