import Mathlib.Data.Int.Order.Basic
import Mathlib.Data.List.AList
import Mathlib.Data.List.Induction
import Mathlib.Data.Nat.Basic
import Mathlib.Order.Basic

namespace InertiaRelayer

abbrev KeyMap (K V : Type) := AList (fun _ : K => V)

namespace KeyMap

variable {K V : Type}

def size (m : KeyMap K V) : Nat := m.entries.length

def retain (keep : K → V → Bool) (m : KeyMap K V) : KeyMap K V where
  entries := m.entries.filter (fun e => keep e.1 e.2)
  nodupKeys := m.nodupKeys.sublist List.filter_sublist

variable [DecidableEq K]

theorem lookup_iff_entry {m : KeyMap K V} {k : K} {v : V} :
    m.lookup k = some v ↔ ⟨k,v⟩ ∈ m.entries :=
  AList.mem_lookup_iff

def containsKey (m : KeyMap K V) (k : K) : Bool := (m.lookup k).isSome

theorem containsKey_iff {m : KeyMap K V} {k : K} :
    m.containsKey k = true ↔ ∃ v, m.lookup k = some v :=
  Option.isSome_iff_exists

theorem lookup_insert_cases {m : KeyMap K V} {k k' : K} {v v' : V}
    (h : (m.insert k v).lookup k' = some v') :
    (k' = k ∧ v' = v) ∨ (k' ≠ k ∧ m.lookup k' = some v') := by
  by_cases hk : k' = k
  · subst hk
    rw [AList.lookup_insert] at h
    exact .inl ⟨rfl,(Option.some.inj h).symm⟩
  · rw [AList.lookup_insert_ne hk] at h
    exact .inr ⟨hk,h⟩

theorem lookup_erase_some {m : KeyMap K V} {k k' : K} {v : V}
    (h : (m.erase k).lookup k' = some v) : k' ≠ k ∧ m.lookup k' = some v := by
  by_cases hk : k' = k
  · subst hk
    simp at h
  · exact ⟨hk,by rwa [AList.lookup_erase_ne hk] at h⟩

theorem lookup_retain {m : KeyMap K V} {keep : K → V → Bool} {k : K} {v : V} :
    (m.retain keep).lookup k = some v ↔ m.lookup k = some v ∧ keep k v = true := by
  rw [lookup_iff_entry, lookup_iff_entry]
  simp [retain]

theorem size_insert_le (m : KeyMap K V) (k : K) (v : V) : size (m.insert k v) ≤ m.size + 1 := by
  unfold size
  rw [AList.entries_insert, List.length_cons]
  exact Nat.succ_le_succ (List.kerase_sublist k m.entries).length_le

theorem size_insert_of_lookup_none {m : KeyMap K V} {k : K} {v : V} (h : m.lookup k = none) :
    size (m.insert k v) = m.size + 1 := by
  unfold size
  rw [AList.entries_insert_of_notMem (AList.lookup_eq_none.mp h), List.length_cons]

theorem size_erase_le (m : KeyMap K V) (k : K) : size (m.erase k) ≤ m.size :=
  (List.kerase_sublist k m.entries).length_le

theorem size_erase_of_lookup {m : KeyMap K V} {k : K} {v : V} (h : m.lookup k = some v) :
    size (m.erase k) + 1 = m.size := by
  have hk : k ∈ m.entries.keys := AList.lookup_isSome.mp (by rw [h]; rfl)
  obtain ⟨old,before,after,_,hm,he⟩ := List.exists_of_kerase hk
  have herase : (m.erase k).entries = before ++ after := he
  rw [size, size, herase, hm]
  simp only [List.length_append, List.length_cons]
  omega

theorem size_insert_of_lookup_some {m : KeyMap K V} {k : K} {v w : V}
    (h : m.lookup k = some w) : size (m.insert k v) = m.size := by
  have hinsert : size (m.insert k v) = size (m.erase k) + 1 := by
    rw [size, AList.entries_insert, List.length_cons]
    rfl
  rw [hinsert, size_erase_of_lookup h]

def count (p : V → Bool) (m : KeyMap K V) : Nat := m.entries.countP (fun e => p e.2)

def countAt (p : V → Bool) (m : KeyMap K V) (k : K) : Nat :=
  (m.lookup k).elim 0 (fun v => (p v).toNat)

theorem count_erase (p : V → Bool) (m : KeyMap K V) (k : K) :
    m.count p = count p (m.erase k) + m.countAt p k := by
  by_cases hk : k ∈ m.entries.keys
  · obtain ⟨v,before,after,_,hm,he⟩ := List.exists_of_kerase hk
    have hv : m.lookup k = some v := lookup_iff_entry.mpr (by rw [hm]; simp)
    have herase : (m.erase k).entries = before ++ after := he
    simp only [count, countAt, hv, hm, herase, List.countP_append, List.countP_cons,
      Option.elim_some]
    cases p v with
    | false => simp
    | true =>
      simp only [if_true, Bool.toNat_true]
      omega
  · have hv : m.lookup k = none := AList.lookup_eq_none.mpr hk
    have herase : (m.erase k).entries = m.entries := List.kerase_of_notMem_keys hk
    simp [count, countAt, hv, herase]

theorem count_insert (p : V → Bool) (m : KeyMap K V) (k : K) (v : V) :
    count p (m.insert k v) + m.countAt p k = m.count p + (p v).toNat := by
  have hinsert : count p (m.insert k v) = count p (m.erase k) + (p v).toNat := by
    simp only [count, AList.entries_insert, List.countP_cons]
    cases p v <;> rfl
  rw [hinsert, count_erase p m k]
  omega

def collect (pairs : List (K × V)) : KeyMap K V :=
  pairs.foldl (fun m e => m.insert e.1 e.2) ∅

theorem lookup_collect (pairs : List (K × V)) (k : K) :
    (collect pairs).lookup k = ((pairs.filter (fun e => e.1 = k)).map Prod.snd).getLast? := by
  induction pairs using List.reverseRecOn with
  | nil => rfl
  | append_singleton pairs e ih =>
    have hstep : collect (pairs ++ [e]) = (collect pairs).insert e.1 e.2 := List.foldl_concat ..
    rw [hstep, List.filter_append, List.map_append]
    by_cases hk : e.1 = k
    · subst hk
      simp
    · rw [AList.lookup_insert_ne (Ne.symm hk), ih]
      simp [hk]

theorem size_pos_of_lookup {m : KeyMap K V} {k : K} {v : V} (h : m.lookup k = some v) :
    0 < m.size :=
  List.length_pos_of_mem (lookup_iff_entry.mp h)

theorem containsKey_of_size_zero {m : KeyMap K V} (h : m.size = 0) (k : K) :
    m.containsKey k = false := by
  cases hc : m.containsKey k with
  | false => rfl
  | true =>
    obtain ⟨v,hv⟩ := containsKey_iff.mp hc
    exact absurd h (Nat.ne_of_gt (size_pos_of_lookup hv))

end KeyMap

structure Heap (K P : Type) [DecidableEq K] (rank : P → Int) where
  peek : KeyMap K P → Option (K × P)
  peek_none : ∀ m, peek m = none → m.entries = []
  peek_lookup : ∀ m k v, peek m = some (k,v) → m.lookup k = some v
  peek_least : ∀ m k v, peek m = some (k,v) → ∀ k' v', m.lookup k' = some v' → rank v ≤ rank v'

namespace Heap

section Least

variable {K P : Type}

def least (rank : P → Int) : List ((_ : K) × P) → Option ((_ : K) × P)
  | [] => none
  | e :: es =>
      match least rank es with
      | none => some e
      | some f => if rank e.2 ≤ rank f.2 then some e else some f

theorem least_eq_none {rank : P → Int} {es : List ((_ : K) × P)} (h : least rank es = none) :
    es = [] := by
  cases es with
  | nil => rfl
  | cons e es =>
    simp only [least] at h
    split at h
    · cases h
    · split at h <;> cases h

theorem least_spec {rank : P → Int} {es : List ((_ : K) × P)} {e : (_ : K) × P}
    (h : least rank es = some e) : e ∈ es ∧ ∀ f ∈ es, rank e.2 ≤ rank f.2 := by
  induction es generalizing e with
  | nil => cases h
  | cons x es ih =>
    simp only [least] at h
    split at h
    · rename_i hnone
      cases h
      rw [least_eq_none hnone]
      simp
    · rename_i f hsome
      obtain ⟨hm,hle⟩ := ih hsome
      split at h
      · rename_i hxf
        cases h
        exact ⟨List.mem_cons_self,List.forall_mem_cons.mpr
          ⟨Int.le_refl _,fun g hg => Int.le_trans hxf (hle g hg)⟩⟩
      · rename_i hxf
        cases h
        exact ⟨List.mem_cons_of_mem x hm,List.forall_mem_cons.mpr ⟨by omega,hle⟩⟩

end Least

variable {K P : Type} [DecidableEq K] {rank : P → Int}

def popWhile (heap : Heap K P rank) (due : Int → P → Bool) :
    Nat → (Nat → Int) → KeyMap K P → KeyMap K P
  | 0, _, m => m
  | n + 1, clock, m =>
      match heap.peek m with
      | none => m
      | some (k,v) =>
          if due (clock 0) v then popWhile heap due n (fun i => clock (i + 1)) (m.erase k) else m

theorem lookup_popWhile (heap : Heap K P rank) (due : Int → P → Bool) {n : Nat}
    {clock : Nat → Int} {m : KeyMap K P} {k : K} {v : P}
    (h : (heap.popWhile due n clock m).lookup k = some v) : m.lookup k = some v := by
  induction n generalizing clock m with
  | zero => exact h
  | succ n ih =>
    simp only [popWhile] at h
    split at h
    · exact h
    · split at h
      · exact (KeyMap.lookup_erase_some (ih h)).2
      · exact h

theorem size_popWhile_le (heap : Heap K P rank) (due : Int → P → Bool) (n : Nat)
    (clock : Nat → Int) (m : KeyMap K P) : (heap.popWhile due n clock m).size ≤ m.size := by
  induction n generalizing clock m with
  | zero => exact Nat.le_refl _
  | succ n ih =>
    simp only [popWhile]
    split
    · exact Nat.le_refl _
    · split
      · exact Nat.le_trans (ih _ _) (KeyMap.size_erase_le m _)
      · exact Nat.le_refl _

def leastEntry (rank : P → Int) : Heap K P rank where
  peek m := (least rank m.entries).map (fun e => (e.1,e.2))
  peek_none m h := least_eq_none (by simpa using h)
  peek_lookup m k v h := by
    obtain ⟨e,he,hv⟩ := Option.map_eq_some_iff.mp h
    obtain ⟨rfl,rfl⟩ := Prod.mk.inj hv
    exact KeyMap.lookup_iff_entry.mpr (least_spec he).1
  peek_least m k v h k' v' h' := by
    obtain ⟨e,he,hv⟩ := Option.map_eq_some_iff.mp h
    obtain ⟨rfl,rfl⟩ := Prod.mk.inj hv
    exact (least_spec he).2 _ (KeyMap.lookup_iff_entry.mp h')

end Heap

end InertiaRelayer
