import InertiaRelayer.Library.KeyMap

namespace InertiaRelayer.Heap

variable {K P : Type} [DecidableEq K]

structure FirstDue (Head : KeyMap K P → K → P → Prop) (due : Int → P → Bool) : Prop where
  lookup : ∀ {m k v}, Head m k v → m.lookup k = some v
  first : ∀ {m k v k' v' now}, Head m k v → m.lookup k' = some v' →
    due now v' = true → due now v = true
  monotone : ∀ {now later v}, now ≤ later → due now v = true → due later v = true

inductive Pops (Head : KeyMap K P → K → P → Prop) (due : Int → P → Bool) :
    KeyMap K P → List (K × P × Int) → KeyMap K P → Prop
  | nil (m : KeyMap K P) : Pops Head due m [] m
  | pop {m m' : KeyMap K P} {k k' : K} {v v' : P} {now : Int} {removed : List (K × P × Int)}
      (hpeek : Head m k v) (hdue : due now v = true) (hpop : Head m k' v')
      (rest : Pops Head due (m.erase k') removed m') :
      Pops Head due m ((k',v',now) :: removed) m'

structure Sweep (Head : KeyMap K P → K → P → Prop) (due : Int → P → Bool)
    (m : KeyMap K P) (readings : List Int) (removed : List (K × P × Int)) (m' : KeyMap K P) :
    Prop where
  pops : Pops Head due m removed m'
  stop : (m'.entries = [] ∧ readings = removed.map (fun e => e.2.2)) ∨
    ∃ k v now, Head m' k v ∧ due now v = false ∧ readings = removed.map (fun e => e.2.2) ++ [now]

variable {Head : KeyMap K P → K → P → Prop} {due : Int → P → Bool}
  {m m' : KeyMap K P} {removed : List (K × P × Int)} {readings : List Int} {k : K} {v : P}

theorem Pops.lookup_kept (h : Pops Head due m removed m') (hk : m'.lookup k = some v) :
    m.lookup k = some v := by
  induction h with
  | nil m => exact hk
  | pop _ _ _ _ ih => exact (KeyMap.lookup_erase_some (ih hk)).2

theorem Pops.lookup_removed (hf : FirstDue Head due) (h : Pops Head due m removed m') {now : Int}
    (hmem : (k,v,now) ∈ removed) : m.lookup k = some v ∧ due now v = true := by
  induction h with
  | nil m => cases hmem
  | pop hpeek hdue hpop rest ih =>
    obtain heq | htail := List.mem_cons.mp hmem
    · cases heq
      exact ⟨hf.lookup hpop,hf.first hpop (hf.lookup hpeek) hdue⟩
    · obtain ⟨hl,hd⟩ := ih htail
      exact ⟨(KeyMap.lookup_erase_some hl).2,hd⟩

theorem Pops.lookup_cases (hf : FirstDue Head due) (h : Pops Head due m removed m')
    (hk : m.lookup k = some v) : m'.lookup k = some v ∨ ∃ now, (k,v,now) ∈ removed := by
  induction h with
  | nil m => exact .inl hk
  | @pop m m' _ k' _ v' now removed _ _ hpop rest ih =>
    by_cases hkk : k = k'
    · subst hkk
      have hv : v = v' := Option.some.inj (hk.symm.trans (hf.lookup hpop))
      subst hv
      exact .inr ⟨now,List.mem_cons_self⟩
    · obtain hkept | ⟨t,ht⟩ := ih (by rwa [AList.lookup_erase_ne hkk])
      · exact .inl hkept
      · exact .inr ⟨t,List.mem_cons_of_mem _ ht⟩

theorem Pops.size (hf : FirstDue Head due) (h : Pops Head due m removed m') :
    removed.length + m'.size = m.size := by
  induction h with
  | nil m => exact Nat.zero_add _
  | pop _ _ hpop rest ih =>
    rw [List.length_cons, ← KeyMap.size_erase_of_lookup (hf.lookup hpop), ← ih]
    omega

theorem Sweep.kept_not_due (hf : FirstDue Head due) (h : Sweep Head due m readings removed m')
    (hk : m'.lookup k = some v) :
    ∃ last, readings.getLast? = some last ∧ due last v = false := by
  obtain ⟨hempty,-⟩ | ⟨k',v',now,hhead,hdue,rfl⟩ := h.stop
  · have hentry := KeyMap.lookup_iff_entry.mp hk
    rw [hempty] at hentry
    cases hentry
  · refine ⟨now,by simp,?_⟩
    cases hv : due now v with
    | false => rfl
    | true =>
      rw [hf.first hhead hk hv] at hdue
      cases hdue

theorem Sweep.reading_of_removed (h : Sweep Head due m readings removed m') {now : Int}
    (hmem : (k,v,now) ∈ removed) : now ∈ readings := by
  have hmap : now ∈ removed.map (fun e => e.2.2) := List.mem_map.mpr ⟨_,hmem,rfl⟩
  obtain ⟨-,rfl⟩ | ⟨_,_,_,-,-,rfl⟩ := h.stop
  · exact hmap
  · exact List.mem_append_left _ hmap

theorem le_getLast_of_mem {xs : List Int} (hmono : xs.Pairwise (· ≤ ·)) {x last : Int}
    (hx : x ∈ xs) (hlast : xs.getLast? = some last) : x ≤ last := by
  obtain ⟨init,rfl⟩ := List.getLast?_eq_some_iff.mp hlast
  obtain hinit | hsame := List.mem_append.mp hx
  · exact (List.pairwise_append.mp hmono).2.2 x hinit last (by simp)
  · rw [List.mem_singleton.mp hsame]

theorem Sweep.exact (hf : FirstDue Head due) (h : Sweep Head due m readings removed m')
    (hmono : readings.Pairwise (· ≤ ·)) {last : Int} (hlast : readings.getLast? = some last) :
    m'.lookup k = some v ↔ m.lookup k = some v ∧ due last v = false := by
  constructor
  · intro hk
    obtain ⟨t,ht,hdue⟩ := h.kept_not_due hf hk
    cases hlast.symm.trans ht
    exact ⟨h.pops.lookup_kept hk,hdue⟩
  · rintro ⟨hk,hdue⟩
    obtain hkept | ⟨now,hmem⟩ := h.pops.lookup_cases hf hk
    · exact hkept
    · have hle := le_getLast_of_mem hmono (h.reading_of_removed hmem) hlast
      have hexp := hf.monotone hle (h.pops.lookup_removed hf hmem).2
      rw [hexp] at hdue
      cases hdue

theorem popWhile_sweep {rank : P → Int} (heap : Heap K P rank) (hf : FirstDue Head due)
    (hhead : ∀ m k v, heap.peek m = some (k,v) → Head m k v) (n : Nat) :
    ∀ (clock : Nat → Int) (m : KeyMap K P), m.size ≤ n →
      ∃ readings removed, readings = (List.range readings.length).map clock ∧
        Sweep Head due m readings removed (heap.popWhile due n clock m) := by
  induction n with
  | zero =>
    intro clock m hsize
    have hempty : m.entries = [] := List.length_eq_zero_iff.mp (Nat.le_zero.mp hsize)
    exact ⟨[],[],rfl,.nil m,.inl ⟨hempty,rfl⟩⟩
  | succ n ih =>
    intro clock m hsize
    simp only [popWhile]
    cases hpeek : heap.peek m with
    | none => exact ⟨[],[],rfl,.nil m,.inl ⟨heap.peek_none m hpeek,rfl⟩⟩
    | some head =>
      obtain ⟨k,v⟩ := head
      have hh := hhead m k v hpeek
      cases hdue : due (clock 0) v with
      | false =>
        refine ⟨[clock 0],[],rfl,?_⟩
        simp only [hdue, Bool.false_eq_true, if_false]
        exact ⟨.nil m,.inr ⟨k,v,clock 0,hh,hdue,rfl⟩⟩
      | true =>
        have hless := KeyMap.size_erase_of_lookup (hf.lookup hh)
        obtain ⟨readings,removed,hr,hs⟩ :=
          ih (fun i => clock (i + 1)) (m.erase k) (by omega)
        simp only [hdue, if_true]
        refine ⟨clock 0 :: readings,(k,v,clock 0) :: removed,?_,.pop hh hdue hh hs.pops,?_⟩
        · rw [List.length_cons, List.range_succ_eq_map, List.map_cons, List.map_map]
          exact congrArg _ hr
        · obtain ⟨hempty,hread⟩ | ⟨k',v',now,hhead',hnot,hread⟩ := hs.stop
          · exact .inl ⟨hempty,by rw [hread]; rfl⟩
          · exact .inr ⟨k',v',now,hhead',hnot,by rw [hread]; rfl⟩

end InertiaRelayer.Heap
