import Mathlib.Data.List.Basic

namespace InertiaRelayer.Chunks

structure Chunked (α : Type*) where
  full : List (List α)
  current : List α

variable {α : Type*}

def push (size : Nat) (c : Chunked α) (x : α) : Chunked α :=
  if (c.current ++ [x]).length = size then ⟨c.full ++ [c.current ++ [x]],[]⟩
  else ⟨c.full,c.current ++ [x]⟩

def finish (c : Chunked α) : List (List α) :=
  if c.current.isEmpty then c.full else c.full ++ [c.current]

def chunks (size : Nat) (xs : List α) : List (List α) := finish (xs.foldl (push size) ⟨[],[]⟩)

def contents (c : Chunked α) : List α := c.full.flatten ++ c.current

theorem contents_push (size : Nat) (c : Chunked α) (x : α) :
    contents (push size c x) = contents c ++ [x] := by
  unfold push
  split <;> simp [contents]

theorem contents_foldl (size : Nat) (c : Chunked α) (xs : List α) :
    contents (xs.foldl (push size) c) = contents c ++ xs := by
  induction xs generalizing c with
  | nil => simp
  | cons x xs ih =>
    rw [List.foldl_cons, ih, contents_push, List.append_assoc, List.singleton_append]

theorem flatten_finish (c : Chunked α) : (finish c).flatten = contents c := by
  obtain ⟨full,current⟩ := c
  cases current with
  | nil => simp [finish, contents]
  | cons x xs => simp [finish, contents]

theorem flatten_chunks (size : Nat) (xs : List α) : (chunks size xs).flatten = xs := by
  rw [chunks, flatten_finish, contents_foldl]
  rfl

theorem length_flatMap_of_length {β : Type*} {f : α → List β} {n : Nat}
    (h : ∀ x, (f x).length = n) (xs : List α) : (xs.flatMap f).length = xs.length * n := by
  induction xs with
  | nil => simp
  | cons x xs ih =>
    rw [List.flatMap_cons, List.length_append, h x, ih, List.length_cons, Nat.succ_mul,
      Nat.add_comm]

structure Sized (size : Nat) (c : Chunked α) : Prop where
  full : ∀ chunk ∈ c.full, chunk.length = size
  current : c.current.length < size

variable {size : Nat}

theorem sized_push {c : Chunked α} (h : Sized size c) (x : α) : Sized size (push size c x) := by
  unfold push
  split
  case isTrue hfull =>
    constructor
    · intro chunk hmem
      obtain hold | hnew := List.mem_append.mp hmem
      · exact h.full chunk hold
      · rw [List.mem_singleton.mp hnew]
        exact hfull
    · exact Nat.zero_lt_of_lt h.current
  case isFalse hfull =>
    constructor
    · exact h.full
    · have hlt := h.current
      simp only [List.length_append, List.length_singleton] at hfull ⊢
      omega

theorem sized_foldl {c : Chunked α} (h : Sized size c) (xs : List α) :
    Sized size (xs.foldl (push size) c) := by
  induction xs generalizing c with
  | nil => exact h
  | cons x xs ih => exact ih (sized_push h x)

theorem length_of_mem_finish {c : Chunked α} (h : Sized size c) {chunk : List α}
    (hmem : chunk ∈ finish c) : chunk ≠ [] ∧ chunk.length ≤ size := by
  have hpos := Nat.zero_lt_of_lt h.current
  have hold : chunk ∈ c.full → chunk ≠ [] ∧ chunk.length ≤ size := by
    intro hm
    have hlen := h.full chunk hm
    constructor
    · intro hnil
      rw [hnil, List.length_nil] at hlen
      omega
    · omega
  unfold finish at hmem
  split at hmem
  case isTrue => exact hold hmem
  case isFalse hne =>
    obtain hm | hm := List.mem_append.mp hmem
    · exact hold hm
    · rw [List.mem_singleton.mp hm]
      exact ⟨by simpa using hne,Nat.le_of_lt h.current⟩

theorem length_of_mem_dropLast_finish {c : Chunked α} (h : Sized size c) {chunk : List α}
    (hmem : chunk ∈ (finish c).dropLast) : chunk.length = size := by
  apply h.full
  unfold finish at hmem
  split at hmem
  case isTrue => exact List.dropLast_subset _ hmem
  case isFalse => rwa [List.dropLast_concat] at hmem

theorem sized_start (hsize : 0 < size) : Sized size (⟨[],[]⟩ : Chunked α) where
  full chunk hmem := by cases hmem
  current := hsize

theorem length_of_mem_chunks (hsize : 0 < size) {xs chunk : List α}
    (hmem : chunk ∈ chunks size xs) : chunk ≠ [] ∧ chunk.length ≤ size :=
  length_of_mem_finish (sized_foldl (sized_start hsize) xs) hmem

theorem length_le_flatten {xss : List (List α)} (h : ∀ xs ∈ xss, xs ≠ []) :
    xss.length ≤ xss.flatten.length := by
  induction xss with
  | nil => exact Nat.le_refl 0
  | cons xs xss ih =>
    obtain ⟨hne,hrest⟩ := List.forall_mem_cons.mp h
    have hpos := List.length_pos_iff.mpr hne
    have hle := ih hrest
    rw [List.length_cons, List.flatten_cons, List.length_append]
    omega

theorem length_chunks_le (hsize : 0 < size) (xs : List α) :
    (chunks size xs).length ≤ xs.length := by
  have hle := length_le_flatten fun chunk (hmem : chunk ∈ chunks size xs) =>
    (length_of_mem_chunks hsize hmem).1
  rwa [flatten_chunks] at hle

theorem length_of_mem_dropLast_chunks (hsize : 0 < size) {xs chunk : List α}
    (hmem : chunk ∈ (chunks size xs).dropLast) : chunk.length = size :=
  length_of_mem_dropLast_finish (sized_foldl (sized_start hsize) xs) hmem

end InertiaRelayer.Chunks
