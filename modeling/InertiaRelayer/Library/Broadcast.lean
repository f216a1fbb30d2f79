import Mathlib.Data.List.Basic

namespace InertiaRelayer.Broadcast

structure Receiver where
  cursor : Nat
deriving DecidableEq

variable {α β : Type*}

def subscribe (sent : List α) : Receiver := ⟨sent.length⟩

def recv (sent : List α) (r : Receiver) : Option (α × Receiver) :=
  (sent[r.cursor]?).map fun x => (x,⟨r.cursor + 1⟩)

def lag (sent : List α) (n : Nat) (r : Receiver) : Option Receiver :=
  if r.cursor + n ≤ sent.length then some ⟨r.cursor + n⟩ else none

def seen (sent : List α) (start : Nat) (r : Receiver) : List (α × Nat) :=
  (sent.zipIdx.take r.cursor).drop start

structure Follows (sent : List α) (start : Nat) (r : Receiver) (taken : List (α × Nat)) :
    Prop where
  start_le : start ≤ r.cursor
  cursor_le : r.cursor ≤ sent.length
  taken : taken.Sublist (seen sent start r)

variable {sent : List α} {start : Nat} {r next : Receiver} {taken : List (α × Nat)} {x : α}

theorem recv_some (h : recv sent r = some (x,next)) :
    sent[r.cursor]? = some x ∧ next = ⟨r.cursor + 1⟩ := by
  obtain ⟨y,hy,heq⟩ := Option.map_eq_some_iff.mp h
  obtain ⟨rfl,rfl⟩ := Prod.mk.inj heq
  exact ⟨hy,rfl⟩

theorem recv_append (h : recv sent r = some (x,next)) (more : List α) :
    recv (sent ++ more) r = some (x,next) := by
  obtain ⟨hx,rfl⟩ := recv_some h
  rw [recv, List.getElem?_append_left (List.getElem?_eq_some_iff.mp hx).1, hx]
  rfl

theorem lag_some {n : Nat} (h : lag sent n r = some next) :
    r.cursor + n ≤ sent.length ∧ next = ⟨r.cursor + n⟩ := by
  unfold lag at h
  split at h
  · rename_i hle
    exact ⟨hle,(Option.some.inj h).symm⟩
  · cases h

def unread (sent : List α) (r : Receiver) : List α := sent.drop r.cursor

theorem unread_subscribe (sent : List α) : unread sent (subscribe sent) = [] := by
  simp [unread, subscribe]

theorem unread_send (h : r.cursor ≤ sent.length) (more : List α) :
    unread (sent ++ more) r = unread sent r ++ more :=
  List.drop_append_of_le_length h

theorem unread_recv (h : recv sent r = some (x,next)) :
    unread sent r = x :: unread sent next := by
  obtain ⟨hx,rfl⟩ := recv_some h
  rw [unread, List.drop_eq_getElem?_toList_append, hx]
  rfl

theorem mem_unread_append {more : List α} (h : x ∈ unread (sent ++ more) r) :
    x ∈ unread sent r ∨ x ∈ more := by
  rw [unread, List.drop_append] at h
  exact (List.mem_append.mp h).imp_right (fun hm => List.drop_subset _ _ hm)

theorem recv_mem_unread (h : recv sent r = some (x,next)) : x ∈ unread sent r := by
  obtain ⟨hx,_⟩ := recv_some h
  rw [unread, List.drop_eq_getElem?_toList_append, hx]
  exact List.mem_cons_self

theorem unread_recv_subset (h : recv sent r = some (x,next)) : unread sent next ⊆ unread sent r := by
  obtain ⟨_,rfl⟩ := recv_some h
  exact List.drop_subset_drop_left _ (Nat.le_succ _)

theorem unread_lag_subset {n : Nat} (h : lag sent n r = some next) :
    unread sent next ⊆ unread sent r := by
  obtain ⟨_,rfl⟩ := lag_some h
  exact List.drop_subset_drop_left _ (Nat.le_add_right _ _)

theorem follows_subscribe (sent : List α) : Follows sent sent.length (subscribe sent) [] :=
  ⟨Nat.le_refl _,Nat.le_refl _,List.nil_sublist _⟩

theorem follows_send (h : Follows sent start r taken) (more : List α) :
    Follows (sent ++ more) start r taken where
  start_le := h.start_le
  cursor_le := by
    rw [List.length_append]
    exact Nat.le_trans h.cursor_le (Nat.le_add_right _ _)
  taken := by
    have hlen : r.cursor ≤ sent.zipIdx.length := by
      rw [List.length_zipIdx]
      exact h.cursor_le
    rw [seen, List.zipIdx_append, List.take_append_of_le_length hlen]
    exact h.taken

theorem seen_succ (h : Follows sent start r taken) (hx : sent[r.cursor]? = some x) :
    seen sent start ⟨r.cursor + 1⟩ = seen sent start r ++ [(x,r.cursor)] := by
  have hget : sent.zipIdx[r.cursor]? = some (x,r.cursor) := by simp [hx]
  have hlen : (sent.zipIdx.take r.cursor).length = r.cursor := by
    rw [List.length_take, List.length_zipIdx]
    exact Nat.min_eq_left h.cursor_le
  rw [seen, List.take_add_one, hget, List.drop_append_of_le_length (by rw [hlen]; exact h.start_le)]
  rfl

def Skips (sent : List α) (r next : Receiver) : Prop :=
  ∃ n, r.cursor + n ≤ sent.length ∧ next = ⟨r.cursor + n⟩

theorem skips_recv (hr : recv sent r = some (x,next)) : Skips sent r next := by
  obtain ⟨hx,rfl⟩ := recv_some hr
  exact ⟨1,(List.getElem?_eq_some_iff.mp hx).1,rfl⟩

theorem skips_lag {n : Nat} (hl : lag sent n r = some next) : Skips sent r next :=
  ⟨n,lag_some hl⟩

theorem follows_skip (h : Follows sent start r taken) (hs : Skips sent r next) :
    Follows sent start next taken := by
  obtain ⟨n,hn,rfl⟩ := hs
  refine ⟨Nat.le_trans h.start_le (Nat.le_add_right _ _),hn,h.taken.trans ?_⟩
  exact (List.take_prefix_take_left (Nat.le_add_right _ _)).sublist.drop _

theorem follows_recv (h : Follows sent start r taken) (hr : recv sent r = some (x,next)) :
    Follows sent start next (taken ++ [(x,r.cursor)]) := by
  obtain ⟨hx,rfl⟩ := recv_some hr
  have hlt : r.cursor < sent.length := (List.getElem?_eq_some_iff.mp hx).1
  refine ⟨Nat.le_trans h.start_le (Nat.le_succ _),hlt,?_⟩
  rw [seen_succ h hx]
  exact h.taken.append_right _

theorem taken_sublist (h : Follows sent start r taken) : taken.Sublist (sent.zipIdx.drop start) :=
  h.taken.trans ((List.take_sublist _ _).drop _)

theorem received_sublist (h : Follows sent start r taken) : (taken.map Prod.fst).Sublist sent := by
  have hmap := ((taken_sublist h).trans (List.drop_sublist _ _)).map Prod.fst
  rwa [List.zipIdx_map_fst] at hmap

theorem taken_mem (h : Follows sent start r taken) {y : α × Nat} (hy : y ∈ taken) :
    sent[y.2]? = some y.1 :=
  List.mem_zipIdx_iff_getElem?.mp (List.drop_subset _ _ ((taken_sublist h).subset hy))

end InertiaRelayer.Broadcast
