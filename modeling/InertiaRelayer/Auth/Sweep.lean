import InertiaRelayer.Auth.Challenges
import InertiaRelayer.Library.Sweep

namespace InertiaRelayer.Auth

def AuthChallenge.cmp (a b : AuthChallenge) : Ordering :=
  compare a.expiresAtUtc b.expiresAtUtc

structure Reverse where
  challenge : AuthChallenge

def Reverse.cmp (a b : Reverse) : Ordering :=
  b.challenge.cmp a.challenge

namespace AuthChallenges

def MaximalPriority (q : AuthChallenges) (ip : IpAddr) (c : AuthChallenge) : Prop :=
  q.getPriority ip = some c ∧
    ∀ ip' c', q.getPriority ip' = some c' → Reverse.cmp ⟨c'⟩ ⟨c⟩ ≠ .gt

abbrev PopsExpired (q : AuthChallenges) (removed : List (IpAddr × AuthChallenge × Int))
    (q' : AuthChallenges) : Prop :=
  Heap.Pops MaximalPriority (fun now c => c.isExpired now) q removed q'

abbrev SweepsExpired (q : AuthChallenges) (readings : List Int)
    (removed : List (IpAddr × AuthChallenge × Int)) (q' : AuthChallenges) : Prop :=
  Heap.Sweep MaximalPriority (fun now c => c.isExpired now) q readings removed q'

theorem reverse_cmp_ne_gt {a b : AuthChallenge} :
    Reverse.cmp ⟨a⟩ ⟨b⟩ ≠ .gt ↔ b.expiresAtUtc ≤ a.expiresAtUtc := by
  simp only [Reverse.cmp, AuthChallenge.cmp]
  rw [ne_eq, compare_gt_iff_gt, not_lt]

theorem firstDue : Heap.FirstDue MaximalPriority (fun now c => c.isExpired now) where
  lookup h := h.1
  first h hl hexp := by
    have hle := reverse_cmp_ne_gt.mp (h.2 _ _ hl)
    simp only [AuthChallenge.isExpired, decide_eq_true_eq] at hexp ⊢
    exact Int.le_trans hle hexp
  monotone hle hexp := by
    simp only [AuthChallenge.isExpired, decide_eq_true_eq] at hexp ⊢
    exact Int.le_trans hexp hle

theorem maximal_of_peek (heap : Heap IpAddr AuthChallenge AuthChallenge.expiresAtUtc)
    (q : AuthChallenges) (ip : IpAddr) (c : AuthChallenge) (h : heap.peek q = some (ip,c)) :
    MaximalPriority q ip c :=
  ⟨heap.peek_lookup q ip c h,
    fun ip' c' hl => reverse_cmp_ne_gt.mpr (heap.peek_least q ip c h ip' c' hl)⟩

theorem entries_nil_or_maximal (q : AuthChallenges) :
    q.entries = [] ∨ ∃ ip c, MaximalPriority q ip c := by
  cases h : (Heap.leastEntry AuthChallenge.expiresAtUtc).peek q with
  | none => exact .inl (Heap.peek_none _ q h)
  | some head => exact .inr ⟨head.1,head.2,maximal_of_peek _ q head.1 head.2 h⟩

theorem removeAllExpired_sweeps (p : Platform) (clock : Nat → Int) (q : AuthChallenges) :
    ∃ readings removed, readings = (List.range readings.length).map clock ∧
      SweepsExpired q readings removed (q.removeAllExpired p clock) :=
  Heap.popWhile_sweep p.heap firstDue (maximal_of_peek p.heap) q.size clock q (Nat.le_refl _)

theorem expiry_sweep_exact (q : AuthChallenges) :
    (∀ removed q', PopsExpired q removed q' → removed.length + q'.len = q.len) ∧
    (∀ q' : AuthChallenges, q'.entries = [] ∨ ∃ ip c, MaximalPriority q' ip c) ∧
    (∀ p clock, ∃ readings removed, readings = (List.range readings.length).map clock ∧
      SweepsExpired q readings removed (q.removeAllExpired p clock)) ∧
    ∀ readings removed q', readings.Pairwise (· ≤ ·) → SweepsExpired q readings removed q' →
      (∀ ip c now, (ip,c,now) ∈ removed →
        q.getPriority ip = some c ∧ c.isExpired now = true ∧ now ∈ readings) ∧
      (∀ ip c, q'.getPriority ip = some c → q.getPriority ip = some c ∧
        ∃ last, readings.getLast? = some last ∧ c.isExpired last = false) ∧
      (∀ ip c, q.getPriority ip = some c →
        q'.getPriority ip = some c ∨ ∃ now, (ip,c,now) ∈ removed) ∧
      ∀ last, readings.getLast? = some last → ∀ ip c,
        q'.getPriority ip = some c ↔ q.getPriority ip = some c ∧ c.isExpired last = false := by
  refine ⟨fun removed q' h => h.size firstDue,entries_nil_or_maximal,
    fun p clock => removeAllExpired_sweeps p clock q,?_⟩
  intro readings removed q' hmono h
  refine ⟨?_,?_,?_,?_⟩
  · intro ip c now hmem
    obtain ⟨hl,hexp⟩ := h.pops.lookup_removed firstDue hmem
    exact ⟨hl,hexp,h.reading_of_removed hmem⟩
  · intro ip c hkept
    exact ⟨h.pops.lookup_kept hkept,h.kept_not_due firstDue hkept⟩
  · intro ip c hl
    exact h.pops.lookup_cases firstDue hl
  · intro last hlast ip c
    exact h.exact firstDue hmono hlast

end AuthChallenges

end InertiaRelayer.Auth
