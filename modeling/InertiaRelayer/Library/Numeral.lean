import Mathlib.Data.Nat.Digits.Lemmas
import Mathlib.Data.List.GetD

namespace InertiaRelayer.Numeral

variable (alphabet : List Char)

def encode (n : Nat) : List Char :=
  (Nat.digits alphabet.length n).reverse.map (fun d => alphabet.getD d ' ')

def decode (cs : List Char) : Nat :=
  Nat.ofDigits alphabet.length (cs.reverse.map (fun c => alphabet.idxOf c))

variable {alphabet}

theorem idxOf_getD (hn : alphabet.Nodup) {d : Nat} (hd : d < alphabet.length) :
    alphabet.idxOf (alphabet.getD d ' ') = d := by
  rw [List.getD_eq_getElem _ _ hd]
  exact hn.idxOf_getElem d hd

theorem decode_encode (hn : alphabet.Nodup) (hb : 1 < alphabet.length) (n : Nat) :
    decode alphabet (encode alphabet n) = n := by
  have hmap : ((Nat.digits alphabet.length n).map (fun d => alphabet.getD d ' ')).map
      (fun c => alphabet.idxOf c) = Nat.digits alphabet.length n := by
    rw [List.map_map]
    conv_rhs => rw [← List.map_id (Nat.digits alphabet.length n)]
    apply List.map_congr_left
    intro d hd
    exact idxOf_getD hn (Nat.digits_lt_base hb hd)
  unfold decode encode
  rw [← List.map_reverse, List.reverse_reverse, hmap, Nat.ofDigits_digits]

theorem mem_encode (hb : 1 < alphabet.length) {n : Nat} {c : Char}
    (h : c ∈ encode alphabet n) : c ∈ alphabet := by
  simp only [encode, List.mem_map, List.mem_reverse] at h
  obtain ⟨d,hd,rfl⟩ := h
  have hlt := Nat.digits_lt_base hb hd
  rw [List.getD_eq_getElem _ _ hlt]
  exact List.getElem_mem hlt

theorem encode_head (hn : alphabet.Nodup) (hb : 1 < alphabet.length) {n : Nat} {c : Char}
    (h : (encode alphabet n).head? = some c) : c ≠ alphabet.getD 0 ' ' := by
  by_cases h0 : n = 0
  · subst h0
    simp [encode] at h
  · have hne : Nat.digits alphabet.length n ≠ [] := Nat.digits_ne_nil_iff_ne_zero.mpr h0
    have hlast := Nat.getLast_digit_ne_zero alphabet.length h0
    simp only [encode, List.head?_map, List.head?_reverse,
      List.getLast?_eq_some_getLast hne, Option.map_some, Option.some.injEq] at h
    have hlt := Nat.digits_lt_base hb (List.getLast_mem hne)
    rintro rfl
    have hidx := congrArg (fun c => alphabet.idxOf c) h
    simp only [idxOf_getD hn hlt, idxOf_getD hn (Nat.zero_lt_of_lt hb)] at hidx
    exact hlast hidx

end InertiaRelayer.Numeral
