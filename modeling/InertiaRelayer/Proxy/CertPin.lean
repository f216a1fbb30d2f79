import Mathlib.Data.Vector.Basic
import InertiaRelayer.Library.Chunks
import InertiaRelayer.Types

namespace InertiaRelayer.Proxy

namespace CertPin

inductive ParseFailure where
  | rejected (message : String)
  | outOfBounds
  deriving DecidableEq

abbrev Pin := List.Vector UInt8 32

def bytes (s : String) : List UInt8 :=
  s.toUTF8.data.toList

def isAsciiWhitespace (b : UInt8) : Bool :=
  b == 32 || b == 9 || b == 10 || b == 12 || b == 13

def isSeparator (b : UInt8) : Bool :=
  isAsciiWhitespace b || b == 58

def cleaned (s : String) : List UInt8 :=
  (bytes s).filter (fun b => !isAsciiWhitespace b && b != 58)

def isPrintable (c : UInt8) : Bool :=
  decide (32 ≤ c ∧ c < 127) || decide (160 < c ∧ c ≠ 173)

def escapeDebug (c : UInt8) : String :=
  if c = 0 then "\\0"
  else if c = 9 then "\\t"
  else if c = 13 then "\\r"
  else if c = 10 then "\\n"
  else if c = 39 then "\\'"
  else if c = 92 then "\\\\"
  else if isPrintable c then String.singleton (Char.ofNat c.toNat)
  else "\\u\x7b" ++ String.ofList (Nat.toDigits 16 c.toNat) ++ "\x7d"

def hexVal (c : UInt8) : Except ParseFailure UInt8 :=
  if 48 ≤ c ∧ c ≤ 57 then .ok (c - 48)
  else if 97 ≤ c ∧ c ≤ 102 then .ok (c - 97 + 10)
  else if 65 ≤ c ∧ c ≤ 70 then .ok (c - 65 + 10)
  else .error (.rejected ("invalid hex character: '" ++ escapeDebug c ++ "'"))

def index (cleaned : List UInt8) (i : Nat) : Except ParseFailure UInt8 :=
  match cleaned[i]? with
  | some c => .ok c
  | none => .error .outOfBounds

def parseByte (cleaned : List UInt8) (i : Nat) : Except ParseFailure UInt8 := do
  let hi ← hexVal (← index cleaned (i * 2))
  let lo ← hexVal (← index cleaned (i * 2 + 1))
  return (hi <<< 4) ||| lo

def parseBytes (cleaned : List UInt8) : (n i : Nat) → Except ParseFailure (List.Vector UInt8 n)
  | 0, _ => .ok .nil
  | n + 1, i => do
    let byte ← parseByte cleaned i
    let rest ← parseBytes cleaned n (i + 1)
    return .cons byte rest

def parseCertPin (s : String) : Except ParseFailure Pin :=
  if (cleaned s).length ≠ 64 then
    .error (.rejected ("expected 64 hex characters (32-byte SHA-256), got "
      ++ toString (cleaned s).length))
  else parseBytes (cleaned s) 32 0

def lowerHex (b : UInt8) : String :=
  String.ofList ((Nat.toDigits 16 b.toNat).leftpad 2 '0')

def hexEncode (bs : List UInt8) : String :=
  bs.foldl (fun s b => s ++ lowerHex b) ""

def isHexDigit (c : UInt8) : Bool :=
  decide (48 ≤ c ∧ c ≤ 57) || decide (97 ≤ c ∧ c ≤ 102) || decide (65 ≤ c ∧ c ≤ 70)

def lowerDigit (c : UInt8) : UInt8 :=
  if 65 ≤ c ∧ c ≤ 70 then c + 32 else c

def digit (d : Nat) : UInt8 :=
  if d < 10 then UInt8.ofNat (48 + d) else UInt8.ofNat (87 + d)

def hexByte (b : UInt8) : List UInt8 :=
  [digit (b.toNat / 16),digit (b.toNat % 16)]

theorem forall_byte {P : UInt8 → Prop} (h : ∀ n : Fin 256, P (UInt8.ofNat n)) (c : UInt8) :
    P c := by
  have hc := h ⟨c.toNat,c.toNat_lt⟩
  rwa [UInt8.ofNat_toNat] at hc

theorem hexVal_digit (d : Fin 16) : hexVal (digit d) = .ok (UInt8.ofNat d) := by
  revert d
  decide

theorem hexVal_lowerDigit (c : UInt8) : hexVal (lowerDigit c) = hexVal c := by
  unfold lowerDigit
  split
  case isTrue hupper =>
    revert hupper
    revert c
    apply forall_byte
    decide +kernel
  case isFalse => rfl

theorem lowerDigit_of_hex (c : UInt8) (h : isHexDigit c = true) :
    ∃ d : Fin 16, lowerDigit c = digit d := by
  revert h
  revert c
  apply forall_byte
  decide +kernel

theorem isHexDigit_of_lowerDigit (c : UInt8) (d : Fin 16) (h : lowerDigit c = digit d) :
    isHexDigit c = true := by
  revert d
  revert c
  apply forall_byte
  decide +kernel

theorem hexVal_not_hex (c : UInt8) (h : isHexDigit c = false) :
    hexVal c = .error (.rejected ("invalid hex character: '" ++ escapeDebug c ++ "'")) := by
  simp only [isHexDigit, Bool.or_eq_false_iff, decide_eq_false_iff_not] at h
  obtain ⟨⟨hd,hl⟩,hu⟩ := h
  simp only [hexVal, if_neg hd, if_neg hl, if_neg hu]

theorem join_nibbles (hi lo : Fin 16) :
    hexByte ((UInt8.ofNat hi <<< 4) ||| UInt8.ofNat lo) = [digit hi,digit lo] := by
  revert hi lo
  decide +kernel

theorem split_nibbles (b : UInt8) :
    (UInt8.ofNat (b.toNat / 16) <<< 4) ||| UInt8.ofNat (b.toNat % 16) = b := by
  revert b
  apply forall_byte
  decide +kernel

theorem hexVal_of_lowerDigit {c : UInt8} {d : Nat} (hd : d < 16) (h : lowerDigit c = digit d) :
    hexVal c = .ok (UInt8.ofNat d) := by
  rw [← hexVal_lowerDigit, h]
  exact hexVal_digit ⟨d,hd⟩

theorem hexVal_cases (c : UInt8) :
    (∃ d : Fin 16, lowerDigit c = digit d ∧ hexVal c = .ok (UInt8.ofNat d)) ∨
      isHexDigit c = false ∧ ∃ message, hexVal c = .error (.rejected message) := by
  cases hc : isHexDigit c with
  | true =>
    obtain ⟨d,hd⟩ := lowerDigit_of_hex c hc
    exact .inl ⟨d,hd,hexVal_of_lowerDigit d.isLt hd⟩
  | false => exact .inr ⟨rfl,_,hexVal_not_hex c hc⟩

theorem parseByte_eq {xs : List UInt8} {i : Nat} {a b : UInt8} {rest : List UInt8}
    (h : xs.drop (i * 2) = a :: b :: rest) :
    parseByte xs i = (do let hi ← hexVal a; let lo ← hexVal b; return (hi <<< 4) ||| lo) := by
  have ha : xs[i * 2]? = some a := by
    have := congrArg (fun l => l[0]?) h
    simpa using this
  have hb : xs[i * 2 + 1]? = some b := by
    have := congrArg (fun l => l[1]?) h
    simpa using this
  simp only [parseByte, index, ha, hb]
  rfl

theorem parseByte_ok_iff {xs : List UInt8} {i : Nat} {a b byte : UInt8} {rest : List UInt8}
    (h : xs.drop (i * 2) = a :: b :: rest) :
    parseByte xs i = .ok byte ↔ [lowerDigit a,lowerDigit b] = hexByte byte := by
  rw [parseByte_eq h]
  constructor
  · intro hok
    obtain ⟨hi,ha,hva⟩ | ⟨-,m,hva⟩ := hexVal_cases a
    · obtain ⟨lo,hb,hvb⟩ | ⟨-,m,hvb⟩ := hexVal_cases b
      · rw [hva, hvb] at hok
        cases hok
        rw [ha, hb, join_nibbles]
      · rw [hva, hvb] at hok
        cases hok
    · rw [hva] at hok
      cases hok
  · intro hdigits
    have hlt := byte.toNat_lt
    simp only [hexByte, List.cons.injEq, and_true] at hdigits
    rw [hexVal_of_lowerDigit (by omega) hdigits.1, hexVal_of_lowerDigit (by omega) hdigits.2]
    exact congrArg Except.ok (split_nibbles byte)

theorem parseByte_cases {xs : List UInt8} {i : Nat} {a b : UInt8} {rest : List UInt8}
    (h : xs.drop (i * 2) = a :: b :: rest) :
    (∃ byte, parseByte xs i = .ok byte) ∨
      (isHexDigit a = false ∨ isHexDigit b = false) ∧
        ∃ message, parseByte xs i = .error (.rejected message) := by
  rw [parseByte_eq h]
  obtain ⟨hi,-,hva⟩ | ⟨ha,m,hva⟩ := hexVal_cases a
  · obtain ⟨lo,-,hvb⟩ | ⟨hb,m,hvb⟩ := hexVal_cases b
    · rw [hva, hvb]
      exact .inl ⟨_,rfl⟩
    · rw [hva, hvb]
      exact .inr ⟨.inr hb,m,rfl⟩
  · rw [hva]
    exact .inr ⟨.inl ha,m,rfl⟩

theorem parseBytes_succ_ok_iff {xs : List UInt8} {n i : Nat} {byte : UInt8}
    {rest : List.Vector UInt8 n} :
    parseBytes xs (n + 1) i = .ok (.cons byte rest) ↔
      parseByte xs i = .ok byte ∧ parseBytes xs n (i + 1) = .ok rest := by
  simp only [parseBytes]
  constructor
  · intro h
    obtain ⟨x,hx,h⟩ := bind_ok h
    obtain ⟨v,hv,h⟩ := bind_ok h
    have hcons := Except.ok.inj h
    have hhead := congrArg List.Vector.head hcons
    have htail := congrArg List.Vector.tail hcons
    simp only [List.Vector.head_cons, List.Vector.tail_cons] at hhead htail
    rw [hx, hv, hhead, htail]
    exact ⟨rfl,rfl⟩
  · rintro ⟨hx,hv⟩
    rw [hx, hv]
    rfl

theorem drop_pair {xs : List UInt8} {n i : Nat} (h : (i + (n + 1)) * 2 ≤ xs.length) :
    ∃ a b, xs.drop (i * 2) = a :: b :: xs.drop ((i + 1) * 2) := by
  have h0 : i * 2 < xs.length := by omega
  have h1 : i * 2 + 1 < xs.length := by omega
  refine ⟨xs[i * 2],xs[i * 2 + 1],?_⟩
  rw [List.drop_eq_getElem_cons h0, List.drop_eq_getElem_cons h1]
  congr 3
  omega

theorem parseBytes_ok_iff {xs : List UInt8} {n : Nat} :
    ∀ {i : Nat} {out : List.Vector UInt8 n}, (i + n) * 2 ≤ xs.length →
      (parseBytes xs n i = .ok out ↔
        ((xs.drop (i * 2)).take (n * 2)).map lowerDigit = out.toList.flatMap hexByte) := by
  induction n with
  | zero =>
    intro i out _
    rw [out.eq_nil]
    simp [parseBytes]
  | succ n ih =>
    intro i out hlen
    obtain ⟨byte,rest,rfl⟩ : ∃ byte rest, out = .cons byte rest := ⟨_,_,(out.cons_head_tail).symm⟩
    obtain ⟨a,b,hdrop⟩ := drop_pair hlen
    have htake : (n + 1) * 2 = n * 2 + 1 + 1 := by omega
    rw [parseBytes_succ_ok_iff, parseByte_ok_iff hdrop, ih (by omega), hdrop, htake]
    simp only [List.take_succ_cons, List.map_cons, List.Vector.toList_cons, List.flatMap_cons,
      hexByte, List.cons_append, List.nil_append, List.cons.injEq, and_true, and_assoc]

theorem parseBytes_cases (xs : List UInt8) {n : Nat} :
    ∀ {i : Nat}, (i + n) * 2 ≤ xs.length →
      (∃ out, parseBytes xs n i = .ok out) ∨
        (∃ c ∈ xs, isHexDigit c = false) ∧
          ∃ message, parseBytes xs n i = .error (.rejected message) := by
  induction n with
  | zero => exact fun _ => .inl ⟨.nil,rfl⟩
  | succ n ih =>
    intro i hlen
    obtain ⟨a,b,hdrop⟩ := drop_pair hlen
    have hmem : ∀ c, c = a ∨ c = b → c ∈ xs := by
      intro c hc
      apply List.mem_of_mem_drop (i := i * 2)
      rw [hdrop]
      rcases hc with rfl | rfl <;> simp
    obtain ⟨byte,hbyte⟩ | ⟨hbad,m,hm⟩ := parseByte_cases hdrop
    · obtain ⟨out,hout⟩ | ⟨hbad,m,hm⟩ := ih (i := i + 1) (by omega)
      · exact .inl ⟨_,parseBytes_succ_ok_iff.mpr ⟨hbyte,hout⟩⟩
      · refine .inr ⟨hbad,m,?_⟩
        simp only [parseBytes, hbyte, hm]
        rfl
    · refine .inr ⟨?_,m,?_⟩
      · obtain ha | hb := hbad
        · exact ⟨a,hmem a (.inl rfl),ha⟩
        · exact ⟨b,hmem b (.inr rfl),hb⟩
      · simp only [parseBytes, hm]
        rfl

theorem index_map (xs : List UInt8) (i : Nat) :
    (index (xs.map lowerDigit) i >>= hexVal) = (index xs i >>= hexVal) := by
  unfold index
  rw [List.getElem?_map]
  cases xs[i]? with
  | none => rfl
  | some c => exact hexVal_lowerDigit c

theorem parseByte_map (xs : List UInt8) (i : Nat) :
    parseByte (xs.map lowerDigit) i = parseByte xs i := by
  have hstep : ∀ ys, parseByte ys i = (do
      let hi ← index ys (i * 2) >>= hexVal
      let lo ← index ys (i * 2 + 1) >>= hexVal
      return (hi <<< 4) ||| lo) := by
    intro ys
    simp only [parseByte, bind_assoc]
  rw [hstep, hstep, index_map, index_map]

theorem parseBytes_map (xs : List UInt8) (n i : Nat) :
    parseBytes (xs.map lowerDigit) n i = parseBytes xs n i := by
  induction n generalizing i with
  | zero => rfl
  | succ n ih => simp only [parseBytes, parseByte_map, ih]

theorem bytes_append (s t : String) : bytes (s ++ t) = bytes s ++ bytes t := by
  simp [bytes, String.toUTF8]

theorem lowerHex_chars (b : UInt8) :
    lowerHex b = String.ofList [Nat.digitChar (b.toNat / 16),Nat.digitChar (b.toNat % 16)] := by
  apply congrArg String.ofList
  revert b
  apply forall_byte
  decide +kernel

theorem utf8_digitChar (d : Fin 16) :
    String.utf8EncodeChar (Nat.digitChar d) = [digit d] := by
  revert d
  decide

theorem bytes_lowerHex (b : UInt8) : bytes (lowerHex b) = hexByte b := by
  have hlt := b.toNat_lt
  rw [lowerHex_chars]
  have hhi := utf8_digitChar ⟨b.toNat / 16,by omega⟩
  have hlo := utf8_digitChar ⟨b.toNat % 16,by omega⟩
  simp only at hhi hlo
  simp [bytes, String.toUTF8, List.utf8Encode, hhi, hlo, hexByte]

theorem bytes_hexEncode (bs : List UInt8) : bytes (hexEncode bs) = bs.flatMap hexByte := by
  have hfold : ∀ s, bytes (bs.foldl (fun s b => s ++ lowerHex b) s) =
      bytes s ++ bs.flatMap hexByte := by
    induction bs with
    | nil => simp
    | cons b bs ih =>
      intro s
      rw [List.foldl_cons, ih, bytes_append, bytes_lowerHex, List.flatMap_cons, List.append_assoc]
  exact hfold ""

theorem lowerDigit_digit (d : Fin 16) : lowerDigit (digit d) = digit d := by
  revert d
  decide

theorem not_separator_digit (d : Fin 16) :
    (!isAsciiWhitespace (digit d) && digit d != 58) = true := by
  revert d
  decide

theorem mem_hexByte {bs : List UInt8} {c : UInt8} (h : c ∈ bs.flatMap hexByte) :
    ∃ d : Fin 16, c = digit d := by
  obtain ⟨b,-,hc⟩ := List.mem_flatMap.mp h
  have hlt := b.toNat_lt
  simp only [hexByte, List.mem_cons, List.not_mem_nil, or_false] at hc
  obtain rfl | rfl := hc
  · exact ⟨⟨b.toNat / 16,by omega⟩,rfl⟩
  · exact ⟨⟨b.toNat % 16,by omega⟩,rfl⟩

theorem length_flatMap_hexByte (bs : List UInt8) :
    (bs.flatMap hexByte).length = bs.length * 2 := by
  have hpair : ∀ b, (hexByte b).length = 2 := fun _ => rfl
  exact Chunks.length_flatMap_of_length hpair bs

theorem cleaned_hexEncode (bs : List UInt8) : cleaned (hexEncode bs) = bs.flatMap hexByte := by
  unfold cleaned
  rw [bytes_hexEncode, List.filter_eq_self]
  intro c hc
  obtain ⟨d,rfl⟩ := mem_hexByte hc
  exact not_separator_digit d

theorem map_lowerDigit_flatMap (bs : List UInt8) :
    (bs.flatMap hexByte).map lowerDigit = bs.flatMap hexByte := by
  conv_rhs => rw [← List.map_id (bs.flatMap hexByte)]
  apply List.map_congr_left
  intro c hc
  obtain ⟨d,rfl⟩ := mem_hexByte hc
  exact lowerDigit_digit d

theorem cleaned_insert (a b separators : String)
    (h : ∀ c ∈ bytes separators, isSeparator c = true) :
    cleaned (a ++ separators ++ b) = cleaned (a ++ b) := by
  have hnone : (bytes separators).filter (fun c => !isAsciiWhitespace c && c != 58) = [] := by
    rw [List.filter_eq_nil_iff]
    intro c hc
    have hsep := h c hc
    simp only [isSeparator, Bool.or_eq_true] at hsep
    rcases hsep with hsep | hsep <;> simp_all
  simp only [cleaned, bytes_append, List.filter_append, hnone, List.append_nil]

theorem parseCertPin_ok_iff {s : String} {pin : Pin} :
    parseCertPin s = .ok pin ↔ (cleaned s).map lowerDigit = pin.toList.flatMap hexByte := by
  unfold parseCertPin
  split
  case isTrue hlen =>
    constructor
    · intro h
      cases h
    · intro h
      have hcount := congrArg List.length h
      rw [List.length_map, length_flatMap_hexByte, pin.toList_length] at hcount
      exact absurd hcount hlen
  case isFalse hlen =>
    have hlen : (cleaned s).length = 64 := not_not.mp hlen
    rw [parseBytes_ok_iff (by omega), Nat.zero_mul, List.drop_zero, List.take_of_length_le (by omega)]

theorem parseCertPin_cases (s : String) :
    (∃ pin, parseCertPin s = .ok pin) ∨
      ((cleaned s).length = 64 → ∃ c ∈ cleaned s, isHexDigit c = false) ∧
        ∃ message, parseCertPin s = .error (.rejected message) := by
  unfold parseCertPin
  split
  case isTrue hlen => exact .inr ⟨fun h => absurd h hlen,_,rfl⟩
  case isFalse hlen =>
    have hlen : (cleaned s).length = 64 := not_not.mp hlen
    obtain hok | ⟨hbad,hm⟩ := parseBytes_cases (cleaned s) (n := 32) (i := 0) (by omega)
    · exact .inl hok
    · exact .inr ⟨fun _ => hbad,hm⟩

theorem parseCertPin_isOk_iff (s : String) :
    (∃ pin, parseCertPin s = .ok pin) ↔
      (cleaned s).length = 64 ∧ ∀ c ∈ cleaned s, isHexDigit c = true := by
  constructor
  · rintro ⟨pin,hpin⟩
    have hdigits := parseCertPin_ok_iff.mp hpin
    constructor
    · have hcount := congrArg List.length hdigits
      rwa [List.length_map, length_flatMap_hexByte, pin.toList_length] at hcount
    · intro c hc
      have hmem := List.mem_map_of_mem (f := lowerDigit) hc
      rw [hdigits] at hmem
      obtain ⟨d,hd⟩ := mem_hexByte hmem
      exact isHexDigit_of_lowerDigit c d hd
  · rintro ⟨hlen,hhex⟩
    obtain hok | ⟨hbad,-⟩ := parseCertPin_cases s
    · exact hok
    · obtain ⟨c,hc,hfalse⟩ := hbad hlen
      rw [hhex c hc] at hfalse
      cases hfalse

theorem parseCertPin_congr {s t : String}
    (h : (cleaned s).map lowerDigit = (cleaned t).map lowerDigit) :
    parseCertPin s = parseCertPin t := by
  have hlen : (cleaned s).length = (cleaned t).length := by
    simpa using congrArg List.length h
  unfold parseCertPin
  rw [hlen, ← parseBytes_map (cleaned s), h, parseBytes_map]

theorem parse_cert_pin_exact :
    (∀ s, (∃ pin, parseCertPin s = .ok pin) ↔
      (cleaned s).length = 64 ∧ ∀ c ∈ cleaned s, isHexDigit c = true) ∧
    (∀ s pin, parseCertPin s = .ok pin →
      bytes (hexEncode pin.toList) = (cleaned s).map lowerDigit) ∧
    (∀ pin : Pin, parseCertPin (hexEncode pin.toList) = .ok pin) ∧
    (∀ a b separators, (∀ c ∈ bytes separators, isSeparator c = true) →
      parseCertPin (a ++ separators ++ b) = parseCertPin (a ++ b)) ∧
    (∀ s t, (cleaned s).map lowerDigit = (cleaned t).map lowerDigit →
      parseCertPin s = parseCertPin t) ∧
    (∀ s t pin, parseCertPin s = .ok pin → parseCertPin t = .ok pin →
      (cleaned s).map lowerDigit = (cleaned t).map lowerDigit) ∧
    ∀ s, parseCertPin s ≠ .error .outOfBounds := by
  refine ⟨parseCertPin_isOk_iff,?_,?_,?_,fun s t => parseCertPin_congr,?_,?_⟩
  · intro s pin h
    rw [bytes_hexEncode, parseCertPin_ok_iff.mp h]
  · intro pin
    rw [parseCertPin_ok_iff, cleaned_hexEncode, map_lowerDigit_flatMap]
  · intro a b separators h
    apply parseCertPin_congr
    rw [cleaned_insert a b separators h]
  · intro s t pin hs ht
    rw [parseCertPin_ok_iff.mp hs, parseCertPin_ok_iff.mp ht]
  · intro s h
    obtain ⟨pin,hok⟩ | ⟨-,m,hm⟩ := parseCertPin_cases s
    · rw [hok] at h
      cases h
    · rw [hm] at h
      cases h

def verifyServerCert (sha256 : List UInt8 → Pin) (pinnedSha256 : Pin) (endEntity : List UInt8) :
    Except String Unit :=
  let presented := sha256 endEntity
  if presented = pinnedSha256 then .ok ()
  else .error ("server certificate fingerprint mismatch: expected "
    ++ hexEncode pinnedSha256.toList ++ ", got " ++ hexEncode presented.toList)

theorem verifyServerCert_parsed {sha256 : List UInt8 → Pin} {s : String} {pin : Pin}
    (h : parseCertPin s = .ok pin) (endEntity : List UInt8) :
    verifyServerCert sha256 pin endEntity = .ok () ↔
      (cleaned s).map lowerDigit = bytes (hexEncode (sha256 endEntity).toList) := by
  rw [bytes_hexEncode, ← parseCertPin_ok_iff, h]
  simp only [verifyServerCert]
  constructor
  · intro hok
    split at hok
    case isTrue heq => rw [heq]
    case isFalse => cases hok
  · intro heq
    rw [if_pos (Except.ok.inj heq).symm]

end CertPin

end InertiaRelayer.Proxy
