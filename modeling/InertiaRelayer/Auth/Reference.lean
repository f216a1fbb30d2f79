import InertiaRelayer.Auth.Service
import InertiaRelayer.Library.Numeral
import Mathlib.Data.List.TakeWhile

namespace InertiaRelayer.Auth

def base58Alphabet : List Char :=
  "123456789ABCDEFGHJKLMNPQRSTUVWXYZabcdefghijkmnopqrstuvwxyz".toList

theorem base58Alphabet_nodup : base58Alphabet.Nodup := by decide
theorem base58Alphabet_length : 1 < base58Alphabet.length := by decide

def base58Encode (bytes : List UInt8) : List Char :=
  List.replicate (bytes.takeWhile (· == 0)).length '1' ++
    Numeral.encode base58Alphabet (Nat.ofDigits 256 (bytes.reverse.map UInt8.toNat))

def base58Decode (cs : List Char) : List UInt8 :=
  List.replicate (cs.takeWhile (· == '1')).length 0 ++
    (Nat.digits 256 (Numeral.decode base58Alphabet (cs.dropWhile (· == '1')))).reverse.map
      UInt8.ofNat

theorem takeWhile_eq_replicate {α : Type} [DecidableEq α] (a : α) (l : List α) :
    l.takeWhile (· == a) = List.replicate (l.takeWhile (· == a)).length a := by
  apply List.eq_replicate_iff.mpr
  refine ⟨rfl,?_⟩
  intro b hb
  simpa using List.mem_takeWhile_imp hb

theorem takeWhile_replicate_append {α : Type} [DecidableEq α] (a : α) (n : Nat) (l : List α)
    (hl : ∀ b, l.head? = some b → b ≠ a) :
    (List.replicate n a ++ l).takeWhile (· == a) = List.replicate n a ∧
      (List.replicate n a ++ l).dropWhile (· == a) = l := by
  have ht : l.takeWhile (· == a) = [] := by
    cases l with
    | nil => rfl
    | cons b l => simp [hl b rfl]
  have hd : l.dropWhile (· == a) = l := by
    cases l with
    | nil => rfl
    | cons b l => simp [hl b rfl]
  induction n with
  | zero => exact ⟨ht,hd⟩
  | succ n ih =>
    simp only [List.replicate_succ, List.cons_append, List.takeWhile_cons, List.dropWhile_cons,
      beq_self_eq_true, if_true]
    exact ⟨congrArg (List.cons a) ih.1,ih.2⟩

theorem base58Decode_encode (bytes : List UInt8) : base58Decode (base58Encode bytes) = bytes := by
  have hsplit := List.takeWhile_append_dropWhile (p := (· == (0 : UInt8))) (l := bytes)
  rw [takeWhile_eq_replicate 0 bytes] at hsplit
  have hhead : ∀ b, (bytes.dropWhile (· == 0)).head? = some b → b ≠ 0 := by
    intro b hb
    have := List.head?_dropWhile_not (· == (0 : UInt8)) bytes
    simpa [hb] using this
  generalize hz : (bytes.takeWhile (· == 0)).length = z at hsplit
  generalize hrest : bytes.dropWhile (· == 0) = rest at hsplit hhead
  subst hsplit
  have hnum : Nat.ofDigits 256 ((List.replicate z (0 : UInt8) ++ rest).reverse.map UInt8.toNat) =
      Nat.ofDigits 256 (rest.reverse.map UInt8.toNat) := by
    simp
  have hdigits : Nat.digits 256 (Nat.ofDigits 256 (rest.reverse.map UInt8.toNat)) =
      rest.reverse.map UInt8.toNat := by
    apply Nat.digits_ofDigits 256 (by omega)
    · intro d hd
      obtain ⟨b,_,rfl⟩ := List.mem_map.mp hd
      exact UInt8.toNat_lt b
    · intro hne
      cases rest with
      | nil => simp at hne
      | cons b rest =>
        have hb := hhead b rfl
        simpa [← UInt8.toNat_inj] using hb
  have hcs := takeWhile_replicate_append '1' z
    (Numeral.encode base58Alphabet (Nat.ofDigits 256 (rest.reverse.map UInt8.toNat)))
    (fun c hc => Numeral.encode_head base58Alphabet_nodup base58Alphabet_length hc)
  unfold base58Decode base58Encode
  rw [hz, hnum, hcs.1, hcs.2, List.length_replicate,
    Numeral.decode_encode base58Alphabet_nodup base58Alphabet_length, hdigits,
    ← List.map_reverse, List.reverse_reverse, List.map_map]
  simp [Function.comp_def]

def pubkeyText : TextForm Pubkey where
  text k := String.ofList (base58Encode k.bytes)
  parse text := Pubkey.tryFrom (base58Decode text.toList)
  parse_text k := by rw [String.toList_ofList, base58Decode_encode, Pubkey.tryFrom_bytes]

def hexAlphabet : List Char := "0123456789abcdef".toList

def decimalAlphabet : List Char := "0123456789".toList

theorem hexAlphabet_nodup : hexAlphabet.Nodup := by decide
theorem decimalAlphabet_nodup : decimalAlphabet.Nodup := by decide

def group (alphabet : List Char) (n : Nat) : List Char :=
  if n = 0 then ['0'] else Numeral.encode alphabet n

theorem decode_group {alphabet : List Char} (hn : alphabet.Nodup) (hb : 1 < alphabet.length)
    (h0 : alphabet.idxOf '0' = 0) (n : Nat) :
    Numeral.decode alphabet (group alphabet n) = n := by
  unfold group
  split
  · rename_i hz
    simp [Numeral.decode, h0, hz]
  · exact Numeral.decode_encode hn hb n

theorem mem_group {alphabet : List Char} (hb : 1 < alphabet.length) (h0 : '0' ∈ alphabet)
    {n : Nat} {c : Char} (h : c ∈ group alphabet n) : c ∈ alphabet := by
  unfold group at h
  split at h
  · rw [List.mem_singleton] at h
    exact h ▸ h0
  · exact Numeral.mem_encode hb h

def ipGroups : IpAddr → List (List Char)
  | .v4 a b c d => [a,b,c,d].map (fun x => group decimalAlphabet x.toNat)
  | .v6 a b c d e f g h => [a,b,c,d,e,f,g,h].map (fun x => group hexAlphabet x.toNat)

def ipSeparator : IpAddr → Char
  | .v4 _ _ _ _ => '.'
  | .v6 _ _ _ _ _ _ _ _ => ':'

def ipDisplay (ip : IpAddr) : List Char := [ipSeparator ip].intercalate (ipGroups ip)

def octet (cs : List Char) : UInt8 := UInt8.ofNat (Numeral.decode decimalAlphabet cs)
def segment (cs : List Char) : UInt16 := UInt16.ofNat (Numeral.decode hexAlphabet cs)

def ipParse (cs : List Char) : Option IpAddr :=
  match cs.splitOn '.', cs.splitOn ':' with
  | [a,b,c,d], _ => some (.v4 (octet a) (octet b) (octet c) (octet d))
  | _, [a,b,c,d,e,f,g,h] =>
      some (.v6 (segment a) (segment b) (segment c) (segment d)
        (segment e) (segment f) (segment g) (segment h))
  | _, _ => none

theorem octet_group (x : UInt8) : octet (group decimalAlphabet x.toNat) = x := by
  rw [octet, decode_group decimalAlphabet_nodup (by decide) (by decide)]
  exact UInt8.ofNat_toNat

theorem segment_group (x : UInt16) : segment (group hexAlphabet x.toNat) = x := by
  rw [segment, decode_group hexAlphabet_nodup (by decide) (by decide)]
  exact UInt16.ofNat_toNat

theorem group_no_separator {alphabet : List Char} (hb : 1 < alphabet.length)
    (h0 : '0' ∈ alphabet) {sep : Char} (hs : sep ∉ alphabet) (n : Nat) :
    sep ∉ group alphabet n :=
  fun h => hs (mem_group hb h0 h)

theorem splitOn_ipDisplay (ip : IpAddr) :
    (ipDisplay ip).splitOn (ipSeparator ip) = ipGroups ip := by
  unfold ipDisplay
  apply List.splitOn_intercalate
  · intro l hl
    cases ip with
    | v4 a b c d =>
      obtain ⟨x,_,rfl⟩ := List.mem_map.mp hl
      exact group_no_separator (by decide) (by decide) (show '.' ∉ decimalAlphabet by decide) _
    | v6 a b c d e f g h =>
      obtain ⟨x,_,rfl⟩ := List.mem_map.mp hl
      exact group_no_separator (by decide) (by decide) (show ':' ∉ hexAlphabet by decide) _
  · cases ip <;> simp [ipGroups]

theorem splitOn_of_notMem {c : Char} {cs : List Char} (h : c ∉ cs) : cs.splitOn c = [cs] := by
  have hi : ([c].intercalate [cs]).splitOn c = [cs] :=
    List.splitOn_intercalate c (by simpa using h) (by simp)
  simpa [List.intercalate] using hi

theorem dot_notMem_v6 (a b c d e f g h : UInt16) : '.' ∉ ipDisplay (.v6 a b c d e f g h) := by
  have hg (x : UInt16) : '.' ∉ group hexAlphabet x.toNat :=
    group_no_separator (by decide) (by decide) (by decide) _
  simp [ipDisplay, ipGroups, ipSeparator, List.intercalate, List.intersperse, hg]

def ipText : TextForm IpAddr where
  text ip := String.ofList (ipDisplay ip)
  parse text := ipParse text.toList
  parse_text ip := by
    have hs := splitOn_ipDisplay ip
    cases ip with
    | v4 a b c d =>
      simp only [ipSeparator, ipGroups] at hs
      simp [ipParse, hs, octet_group]
    | v6 a b c d e f g h =>
      simp only [ipSeparator, ipGroups] at hs
      have hd := splitOn_of_notMem (dot_notMem_v6 a b c d e f g h)
      simp [ipParse, hs, hd, segment_group]

def secsText (secs : Int) : List Char :=
  if secs < 0 then '-' :: group decimalAlphabet secs.natAbs
  else group decimalAlphabet secs.natAbs

def secsParse : List Char → Int
  | '-' :: cs => -(Numeral.decode decimalAlphabet cs : Int)
  | cs => Numeral.decode decimalAlphabet cs

theorem secsParse_text (secs : Int) : secsParse (secsText secs) = secs := by
  have hd := decode_group decimalAlphabet_nodup (by decide) (by decide) secs.natAbs
  unfold secsText
  split
  · simp only [secsParse, hd]
    omega
  · have hne : secsParse (group decimalAlphabet secs.natAbs) =
        Numeral.decode decimalAlphabet (group decimalAlphabet secs.natAbs) := by
      unfold secsParse
      split
      · rename_i cs hcs
        have hm : '-' ∈ group decimalAlphabet secs.natAbs := hcs ▸ List.mem_cons_self
        exact absurd (mem_group (by decide) (by decide) hm) (by decide)
      · rfl
    rw [hne, hd]
    omega

def tokenText (c : DeSerClaims) : List Char :=
  ['|'].intercalate [c.clientIp.toList,c.clientPubkey.toList,secsText c.expiresAtUnixTs]

def tokenClaims (cs : List Char) : Option DeSerClaims :=
  match cs.splitOn '|' with
  | [ip,pubkey,secs] => some ⟨String.ofList ip,String.ofList pubkey,secsParse secs⟩
  | _ => none

theorem bar_notMem_secsText (secs : Int) : '|' ∉ secsText secs := by
  have hg : '|' ∉ group decimalAlphabet secs.natAbs :=
    group_no_separator (by decide) (by decide) (by decide) _
  unfold secsText
  split <;> simp [hg]

theorem bar_notMem_pubkeyText (k : Pubkey) : '|' ∉ (pubkeyText.text k).toList := by
  simp only [pubkeyText, String.toList_ofList, base58Encode, List.mem_append, not_or]
  refine ⟨?_,fun h => absurd (Numeral.mem_encode base58Alphabet_length h) (by decide)⟩
  intro h
  exact absurd (List.eq_of_mem_replicate h) (by decide)

theorem bar_notMem_ipText (ip : IpAddr) : '|' ∉ (ipText.text ip).toList := by
  have hd (n : Nat) : '|' ∉ group decimalAlphabet n :=
    group_no_separator (by decide) (by decide) (by decide) _
  have hh (n : Nat) : '|' ∉ group hexAlphabet n :=
    group_no_separator (by decide) (by decide) (by decide) _
  cases ip <;>
    simp [ipText, ipDisplay, ipGroups, ipSeparator, List.intercalate, List.intersperse, hd, hh]

theorem tokenClaims_tokenText (ip : IpAddr) (k : Pubkey) (secs : Int) :
    tokenClaims (tokenText ⟨ipText.text ip,pubkeyText.text k,secs⟩) =
      some ⟨ipText.text ip,pubkeyText.text k,secs⟩ := by
  have hsplit : (['|'].intercalate
      [(ipText.text ip).toList,(pubkeyText.text k).toList,secsText secs]).splitOn '|' =
      [(ipText.text ip).toList,(pubkeyText.text k).toList,secsText secs] :=
    List.splitOn_intercalate '|'
      (by simp [bar_notMem_ipText, bar_notMem_pubkeyText, bar_notMem_secsText]) (by simp)
  unfold tokenClaims tokenText
  rw [hsplit]
  simp [secsParse_text]

def visibleAscii (b : UInt8) : Bool := (32 ≤ b && b < 127) || b == 9

def referencePlatform : Platform where
  isAuthorized _ := true
  ipText := ipText
  pubkeyText := pubkeyText
  heap := Heap.leastEntry _
  minTimestamp := -8334601228800
  maxTimestamp := 8210266876799
  headerToStr bytes :=
    if bytes.all visibleAscii then some (String.ofList (bytes.map (fun b => Char.ofNat b.toNat)))
    else none
  signWithKey header c :=
    if header = tokenHeader ∧ tokenClaims (tokenText c) = some c then
      some (String.ofList (tokenText c))
    else none
  verifyWithKey text := (tokenClaims text.toList).map (fun c => (tokenHeader,c))
  verify_of_sign header c text h := by
    split at h
    · rename_i hc
      cases h
      rw [String.toList_ofList, hc.2, hc.1, Option.map_some]
    · cases h
  PublicKey := Pubkey
  publicKeyFromBytes := Pubkey.tryFrom
  publicKeyToBytes k := k
  toBytes_of_fromBytes _ _ h := by
    obtain ⟨_,rfl⟩ := tryFromSlice_eq_some h
    rfl
  EdSignature := Signature
  signatureFromBytes := Signature.tryFrom
  verify key _ sig := decide (sig.bytes = key.bytes ++ key.bytes)

theorem referencePlatform_signs (claims : Claims) :
    ∃ text, referencePlatform.signWithKey tokenHeader (referencePlatform.deSerClaims claims) =
      some text :=
  ⟨_,if_pos ⟨rfl,tokenClaims_tokenText _ _ _⟩⟩

end InertiaRelayer.Auth
