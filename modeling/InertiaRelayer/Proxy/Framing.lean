import InertiaRelayer.Library.Frames

namespace InertiaRelayer.Mirror
open Frames

def maxBundleFrame : Nat := 4 * 1024 * 1024

theorem maxBundleFrame_lt : maxBundleFrame < 256 ^ 4 := by decide

structure Codec (T : Type) where
  encode : T → Option Bytes
  decode : Bytes → Option T
  decode_encode : ∀ resp buf, encode resp = some buf → decode buf = some resp

def lenPrefix (buf : Bytes) : Bytes := leBytes 4 (buf.length % 2 ^ 32)

def bundleFrame (buf : Bytes) : Bytes := lenPrefix buf ++ buf

theorem bundleFrame_eq (buf : Bytes) : bundleFrame buf = frame 4 buf := by
  rw [bundleFrame, lenPrefix, frame, ← leBytes_mod 4 buf.length]
  rfl

def readBundleFrame (bytes : Bytes) : Option (Bytes × Bytes) := readFrame 4 maxBundleFrame bytes

section Stream

variable {T : Type} (c : Codec T)

def encodeFrame (resp : T) : Option Bytes := (c.encode resp).map bundleFrame

def mirroredBytes (resps : List T) : Bytes :=
  (resps.filterMap (encodeFrame c)).flatten

def readBundleStream (bytes : Bytes) : List T :=
  match _h : readBundleFrame bytes with
  | none => []
  | some (buf,rest) =>
      match c.decode buf with
      | some resp => resp :: readBundleStream rest
      | none => readBundleStream rest
termination_by bytes.length
decreasing_by
  all_goals
    have := length_readFrame maxBundleFrame_lt _h
    omega

variable {c}

theorem readBundleStream_none {bytes : Bytes} (h : readBundleFrame bytes = none) :
    readBundleStream c bytes = [] := by
  rw [readBundleStream]
  split
  · rfl
  · rename_i hsome
    rw [h] at hsome
    cases hsome

theorem readBundleStream_some {bytes buf rest : Bytes}
    (h : readBundleFrame bytes = some (buf,rest)) :
    readBundleStream c bytes = (c.decode buf).toList ++ readBundleStream c rest := by
  rw [readBundleStream]
  split
  · rename_i hnone
    rw [h] at hnone
    cases hnone
  · rename_i buf' rest' hsome
    rw [h] at hsome
    cases hsome
    split <;> rename_i hd <;> rw [hd] <;> rfl

theorem readBundleStream_split {bytes rest : Bytes} {payloads : List Bytes}
    (h : Split 4 maxBundleFrame bytes payloads rest) :
    readBundleStream c bytes = payloads.filterMap c.decode := by
  induction payloads generalizing bytes with
  | nil => exact readBundleStream_none (readFrame_split_nil maxBundleFrame_lt h).1
  | cons payload payloads ih =>
    obtain ⟨more,hread,hs⟩ := readFrame_split_cons maxBundleFrame_lt h
    rw [readBundleStream_some hread, ih hs, List.filterMap_cons]
    cases c.decode payload <;> rfl

theorem mirroredBytes_eq (resps : List T) :
    mirroredBytes c resps = (resps.filterMap c.encode).flatMap (frame 4) := by
  rw [mirroredBytes, List.flatMap, List.map_filterMap]
  congr 2
  funext resp
  cases h : c.encode resp with
  | none => simp [encodeFrame, h]
  | some buf => simp [encodeFrame, h, bundleFrame_eq]

def Encodable (c : Codec T) (resp : T) : Prop :=
  ∃ buf, c.encode resp = some buf ∧ buf.length ≤ maxBundleFrame

theorem filterMap_encode {resps : List T} (h : ∀ resp ∈ resps, Encodable c resp) :
    resps.filterMap c.encode = resps.map (fun resp => (c.encode resp).getD []) := by
  induction resps with
  | nil => rfl
  | cons resp resps ih =>
    obtain ⟨⟨buf,hbuf,_⟩,hrest⟩ := List.forall_mem_cons.mp h
    rw [List.filterMap_cons_some hbuf, List.map_cons, hbuf, ih hrest]
    rfl

theorem decode_encoded {resps : List T} (h : ∀ resp ∈ resps, Encodable c resp) :
    (resps.filterMap c.encode).filterMap c.decode = resps := by
  induction resps with
  | nil => rfl
  | cons resp resps ih =>
    obtain ⟨⟨buf,hbuf,_⟩,hrest⟩ := List.forall_mem_cons.mp h
    rw [List.filterMap_cons_some hbuf, List.filterMap_cons_some (c.decode_encode resp buf hbuf),
      ih hrest]

theorem length_encoded {resps : List T} (h : ∀ resp ∈ resps, Encodable c resp) {buf : Bytes}
    (hbuf : buf ∈ resps.filterMap c.encode) : buf.length ≤ maxBundleFrame := by
  obtain ⟨resp,hresp,hencode⟩ := List.mem_filterMap.mp hbuf
  obtain ⟨buf',hbuf',hle⟩ := h resp hresp
  rw [hencode] at hbuf'
  exact Option.some.inj hbuf' ▸ hle

theorem readBundleStream_mirrored {resps : List T} {tail payload : Bytes}
    (h : ∀ resp ∈ resps, Encodable c resp) (hle : payload.length ≤ maxBundleFrame)
    (htorn : Torn 4 tail payload) :
    readBundleStream c (mirroredBytes c resps ++ tail) = resps := by
  have hsplit := split_torn maxBundleFrame_lt (fun _ => length_encoded h) hle htorn
  rw [mirroredBytes_eq, readBundleStream_split hsplit, decode_encoded h]

theorem readBundleStream_cut {resps : List T} (h : ∀ resp ∈ resps, Encodable c resp) (k : Nat) :
    ∃ m, readBundleStream c ((mirroredBytes c resps).take k) = resps.take m ∧
      ∀ i < resps.length, i < m ↔ (mirroredBytes c (resps.take (i + 1))).length ≤ k := by
  have htakes : ∀ i, (resps.filterMap c.encode).take i = (resps.take i).filterMap c.encode := by
    intro i
    rw [filterMap_encode h, filterMap_encode (fun resp hr => h resp (List.mem_of_mem_take hr)),
      List.map_take]
  obtain ⟨m,tail,payload,htake,htorn,hmem,hends⟩ :=
    take_frames (by decide : 0 < 4) (resps.filterMap c.encode) k
  have hle : payload.length ≤ maxBundleFrame := by
    rcases hmem with rfl | hmem
    · exact Nat.zero_le _
    · exact length_encoded h hmem
  refine ⟨m,?_,fun i hi => ?_⟩
  · rw [mirroredBytes_eq, htake, htakes, ← mirroredBytes_eq]
    exact readBundleStream_mirrored (fun resp hr => h resp (List.mem_of_mem_take hr)) hle htorn
  · rw [mirroredBytes_eq, ← htakes]
    refine hends i ?_
    rwa [filterMap_encode h, List.length_map]

theorem read_bundle_stream_framing (c : Codec T) :
    (∀ bytes, ∃ payloads rest, Split 4 maxBundleFrame bytes payloads rest ∧
      (∀ payloads' rest', Split 4 maxBundleFrame bytes payloads' rest' →
        payloads' = payloads ∧ rest' = rest) ∧
      readBundleStream c bytes = payloads.filterMap c.decode) ∧
    ∀ resps k, (∀ resp ∈ resps, Encodable c resp) →
      ∃ m, readBundleStream c ((mirroredBytes c resps).take k) = resps.take m ∧
        ∀ i < resps.length, i < m ↔ (mirroredBytes c (resps.take (i + 1))).length ≤ k := by
  refine ⟨fun bytes => ?_,fun resps k h => readBundleStream_cut h k⟩
  obtain ⟨payloads,rest,hs⟩ := exists_split maxBundleFrame_lt (by decide) bytes
  exact ⟨payloads,rest,hs,fun _ _ hs' => split_unique maxBundleFrame_lt hs' hs,
    readBundleStream_split hs⟩

end Stream

section Example

def bytesCodec : Codec Bytes := ⟨some,some,fun _ _ h => h.symm⟩

theorem second_frame_cut :
    (∀ resp ∈ [[1],[2,3]], Encodable bytesCodec resp) ∧
      readBundleStream bytesCodec ((mirroredBytes bytesCodec [[1],[2,3]]).take 8) = [[1]] := by
  have h : ∀ resp ∈ [[1],[2,3]], Encodable bytesCodec resp := by
    have hle : ∀ resp ∈ [[1],[2,3]], List.length (α := UInt8) resp ≤ maxBundleFrame := by decide
    exact fun resp hresp => ⟨resp,rfl,hle resp hresp⟩
  obtain ⟨m,hread,hends⟩ := (read_bundle_stream_framing bytesCodec).2 [[1],[2,3]] 8 h
  have hfirst : 0 < m := (hends 0 (by decide)).mpr (by decide)
  have hsecond : ¬ 1 < m := mt (hends 1 (by decide)).mp (by decide)
  have hm : m = 1 := by omega
  exact ⟨h,by rw [hread, hm]; rfl⟩

end Example

end InertiaRelayer.Mirror
