import InertiaRelayer.Relayer.Packet
import InertiaRelayer.Library.KeyMap

namespace InertiaRelayer.Proxy

def filterTag : UInt8 := 0

structure Bundle where
  header : Option Header
  packets : List ProtoPacket
deriving DecidableEq

structure BundleUuid where
  bundle : Option Bundle
  uuid : String
deriving DecidableEq

structure SubscribePacketsResponse where
  header : Option Header
  batch : Option ProtoPacketBatch
deriving DecidableEq

structure SubscribeBundlesResponse where
  bundles : List BundleUuid
deriving DecidableEq

def firstSignature (data : List UInt8) : Option Signature :=
  if 65 ≤ data.length then Signature.tryFrom ((data.drop 1).take 64) else none

def ingestFilter : List UInt8 → Option Signature
  | [] => none
  | tag :: signature => if tag ≠ filterTag then none else Signature.tryFrom signature

abbrev Blocked := KeyMap Signature Nat

inductive Item (π : Type) where
  | banking (batch : BankingPacketBatch π)
  | packets (resp : SubscribePacketsResponse)
  | bundles (resp : SubscribeBundlesResponse)
deriving DecidableEq

section Filters

variable {π : Type} [PacketRef π]

def packetSignature (x : π) : Option Signature := (PacketRef.data x).bind firstSignature

def hit (blocked : Blocked) (sig : Option Signature) : Bool := sig.any blocked.containsKey

def discardPacket (blocked : Blocked) (x : π) : π :=
  if (PacketRef.packetMeta x).discard then x
  else if hit blocked (packetSignature x) then PacketRef.setDiscard x
  else x

def discardBlocked (blocked : Blocked) (batch : BankingPacketBatch π) : BankingPacketBatch π :=
  batch.map (List.map (discardPacket blocked))

def retainPackets (blocked : Blocked) (resp : SubscribePacketsResponse) :
    SubscribePacketsResponse :=
  { resp with batch := resp.batch.map fun batch =>
      ⟨batch.packets.filter fun x => !hit blocked (firstSignature x.data)⟩ }

def bundleHit (blocked : Blocked) (bu : BundleUuid) : Bool :=
  bu.bundle.any fun b => b.packets.any fun x => hit blocked (firstSignature x.data)

def retainBundles (blocked : Blocked) (resp : SubscribeBundlesResponse) :
    SubscribeBundlesResponse :=
  ⟨resp.bundles.filter fun bu => !bundleHit blocked bu⟩

namespace Item

def filter (blocked : Blocked) : Item π → Item π
  | .banking batch => .banking (discardBlocked blocked batch)
  | .packets resp => .packets (retainPackets blocked resp)
  | .bundles resp => .bundles (retainBundles blocked resp)

def locks : Item π → Bool
  | .packets resp => resp.batch.isSome
  | _ => true

def signatures : Item π → List Signature
  | .banking batch => batch.flatten.filterMap fun x =>
      if (PacketRef.packetMeta x).discard then none else packetSignature x
  | .packets resp => (resp.batch.toList.flatMap ProtoPacketBatch.packets).filterMap fun x =>
      firstSignature x.data
  | .bundles resp => ((resp.bundles.filterMap BundleUuid.bundle).flatMap Bundle.packets).filterMap
      fun x => firstSignature x.data

end Item

def Withholds (sig : Signature) : Item π → Item π → Prop
  | .banking before, .banking after => List.Forall₂ (List.Forall₂ fun x y =>
      packetSignature x = some sig → (PacketRef.packetMeta y).discard = true) before after
  | .packets _, .packets after => ∀ batch, after.batch = some batch →
      ∀ x ∈ batch.packets, firstSignature x.data ≠ some sig
  | .bundles _, .bundles after => ∀ bu ∈ after.bundles, ∀ b, bu.bundle = some b →
      ∀ x ∈ b.packets, firstSignature x.data ≠ some sig
  | _, _ => False

theorem discardPacket_discards {blocked : Blocked} {sig : Signature} {x : π}
    (hb : blocked.containsKey sig = true) (hx : packetSignature x = some sig) :
    (PacketRef.packetMeta (discardPacket blocked x)).discard = true := by
  unfold discardPacket
  split
  · assumption
  · rw [if_pos (show hit blocked (packetSignature x) = true by rw [hx]; exact hb),
      PacketRef.packetMeta_setDiscard]

theorem withholds_filter {blocked : Blocked} {sig : Signature}
    (hb : blocked.containsKey sig = true) (item : Item π) :
    Withholds sig item (item.filter blocked) := by
  have hhit (data : List UInt8) (hsig : firstSignature data = some sig) :
      hit blocked (firstSignature data) = true := by rw [hsig]; exact hb
  cases item with
  | banking batch =>
    simp only [Item.filter, Withholds, discardBlocked, List.forall₂_map_right_iff,
      List.forall₂_same]
    intro _ _ x _ hx
    exact discardPacket_discards hb hx
  | packets resp =>
    intro batch hbatch x hx hsig
    obtain ⟨old,_,rfl⟩ := Option.map_eq_some_iff.mp hbatch
    have hkeep := (List.mem_filter.mp hx).2
    rw [hhit x.data hsig] at hkeep
    cases hkeep
  | bundles resp =>
    intro bu hbu b hbundle x hx hsig
    have hkeep := (List.mem_filter.mp hbu).2
    have hany : bundleHit blocked bu = true := by
      rw [bundleHit, hbundle]
      exact List.any_eq_true.mpr ⟨x,hx,hhit x.data hsig⟩
    rw [hany] at hkeep
    cases hkeep

theorem hit_eq_false {blocked : Blocked} {sig : Option Signature}
    (h : ∀ s, sig = some s → blocked.containsKey s = false) : hit blocked sig = false := by
  cases sig with
  | none => rfl
  | some s => exact h s rfl

theorem discardPacket_of_no_hit {blocked : Blocked} {x : π}
    (h : (PacketRef.packetMeta x).discard = false → hit blocked (packetSignature x) = false) :
    discardPacket blocked x = x := by
  unfold discardPacket
  split
  · rfl
  · rename_i hd
    rw [h (by simpa using hd)]
    rfl

theorem retainPackets_of_no_hit {blocked : Blocked} {resp : SubscribePacketsResponse}
    (h : ∀ batch, resp.batch = some batch →
      ∀ x ∈ batch.packets, hit blocked (firstSignature x.data) = false) :
    retainPackets blocked resp = resp := by
  obtain ⟨header,batch⟩ := resp
  cases batch with
  | none => rfl
  | some batch =>
    have hkeep : batch.packets.filter (fun x => !hit blocked (firstSignature x.data)) =
        batch.packets := by
      refine List.filter_eq_self.mpr (fun x hx => ?_)
      rw [h batch rfl x hx]
      rfl
    simp [retainPackets, hkeep]

theorem retainBundles_of_no_hit {blocked : Blocked} {resp : SubscribeBundlesResponse}
    (h : ∀ bu ∈ resp.bundles, bundleHit blocked bu = false) :
    retainBundles blocked resp = resp := by
  have hkeep : resp.bundles.filter (fun bu => !bundleHit blocked bu) = resp.bundles := by
    refine List.filter_eq_self.mpr (fun bu hbu => ?_)
    rw [h bu hbu]
    rfl
  rw [retainBundles, hkeep]

theorem bundleHit_eq_false {blocked : Blocked} {bu : BundleUuid}
    (h : ∀ b, bu.bundle = some b →
      ∀ x ∈ b.packets, hit blocked (firstSignature x.data) = false) :
    bundleHit blocked bu = false := by
  unfold bundleHit
  cases hb : bu.bundle with
  | none => rfl
  | some b => exact List.any_eq_false.mpr (fun x hx => by simp [h b hb x hx])

theorem filter_of_no_hit {blocked : Blocked} {item : Item π}
    (h : ∀ sig ∈ item.signatures, blocked.containsKey sig = false) :
    item.filter blocked = item := by
  cases item with
  | banking batch =>
    refine congrArg Item.banking ((List.map_congr_left ?_).trans (List.map_id batch))
    intro packets hp
    refine (List.map_congr_left ?_).trans (List.map_id packets)
    intro x hx
    refine discardPacket_of_no_hit (fun hd => hit_eq_false (fun s hs => ?_))
    refine h s (List.mem_filterMap.mpr ⟨x,List.mem_flatten.mpr ⟨packets,hp,hx⟩,?_⟩)
    simp [hd, hs]
  | packets resp =>
    refine congrArg Item.packets (retainPackets_of_no_hit ?_)
    intro batch hb x hx
    refine hit_eq_false (fun s hs => h s (List.mem_filterMap.mpr ⟨x,?_,hs⟩))
    simpa [hb] using hx
  | bundles resp =>
    refine congrArg Item.bundles (retainBundles_of_no_hit ?_)
    intro bu hbu
    refine bundleHit_eq_false (fun b hb x hx => hit_eq_false (fun s hs => ?_))
    refine h s (List.mem_filterMap.mpr ⟨x,List.mem_flatMap.mpr ⟨b,?_,hx⟩,hs⟩)
    exact List.mem_filterMap.mpr ⟨bu,hbu,hb⟩

theorem filter_empty (item : Item π) : item.filter ∅ = item :=
  filter_of_no_hit (fun _ _ => rfl)

end Filters

end InertiaRelayer.Proxy
