import InertiaRelayer.Blockengine.Filter

namespace InertiaRelayer.Proxy
open Machine

def packetDataSize : Nat := 1232

def compactU16 (n : Nat) : List UInt8 :=
  if n < 128 then [UInt8.ofNat n]
  else if n < 16384 then [UInt8.ofNat (n % 128 + 128),UInt8.ofNat (n / 128)]
  else [UInt8.ofNat (n % 128 + 128),UInt8.ofNat (n / 128 % 128 + 128),UInt8.ofNat (n / 16384)]

def wireForm (signatures : List Signature) (message : List UInt8) : List UInt8 :=
  compactU16 signatures.length ++ signatures.flatMap Signature.bytes ++ message

structure WireTransaction where
  signatures : List Signature
  message : List UInt8
  one_le : 1 ≤ signatures.length
  le_max : signatures.length ≤ 127

namespace WireTransaction

def wire (tx : WireTransaction) : List UInt8 := wireForm tx.signatures tx.message

def first (tx : WireTransaction) : Signature :=
  tx.signatures.head (List.ne_nil_of_length_pos tx.one_le)

theorem wire_eq (tx : WireTransaction) :
    ∃ count rest, tx.wire = count :: (tx.first.bytes ++ rest) := by
  obtain ⟨signatures,message,hone,hmax⟩ := tx
  cases signatures with
  | nil => cases hone
  | cons first rest =>
    have hcount : compactU16 (first :: rest).length = [UInt8.ofNat (first :: rest).length] :=
      if_pos (Nat.lt_succ_of_le hmax)
    refine ⟨UInt8.ofNat (first :: rest).length,rest.flatMap Signature.bytes ++ message,?_⟩
    simp only [wire, wireForm, hcount, List.flatMap_cons, WireTransaction.first, List.head_cons,
      List.cons_append, List.nil_append, List.append_assoc]

theorem firstSignature_wire (tx : WireTransaction) :
    firstSignature tx.wire = some tx.first := by
  obtain ⟨count,rest,hwire⟩ := tx.wire_eq
  have hlen : tx.first.bytes.length = 64 := tx.first.length_eq
  have hlong : 65 ≤ (count :: (tx.first.bytes ++ rest)).length := by
    simp only [List.length_cons, List.length_append, hlen]
    omega
  have htake : ((count :: (tx.first.bytes ++ rest)).drop 1).take 64 = tx.first.bytes := by
    rw [List.drop_one, List.tail_cons, ← hlen, List.take_left]
  rw [hwire, firstSignature, if_pos hlong, htake]
  exact dif_pos tx.first.length_eq

theorem length_flatMap_bytes (signatures : List Signature) :
    (signatures.flatMap Signature.bytes).length = signatures.length * 64 :=
  Chunks.length_flatMap_of_length Signature.length_eq signatures

theorem exists_of_packet {signatures : List Signature} {message : List UInt8}
    (hne : signatures ≠ []) (hlen : (wireForm signatures message).length ≤ packetDataSize) :
    ∃ tx : WireTransaction, tx.signatures = signatures ∧ tx.message = message ∧
      tx.wire = wireForm signatures message := by
  have hone : 1 ≤ signatures.length := List.length_pos_iff.mpr hne
  have hmax : signatures.length ≤ 127 := by
    simp only [wireForm, List.length_append, length_flatMap_bytes, packetDataSize] at hlen
    omega
  exact ⟨⟨signatures,message,hone,hmax⟩,rfl,rfl,rfl⟩

end WireTransaction

abbrev Datagram := Nat × List UInt8

def FilterSet.insert (set : FilterSet) (sig : Signature) (now : Nat) : FilterSet :=
  ⟨set.map.insert sig now,_,rfl⟩

def FilterSet.ingest (set : FilterSet) (d : Datagram) : FilterSet :=
  match ingestFilter d.2 with
  | none => set
  | some sig => set.insert sig d.1

def FilterSet.ingestAll (ds : List Datagram) : FilterSet :=
  ds.foldl FilterSet.ingest FilterSet.default

def withheldBy (ds : List Datagram) (tx : WireTransaction) : Bool :=
  ds.any fun d => d.2 == filterTag :: tx.first.bytes

theorem ingestFilter_some_iff {bytes : List UInt8} {sig : Signature} :
    ingestFilter bytes = some sig ↔ bytes = filterTag :: sig.bytes := by
  constructor
  · intro h
    cases bytes with
    | nil => cases h
    | cons tag signature =>
      simp only [ingestFilter] at h
      split at h
      case isTrue => cases h
      case isFalse htag =>
        obtain ⟨_,rfl⟩ := tryFromSlice_eq_some h
        rw [not_not.mp htag]
  · rintro rfl
    simp only [ingestFilter, ne_eq, not_true_eq_false, if_false]
    exact dif_pos sig.length_eq

theorem ingest_of_other {set : FilterSet} {d : Datagram}
    (h : ∀ sig : Signature, d.2 ≠ filterTag :: sig.bytes) : set.ingest d = set := by
  unfold FilterSet.ingest
  cases hsig : ingestFilter d.2 with
  | none => rfl
  | some sig => exact absurd (ingestFilter_some_iff.mp hsig) (h sig)

theorem containsKey_insert (set : FilterSet) (s sig : Signature) (now : Nat) :
    (set.insert s now).map.containsKey sig = (set.map.containsKey sig || decide (s = sig)) := by
  unfold FilterSet.insert KeyMap.containsKey
  by_cases hs : s = sig
  · subst hs
    simp [AList.lookup_insert]
  · simp [AList.lookup_insert_ne (Ne.symm hs), hs]

theorem containsKey_ingest (set : FilterSet) (d : Datagram) (sig : Signature) :
    (set.ingest d).map.containsKey sig =
      (set.map.containsKey sig || (d.2 == filterTag :: sig.bytes)) := by
  unfold FilterSet.ingest
  cases hs : ingestFilter d.2 with
  | none =>
    have hne : d.2 ≠ filterTag :: sig.bytes := by
      intro heq
      rw [ingestFilter_some_iff.mpr heq] at hs
      cases hs
    simp [hne]
  | some s =>
    have heq := ingestFilter_some_iff.mp hs
    have hsame : (d.2 = filterTag :: sig.bytes) ↔ s = sig := by
      rw [← ingestFilter_some_iff, hs]
      exact Option.some_inj
    rw [containsKey_insert]
    congr 1
    rw [Bool.eq_iff_iff, decide_eq_true_iff, beq_iff_eq]
    exact hsame.symm

theorem containsKey_ingestAll (ds : List Datagram) (sig : Signature) :
    (FilterSet.ingestAll ds).map.containsKey sig =
      ds.any (fun d => d.2 == filterTag :: sig.bytes) := by
  have hfold : ∀ set : FilterSet, (ds.foldl FilterSet.ingest set).map.containsKey sig =
      (set.map.containsKey sig || ds.any (fun d => d.2 == filterTag :: sig.bytes)) := by
    induction ds with
    | nil => simp
    | cons d ds ih =>
      intro set
      rw [List.foldl_cons, ih, containsKey_ingest, List.any_cons, Bool.or_assoc]
  exact hfold FilterSet.default

theorem hit_wire (ds : List Datagram) (tx : WireTransaction) :
    hit (FilterSet.ingestAll ds).map (firstSignature tx.wire) = withheldBy ds tx := by
  rw [tx.firstSignature_wire]
  exact containsKey_ingestAll ds tx.first

structure TransactionPacket where
  packetMeta : Option ProtoMeta
  transaction : WireTransaction

def TransactionPacket.proto (x : TransactionPacket) : ProtoPacket :=
  ⟨x.transaction.wire,x.packetMeta⟩

structure TransactionBundle where
  header : Option Header
  packets : List TransactionPacket

def TransactionBundle.proto (b : TransactionBundle) : Bundle :=
  ⟨b.header,b.packets.map TransactionPacket.proto⟩

structure UuidBundle where
  bundle : Option TransactionBundle
  uuid : String

def UuidBundle.proto (bu : UuidBundle) : BundleUuid :=
  ⟨bu.bundle.map TransactionBundle.proto,bu.uuid⟩

def UuidBundle.contains (ds : List Datagram) (bu : UuidBundle) : Bool :=
  bu.bundle.any fun b => b.packets.any fun x => withheldBy ds x.transaction

structure BankingPacket (π : Type) [PacketRef π] where
  packet : π
  transaction : Option WireTransaction
  data_eq : PacketRef.data packet = transaction.map WireTransaction.wire

section Agreement

variable {π : Type} [PacketRef π]

def BankingPacket.referenced (ds : List Datagram) (x : BankingPacket π) : π :=
  if x.transaction.any (withheldBy ds) then PacketRef.setDiscard x.packet else x.packet

theorem discardPacket_referenced (ds : List Datagram) (x : BankingPacket π) :
    discardPacket (FilterSet.ingestAll ds).map x.packet = x.referenced ds := by
  obtain ⟨packet,transaction,hdata⟩ := x
  unfold discardPacket BankingPacket.referenced packetSignature
  simp only
  rw [hdata]
  cases transaction with
  | none => simp [hit]
  | some tx =>
    have hkept : (PacketRef.packetMeta packet).discard = false := by
      cases hd : (PacketRef.packetMeta packet).discard with
      | false => rfl
      | true =>
        rw [PacketRef.data_of_discard packet hd] at hdata
        cases hdata
    simp only [hkept, Option.map_some, Option.bind_some, hit_wire, Option.any_some,
      Bool.false_eq_true, if_false]

theorem discardFiltered_reference (ds : List Datagram) (batch : List (List (BankingPacket π))) :
    discardFiltered (FilterSet.ingestAll ds) (batch.map (List.map BankingPacket.packet)) =
      batch.map (List.map (BankingPacket.referenced ds)) := by
  rw [discardFiltered_eq, discardBlocked, List.map_map]
  apply List.map_congr_left
  intro packets _
  rw [Function.comp_apply, List.map_map]
  apply List.map_congr_left
  intro x _
  exact discardPacket_referenced ds x

theorem filterBePackets_reference (ds : List Datagram) (header : Option Header)
    (packets : List TransactionPacket) :
    filterBePackets (FilterSet.ingestAll ds)
        ⟨header,some ⟨packets.map TransactionPacket.proto⟩⟩ =
      ⟨header,some ⟨(packets.filter fun x => !withheldBy ds x.transaction).map
        TransactionPacket.proto⟩⟩ := by
  rw [filterBePackets_eq]
  simp only [retainPackets, Option.map_some, List.filter_map]
  congr 4
  apply List.filter_congr
  intro x _
  exact congrArg _ (hit_wire ds x.transaction)

theorem bundleHit_reference (ds : List Datagram) (bu : UuidBundle) :
    bundleHit (FilterSet.ingestAll ds).map bu.proto = bu.contains ds := by
  obtain ⟨bundle,uuid⟩ := bu
  cases bundle with
  | none => rfl
  | some b =>
    simp only [bundleHit, UuidBundle.proto, UuidBundle.contains, Option.map_some,
      Option.any_some, TransactionBundle.proto, List.any_map]
    congr 1
    funext x
    exact hit_wire ds x.transaction

theorem filterBeBundles_reference (ds : List Datagram) (bundles : List UuidBundle) :
    filterBeBundles (FilterSet.ingestAll ds) ⟨bundles.map UuidBundle.proto⟩ =
      ⟨(bundles.filter fun bu => !bu.contains ds).map UuidBundle.proto⟩ := by
  rw [filterBeBundles_eq]
  simp only [retainBundles, List.filter_map]
  congr 2
  apply List.filter_congr
  intro bu _
  exact congrArg _ (bundleHit_reference ds bu)

theorem filters_agree_on_wire_format (ds : List Datagram) :
    (∀ batch : List (List (BankingPacket π)),
      discardFiltered (FilterSet.ingestAll ds) (batch.map (List.map BankingPacket.packet)) =
        batch.map (List.map fun x =>
          if x.transaction.any (withheldBy ds) then PacketRef.setDiscard x.packet
          else x.packet)) ∧
    (∀ header (packets : List TransactionPacket),
      filterBePackets (FilterSet.ingestAll ds)
          ⟨header,some ⟨packets.map TransactionPacket.proto⟩⟩ =
        ⟨header,some ⟨(packets.filter fun x => !withheldBy ds x.transaction).map
          TransactionPacket.proto⟩⟩) ∧
    (∀ bundles : List UuidBundle,
      filterBeBundles (FilterSet.ingestAll ds) ⟨bundles.map UuidBundle.proto⟩ =
        ⟨(bundles.filter fun bu => !bu.contains ds).map UuidBundle.proto⟩) ∧
    (∀ tx, withheldBy ds tx = true ↔ ∃ d ∈ ds, d.2 = filterTag :: tx.first.bytes) ∧
    (∀ (set : FilterSet) (d : Datagram),
      (∀ sig : Signature, d.2 ≠ filterTag :: sig.bytes) → set.ingest d = set) ∧
    ∀ signatures message, signatures ≠ [] →
      (wireForm signatures message).length ≤ packetDataSize →
        ∃ tx : WireTransaction, tx.signatures = signatures ∧ tx.message = message ∧
          tx.wire = wireForm signatures message := by
  refine ⟨discardFiltered_reference ds,filterBePackets_reference ds,
    filterBeBundles_reference ds,?_,fun set d => ingest_of_other,
    fun signatures message => WireTransaction.exists_of_packet⟩
  intro tx
  simp [withheldBy]

def ingestMoves (h : Nat) (bytes : List UInt8) : List (Action π) :=
  .move h (.call (.ingestFilter bytes)) ::
    if (ingestFilter bytes).isSome then List.replicate 5 (.move h .advance) else []

theorem ingest_runs (s : State π) (h : Nat) (set : FilterSet) (bytes : List UInt8)
    (hidle : s.tasks h = .idle) (hfree : s.holder = none) (hmap : s.shared.map = set.map)
    (hlen : s.shared.len = set.len) :
    ∃ t, run step s (ingestMoves h bytes) = some t ∧ t.tasks h = .idle ∧ t.holder = none ∧
      t.shared.map = (set.ingest (s.shared.now,bytes)).map ∧
      t.shared.len = (set.ingest (s.shared.now,bytes)).len := by
  have hview : (run step s (ingestMoves h bytes)).map
      (fun t => (t.tasks h,t.holder,t.shared.map,t.shared.len)) =
      some (.idle,none,(set.ingest (s.shared.now,bytes)).map,
        (set.ingest (s.shared.now,bytes)).len) := by
    cases hsig : ingestFilter bytes with
    | none =>
      simp [ingestMoves, run, step, outcome, hidle, Mutex.State.commit, Mutex.State.apply,
        Call.start, hsig, FilterSet.ingest, hfree, hmap, hlen]
    | some sig =>
      simp [ingestMoves, List.replicate, run, step, outcome, advance, hidle, Mutex.State.commit,
        Mutex.State.apply, Call.start, hsig, hfree, Shared.put, Shared.storeLen, Shared.complete,
        FilterSet.ingest, FilterSet.insert, hmap]
  obtain ⟨t,hrun,heq⟩ := Option.map_eq_some_iff.mp hview
  simp only [Prod.mk.injEq] at heq
  exact ⟨t,hrun,heq⟩

end Agreement

end InertiaRelayer.Proxy
