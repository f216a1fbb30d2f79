import InertiaRelayer.Proxy.RelayerPath

namespace InertiaRelayer.Proxy
open Machine

def FilterSet.default : FilterSet := ⟨∅,0,rfl⟩

def filterBePackets (set : FilterSet) (resp : SubscribePacketsResponse) :
    SubscribePacketsResponse :=
  if set.isEmpty then resp else retainPackets set.map resp

def filterBeBundles (set : FilterSet) (resp : SubscribeBundlesResponse) :
    SubscribeBundlesResponse :=
  if set.isEmpty then resp else retainBundles set.map resp

theorem filterBePackets_eq (set : FilterSet) (resp : SubscribePacketsResponse) :
    filterBePackets set resp = retainPackets set.map resp := by
  unfold filterBePackets
  split
  · rename_i hempty
    exact (retainPackets_of_no_hit (fun _ _ _ _ => hit_of_isEmpty hempty _)).symm
  · rfl

theorem filterBeBundles_eq (set : FilterSet) (resp : SubscribeBundlesResponse) :
    filterBeBundles set resp = retainBundles set.map resp := by
  unfold filterBeBundles
  split
  · rename_i hempty
    refine (retainBundles_of_no_hit (fun bu _ => bundleHit_eq_false ?_)).symm
    exact fun _ _ _ _ => hit_of_isEmpty hempty _
  · rfl

section Concurrent

variable {π : Type} [PacketRef π] {as : List (Action π)} {s : State π} {r : Release π}

theorem release_is_filterBePackets (hrun : run step init as = some s) (hr : r ∈ s.log)
    {resp : SubscribePacketsResponse} (hin : r.answer.input = .packets resp) :
    ∃ set : FilterSet, r.answer.output = .packets (filterBePackets set resp) := by
  refine ⟨⟨r.answer.blocked,_,rfl⟩,?_⟩
  rw [(accounted_run hrun hr).output, hin, filterBePackets_eq]
  rfl

theorem release_is_filterBeBundles (hrun : run step init as = some s) (hr : r ∈ s.log)
    {resp : SubscribeBundlesResponse} (hin : r.answer.input = .bundles resp) :
    ∃ set : FilterSet, r.answer.output = .bundles (filterBeBundles set resp) := by
  refine ⟨⟨r.answer.blocked,_,rfl⟩,?_⟩
  rw [(accounted_run hrun hr).output, hin, filterBeBundles_eq]
  rfl

end Concurrent

end InertiaRelayer.Proxy
