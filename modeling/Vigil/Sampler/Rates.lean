import Vigil.Metrics.Rates
import Vigil.Sampler.Interfaces

/-!
# The rates of a sampler state

A refresh calls each of the two rate collectors once, on the baseline that the
refresh before has left. So the rates in the snapshots of a state are those of
the collectors run on their own, from an empty baseline, over what the refreshes
read: `network_eq_report` and `diskIo_eq_report`.
-/

namespace Vigil

open Vigil.Lib Vigil.Metrics

namespace SamplerState

section Refresh

variable (st : SamplerState) (g : Statics) (r : Reading)

/-- The two baselines, which only the collectors touch. -/
def baselines : Option NetIoPrev × Option DiskIoPrev := (st.netIoPrev, st.diskIoPrev)

@[simp] theorem scanPhase_baselines : (st.scanPhase g r).1.baselines = st.baselines := by
  unfold scanPhase; split <;> rfl

@[simp] theorem listPhase_baselines : (st.listPhase r).baselines = st.baselines := by
  unfold listPhase; split <;> rfl

def netTick : NetTick := ⟨r.netNow, refreshNetworks st.networks r⟩

/-- **A refresh runs each collector once**, on the baseline of the state. -/
theorem refresh_rates :
    (st.refresh g r).1.network = (collectNet st.netIoPrev (st.netTick r)).1 ∧
      (st.refresh g r).1.diskIo = (collectIo st.diskIoPrev r.diskIo).1 ∧
      (st.refresh g r).2.1.baselines =
        ((collectNet st.netIoPrev (st.netTick r)).2, (collectIo st.diskIoPrev r.diskIo).2) := by
  let mid := (((st.refreshCounters r).scanPhase g r).1.listPhase r).nextTick
  have hb : mid.baselines = st.baselines := by
    show (((st.refreshCounters r).scanPhase g r).1.listPhase r).baselines = _
    rw [listPhase_baselines, scanPhase_baselines]
    rfl
  have hn : mid.networks = refreshNetworks st.networks r := by
    show (((st.refreshCounters r).scanPhase g r).1.listPhase r).networks = _
    rw [listPhase_networks, scanPhase_networks]
    rfl
  obtain ⟨hnet, hio⟩ := Prod.mk.inj hb
  have hnetOut : collectThroughput mid.networks mid.netIoPrev r.netNow =
      collectNet st.netIoPrev (st.netTick r) := by
    rw [hn, hnet]
    rfl
  refine ⟨?_, ?_, ?_⟩
  · exact congrArg Prod.fst hnetOut
  · show (collectIo mid.diskIoPrev r.diskIo).1 = _
    rw [hio]
  · show ((collectThroughput mid.networks mid.netIoPrev r.netNow).2,
      (collectIo mid.diskIoPrev r.diskIo).2) = _
    rw [hnetOut, hio]

end Refresh

/-! ## Refreshes of one state -/

section Runs

variable (g : Statics) (first : Reading) (rs : Nat → Reading)

/-- A new state after `k` refreshes, with the statics. -/
def afterRefreshes : Nat → SamplerState × Statics
  | 0 => (.new first, g)
  | k + 1 => ((afterRefreshes k).1.refresh (afterRefreshes k).2 (rs k)).2

/-- The snapshot of refresh `k`. -/
def snapshotOf (k : Nat) : Snapshot :=
  ((afterRefreshes g first rs k).1.refresh (afterRefreshes g first rs k).2 (rs k)).1

/-- What the network collector is called with in refresh `k`. -/
def netTicks (k : Nat) : NetTick := (new first).netTick (rs k)

theorem netTick_afterRefreshes (k : Nat) (r : Reading) :
    (afterRefreshes g first rs k).1.netTick r = (new first).netTick r := by
  have hnames : (afterRefreshes g first rs k).1.networks.map Prod.fst =
      (new first).networks.map Prod.fst := by
    induction k with
    | zero => rfl
    | succ k ih =>
      rw [afterRefreshes, refresh_networks]
      exact (interfaceNames_refreshNetworks _ _).trans ih
  have hread : ∀ ns : List (String × NetData),
      refreshNetworks ns r = (ns.map Prod.fst).map fun name => (name, r.netData name) := by
    intro ns
    rw [List.map_map]
    rfl
  rw [netTick, netTick, hread, hread, hnames]

theorem baselines_afterRefreshes (k : Nat) : (afterRefreshes g first rs k).1.baselines =
    (held collectNet (netTicks first rs) k, held collectIo (fun i => (rs i).diskIo) k) := by
  induction k with
  | zero => rfl
  | succ k ih =>
    obtain ⟨hnet, hio⟩ := Prod.mk.inj ih
    rw [afterRefreshes, (refresh_rates _ _ _).2.2, netTick_afterRefreshes, hnet, hio]
    rfl

theorem network_eq_report (k : Nat) :
    (snapshotOf g first rs k).network = report collectNet (netTicks first rs) k := by
  obtain ⟨hnet, -⟩ := Prod.mk.inj (baselines_afterRefreshes g first rs k)
  rw [snapshotOf, (refresh_rates _ _ _).1, netTick_afterRefreshes, hnet]
  rfl

theorem diskIo_eq_report (k : Nat) :
    (snapshotOf g first rs k).diskIo = report collectIo (fun i => (rs i).diskIo) k := by
  obtain ⟨-, hio⟩ := Prod.mk.inj (baselines_afterRefreshes g first rs k)
  rw [snapshotOf, (refresh_rates _ _ _).2.1, hio]
  rfl

end Runs

end SamplerState

end Vigil
