import Vigil.Metrics.NetDev
import Vigil.Metrics.Overflow
import Vigil.Metrics.Pss
import Vigil.Sampler.Interfaces
import Vigil.Sampler.Invariant

/-!
# The shape of what is published

What a client may rely on in every snapshot, whatever the host answered:
process tables that are short, free of repetitions and sorted, also when they
come from the cache of an earlier tick or from a PSS that is larger than the
resident memory it should be below; statistics for the listed interfaces and no
others; mounts that are backed by a device; percentages.
-/

namespace Vigil

open Vigil.Lib Vigil.Metrics

/-- At most ten rows, one for each name, by falling value. -/
structure Ranked {ρ : Type} (name : ρ → String) (value : ρ → F64) (rows : List ρ) : Prop where
  length : rows.length ≤ topN
  nodup : (rows.map name).Nodup
  falling : ∃ vs : List ℚ, rows.map value = vs.map .fin ∧ vs.Pairwise (· ≥ ·)

def IsPercent (x : F64) : Prop := ∃ q : ℚ, x = .fin q ∧ 0 ≤ q ∧ q ≤ 100

structure ProcessScan.WellFormed (s : ProcessScan) : Prop where
  processes : Ranked Process.name Process.mem s.processes
  metric : s.metric = "pss" ∨ s.metric = "rss"
  byCpu : Ranked ProcessCpu.name ProcessCpu.cpu s.byCpu

structure Snapshot.WellFormed (snap : Snapshot) : Prop where
  scan : snap.scan.WellFormed
  uptime : snap.uptime = snap.platform.uptime
  statistics : Map.Sorted snap.networkStats
  interfaces : ∀ name, name ∈ snap.networkStats.map Prod.fst ↔ name ∈ snap.interfaces
  mem : IsPercent snap.mem.percent
  disk : IsPercent snap.disk.percent
  disks : ∀ d ∈ snap.disks, Text.startsWith "/" d.device = true ∧ IsPercent d.percent

/-- The space that file systems report fits a `u64`, used and available together. -/
def Metrics.Reading.SpaceFits (r : Reading) : Prop := ∀ path st, r.statvfs path = some st → st.Fits

/-! ## Process tables -/

namespace Metrics

theorem Ranks.rows {γ ρ : Type} {val : γ → ℚ} {l top : List (String × γ)}
    (h : Ranks topN (fun p => val p.2) l top) (hl : (l.map Prod.fst).Nodup) {name : ρ → String}
    {value : ρ → F64} {row : String × γ → ρ} (hname : ∀ p, name (row p) = p.1)
    (hvalue : ∀ p, value (row p) = .fin (round2 (val p.2))) : Ranked name value (top.map row) := by
  refine ⟨by simpa using h.length, ?_, top.map fun p => round2 (val p.2), ?_, ?_⟩
  · have hn := h.nodup_map hl
    rw [List.map_map]
    rwa [show name ∘ row = Prod.fst from funext hname]
  · rw [List.map_map, List.map_map]
    exact List.map_congr_left fun p _ => hvalue p
  · exact List.pairwise_map.mpr (h.falling.imp fun hab => round2_mono hab)

theorem nodup_groups {γ : Type} (sys : System) (mk : String → γ) :
    (((groupNames sys).map fun k => (k, mk k)).map Prod.fst).Nodup := by
  rw [List.map_map]
  exact (List.map_id (groupNames sys)).symm ▸ List.nodup_dedup _

variable (r : Reading) (sys : System) (users : List (Nat × String))

/-- The walk by PSS ranks the groups whatever it reads. -/
theorem ranks_pssLoop (pssMb : Aggregated → ℚ) :
    Ranks topN (fun p : String × Aggregated => p.2.memMb)
      (((groupNames sys).map fun k => (k, aggregate sys users k)).map (withPss pssMb))
      (pssLoop pssMb []
        (sortDesc Aggregated.memMb (r.memOrder.iter (groupByName sys users)))) := by
  have hperm := (sortFalling_perm (fun p : String × Aggregated => p.2.memMb) _).trans
    (groupByName_perm r.memOrder sys users)
  have hstart : Ranks topN (fun p : String × Aggregated => p.2.memMb) [] [] := .of_isTop .nil
  rw [pssLoop_eq]
  exact (hstart.streamTop _).mono (hperm.map _).subperm

theorem ranked_collectTop (pss : Bool) :
    Ranked Process.name Process.mem (collectTop r sys users pss) := by
  have hgroups := nodup_groups sys (aggregate sys users)
  have hwith : ((((groupNames sys).map fun k => (k, aggregate sys users k)).map
      (withPss (groupPssMb r sys))).map Prod.fst).Nodup := by
    rw [List.map_map]
    exact hgroups
  cases pss with
  | true => exact Ranks.rows (ranks_pssLoop r sys users _) hwith (fun _ => rfl) fun _ => rfl
  | false =>
    have htop := isTop_sortDesc Aggregated.memMb (groupByName_perm r.memOrder sys users)
    exact Ranks.rows (.of_isTop htop) hgroups (fun _ => rfl) fun _ => rfl

theorem ranked_collectTopCpu :
    Ranked ProcessCpu.name ProcessCpu.cpu (collectTopCpu r sys users) := by
  have htop := isTop_sortDesc AggregatedCpu.cpuPct (groupByNameCpu_perm r.cpuOrder sys users)
  exact Ranks.rows (.of_isTop htop) (nodup_groups sys _) (fun _ => rfl) fun _ => rfl

/-! ## Percentages and statistics -/

theorem isPercent_collectMem : IsPercent (collectMem sys).percent :=
  ⟨_, rfl, percent_mem (Nat.sub_le _ _) rfl⟩

variable {r}

theorem isPercent_usageForMount (h : r.SpaceFits) (path : String) (total avail : Nat) :
    IsPercent (usageForMount r path total avail).percent := by
  unfold usageForMount
  cases hu : statvfsUsage r path with
  | some u =>
    obtain ⟨total, used, free, percent⟩ := u
    refine ⟨_, rfl, statvfsUsage_percent_mem (fun st hst => ?_) hu⟩
    unfold statvfsReply at hst
    split at hst
    · cases hst
    · exact h path st hst
  | none => exact ⟨_, rfl, percent_mem (Nat.sub_le _ _) rfl⟩

theorem isPercent_collectRoot (h : r.SpaceFits) (disks : List Mount) :
    IsPercent (collectRoot r disks).percent := by
  unfold collectRoot
  dsimp only
  split
  · exact isPercent_usageForMount h _ _ _
  · exact ⟨0, rfl, by norm_num, by norm_num⟩

theorem mem_collectAll (h : r.SpaceFits) {disks : List Mount} {d : DiskInfo}
    (hd : d ∈ collectAll r disks) : Text.startsWith "/" d.device = true ∧ IsPercent d.percent := by
  obtain ⟨m, -, hm⟩ := List.mem_filterMap.mp hd
  split at hm
  · cases hm
  · next hdev =>
    split at hm
    · cases hm
    · cases hm
      exact ⟨by simpa using hdev, isPercent_usageForMount h _ _ _⟩

variable (r)

theorem sorted_statistics_any (networks : List (String × NetData)) :
    Map.Sorted (statistics r networks) := by
  have hdrops : ∀ (drops : List (String × Nat × Nat)) (out : List (String × NetIfaceStats)),
      Map.Sorted out → Map.Sorted (drops.foldl setDrops out) := by
    intro drops
    induction drops with
    | nil => exact fun _ h => h
    | cons d ds ih =>
      intro out h
      refine ih _ ?_
      rw [Map.Sorted, setDrops_names]
      exact h
  have hout : Map.Sorted (networks.foldl (fun out (n : String × NetData) =>
      Map.insert n.1 (ifaceStats n.2 (0, 0)) out) []) :=
    List.foldlRecOn (motive := Map.Sorted) networks _ .nil fun _ h _ _ => Map.sorted_insert h
  unfold statistics
  cases readProcNetDrops r with
  | none => exact hout
  | some drops => exact hdrops drops _ hout

end Metrics

/-! ## Publications -/

theorem Refresh.scan_wellFormed (x : Refresh) : x.scan.WellFormed := by
  refine ⟨ranked_collectTop _ _ _ _, ?_, ranked_collectTopCpu _ _ _⟩
  show processMetricLabel _ = "pss" ∨ processMetricLabel _ = "rss"
  unfold processMetricLabel
  split <;> simp

theorem refreshInv_wellFormed : RefreshInv Reading.SpaceFits (fun _ st => st.cached.WellFormed)
    (fun _ snap => snap.WellFormed) where
  new _ _ _ :=
    ⟨⟨Nat.zero_le _, .nil, [], rfl, .nil⟩, .inr rfl, ⟨Nat.zero_le _, .nil, [], rfl, .nil⟩⟩
  refresh st g r hst hr := by
    have hs := st.refresh_spec g r
    have hcached : (st.refresh g r).2.1.cached.WellFormed := by
      rw [hs.cached]
      split
      · exact Refresh.scan_wellFormed _
      · exact hst
    refine ⟨hcached, hs.scan ▸ hcached, rfl, ?_, ?_, isPercent_collectMem _, ?_, ?_⟩
    · rw [st.refresh_networkStats g r]
      exact sorted_statistics_any r _
    · intro name
      rw [st.refresh_networkStats g r, mem_statistics]
      exact Iff.rfl
    · rw [hs.root]
      exact isPercent_collectRoot hr _
    · rw [hs.all]
      exact fun d hd => mem_collectAll hr hd
  mono_state _ _ _ _ h := h
  mono_snap _ _ _ _ h := h

/-- **Every publication is well formed**, on a host whose file systems report sizes that fit. -/
theorem published_wellFormed {strategy : PanicStrategy} {ser : ToVec} {seed first : Reading}
    (hseed : seed.SpaceFits) (hfirst : first.SpaceFits) {es : List SamplerEvent}
    (hes : ∀ e ∈ es, e.Reads Reading.SpaceFits) {s : Sampler}
    (hr : (sampler strategy ser seed first).Reaches es s) :
    ∀ p ∈ s.published, p.snap.WellFormed :=
  published_of refreshInv_wellFormed hseed hfirst hes hr

/-- A process with more PSS than resident memory, beside one without. -/
def swappedHost : Reading :=
  { halfShared with
    processes := [(10, resident "shared" (2 ^ 20)), (11, resident "private" (2 ^ 22))]
    statvfs := fun _ => some ⟨100, 60, 50, 4096⟩
    mounts := [⟨"/dev/sda1", "ext4", "/", 0, 0⟩] }

/-- A tick that shows the process tables of `Sampler::start` again. -/
def cachedTables : List SamplerEvent := [.wake, .refreshed swappedHost, .joined]

theorem published_wellFormed_cachedTables :
    ∃ s, (sampler .unwind quietToVec swappedHost swappedHost).Reaches cachedTables s ∧
      s.published.length = 2 ∧ ∀ p ∈ s.published, p.snap.WellFormed := by
  have hswapped : swappedHost.SpaceFits := by
    intro path st h
    cases h
    decide
  have hes : ∀ e ∈ cachedTables, e.Reads Reading.SpaceFits := by
    simp [cachedTables, SamplerEvent.Reads, hswapped]
  have hrun : ∃ s, (sampler .unwind quietToVec swappedHost swappedHost).Reaches cachedTables s ∧
      s.published.length = 2 := by
    with_unfolding_all exact ⟨_, rfl, rfl⟩
  obtain ⟨s, hr, hl⟩ := hrun
  exact ⟨s, hr, hl, published_wellFormed hswapped hswapped hes hr⟩

end Vigil
