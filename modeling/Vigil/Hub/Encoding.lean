import Vigil.Hub.Flatten

/-!
# The metric map as an encoding

`flatten` inserts one metric after the other, so its result is the map of a log
of writes: first `hostMetrics`, whose keys have no dimension, then the three
`diskMetrics` of each disk under keys that carry the mount point after a pipe.
`splitKey` reads such a key back, and `flatten_exact` says what is found there:
nothing of one part overwrites the other, and a mount point that is listed
twice shows the last of its disks.
-/

namespace Vigil.Hub

open Vigil.Lib

/-! ## Keys -/

/-- The key of a metric of one mount. -/
def dimKey (metric mount : String) : String := metric ++ "|" ++ mount

/-- A key split at its first pipe: the metric, and the mount point if there is one. -/
def splitKey (key : String) : String × Option String :=
  match Text.splitOnce '|' key.toList with
  | none => (key, none)
  | some (metric, mount) => (String.ofList metric, some (String.ofList mount))

theorem splitKey_eq_some_iff {key metric mount : String} :
    splitKey key = (metric, some mount) ↔ key = dimKey metric mount ∧ '|' ∉ metric.toList := by
  have hkey : key = dimKey metric mount ↔ key.toList = metric.toList ++ '|' :: mount.toList := by
    rw [← String.toList_inj]
    simp [dimKey]
  rw [hkey, ← Text.splitOnce_eq_some_iff, splitKey]
  cases Text.splitOnce '|' key.toList with
  | none => simp
  | some p =>
    rw [Option.some.injEq, Prod.ext_iff, Prod.ext_iff]
    simp only [Option.some.injEq, ← String.toList_inj, String.toList_ofList]

theorem splitKey_dimKey {metric mount : String} (h : '|' ∉ metric.toList) :
    splitKey (dimKey metric mount) = (metric, some mount) := splitKey_eq_some_iff.mpr ⟨rfl, h⟩

theorem splitKey_snd_eq_none_iff {key : String} : (splitKey key).2 = none ↔ '|' ∉ key.toList := by
  rw [← Text.splitOnce_eq_none_iff, splitKey]
  cases Text.splitOnce '|' key.toList <;> simp

theorem splitKey_of_none {key : String} (h : (splitKey key).2 = none) :
    splitKey key = (key, none) := by
  rw [splitKey, Text.splitOnce_eq_none_iff.mpr (splitKey_snd_eq_none_iff.mp h)]

def cpuMetrics (cpu : Cpu) : List (String × F64) :=
  [("cpu.usage", cpu.usage)] ++
    (if cpu.freq.isZero then [] else [("cpu.freq_mhz", cpu.freq)]) ++
    (match cpu.load with
      | some (l1, l5, l15) => [("cpu.load_1m", l1), ("cpu.load_5m", l5), ("cpu.load_15m", l15)]
      | none => []) ++
    (if cpu.temp.isFinite && !cpu.temp.isZero then [("cpu.temp_c", cpu.temp)] else [])

/-- The metrics without a dimension. -/
def hostMetrics (snap : Snapshot) : List (String × F64) :=
  cpuMetrics snap.cpu ++
    [("mem.total_bytes", num (gibToBytes snap.mem.total)),
      ("mem.used_bytes", num (gibToBytes snap.mem.used)),
      ("mem.free_bytes", num (gibToBytes snap.mem.free)),
      ("mem.percent", snap.mem.percent),
      ("disk.io.read_bytes_per_s", num snap.diskIo.readBytesPerSec),
      ("disk.io.write_bytes_per_s", num snap.diskIo.writeBytesPerSec),
      ("disk.io.read_iops", num snap.diskIo.readIops),
      ("disk.io.write_iops", num snap.diskIo.writeIops),
      ("net.rx_bytes_per_s", num snap.network.rxBytesPerSec),
      ("net.tx_bytes_per_s", num snap.network.txBytesPerSec)]

/-- The metrics of one disk. -/
def diskMetrics (d : DiskInfo) : List (String × F64) :=
  [("disk.total_bytes", num (gibToBytes d.total)), ("disk.used_bytes", num (gibToBytes d.used)),
    ("disk.percent", d.percent)]

/-- The names of `diskMetrics`. -/
def diskNames : List String := ["disk.total_bytes", "disk.used_bytes", "disk.percent"]

/-- A mount point has metrics, unless it is empty or that of a snap or a container. -/
def Reported (mount : String) : Prop :=
  mount ≠ "" ∧ ∀ head ∈ ["/snap/", "/var/lib/docker/", "/run/docker/"],
    ¬ head.toList <+: mount.toList

instance (mount : String) : Decidable (Reported mount) := inferInstanceAs (Decidable (_ ∧ _))

theorem reported_iff {mount : String} :
    Reported mount ↔ mount ≠ "" ∧ skipMount mount = false := by
  have hskip : skipMount mount = false ↔
      ∀ head ∈ ["/snap/", "/var/lib/docker/", "/run/docker/"], ¬ head.toList <+: mount.toList := by
    rw [← Bool.not_eq_true]
    simp only [skipMount, Bool.or_eq_true, Text.startsWith_iff, not_or, and_assoc,
      List.forall_mem_cons, List.not_mem_nil, false_imp_iff, implies_true, and_true]
  rw [Reported, hskip]

def diskWrites (d : DiskInfo) : List (String × F64) :=
  if Reported d.mountpoint then (diskMetrics d).map fun m => (dimKey m.1 d.mountpoint, m.2) else []

theorem insertDisk_eq (out : List (String × F64)) (d : DiskInfo) :
    insertDisk out d = (diskWrites d).foldl (fun m w => Map.insert w.1 w.2 m) out := by
  have hkey : ∀ {head metric : String}, head = metric ++ "|" →
      s!"{head}{d.mountpoint}" = dimKey metric d.mountpoint := fun h =>
    congrArg (· ++ d.mountpoint) h
  have htotal := hkey (show "disk.total_bytes|" = "disk.total_bytes" ++ "|" by decide)
  have hused := hkey (show "disk.used_bytes|" = "disk.used_bytes" ++ "|" by decide)
  have hpercent := hkey (show "disk.percent|" = "disk.percent" ++ "|" by decide)
  unfold insertDisk diskWrites
  by_cases hm : d.mountpoint = ""
  · simp [hm, reported_iff]
  · by_cases hs : skipMount d.mountpoint = true
    · simp [hm, hs, reported_iff]
    · rw [if_neg hm, if_neg hs, if_pos (reported_iff.mpr ⟨hm, Bool.eq_false_iff.mpr hs⟩)]
      dsimp only
      rw [htotal, hused, hpercent]
      rfl

theorem flattenCpu_eq (cpu : Cpu) : flattenCpu cpu = Map.ofWrites (cpuMetrics cpu) := by
  unfold flattenCpu cpuMetrics Map.ofWrites
  simp only [List.foldl_append, List.foldl_cons, List.foldl_nil]
  cases cpu.load <;> cases cpu.freq.isZero <;> cases cpu.temp.isFinite && !cpu.temp.isZero <;>
    simp only [if_true, if_false, Bool.false_eq_true, List.foldl_cons, List.foldl_nil]

theorem flattenHost_eq (snap : Snapshot) : flattenHost snap = Map.ofWrites (hostMetrics snap) := by
  unfold flattenHost hostMetrics
  rw [flattenCpu_eq, Map.ofWrites, Map.ofWrites, List.foldl_append]
  simp only [List.foldl_cons, List.foldl_nil]

/-- **The result of `flatten` is the map of its writes.** -/
theorem flatten_eq (snap : Snapshot) :
    flatten snap = Map.ofWrites (hostMetrics snap ++ snap.disks.flatMap diskWrites) := by
  have hstep : insertDisk =
      fun out d => (diskWrites d).foldl (fun m w => Map.insert w.1 w.2 m) out :=
    funext fun out => funext fun d => insertDisk_eq out d
  unfold flatten Map.ofWrites
  rw [List.foldl_append, List.foldl_flatMap, flattenHost_eq, hstep]
  rfl

/-! ## What is found under a key -/

theorem diskMetrics_fst (d : DiskInfo) : (diskMetrics d).map Prod.fst = diskNames := rfl

theorem noPipe_of_mem_diskMetrics {d : DiskInfo} {m : String × F64} (h : m ∈ diskMetrics d) :
    '|' ∉ m.1.toList := by
  have hall : ∀ name ∈ diskNames, '|' ∉ name.toList := by decide
  exact hall _ (diskMetrics_fst d ▸ List.mem_map_of_mem h)

theorem mem_diskWrites {d : DiskInfo} {kv : String × F64} : kv ∈ diskWrites d ↔
    Reported d.mountpoint ∧ ∃ m ∈ diskMetrics d, (dimKey m.1 d.mountpoint, m.2) = kv := by
  unfold diskWrites
  split
  · next h => simp only [h, true_and, List.mem_map]
  · next h => simp [h]

theorem splitKey_of_mem_diskWrites {d : DiskInfo} {kv : String × F64} (h : kv ∈ diskWrites d) :
    (splitKey kv.1).2 = some d.mountpoint := by
  obtain ⟨-, m, hm, rfl⟩ := mem_diskWrites.mp h
  rw [splitKey_dimKey (noPipe_of_mem_diskMetrics hm)]

theorem nodup_diskWrites (d : DiskInfo) : ((diskWrites d).map Prod.fst).Nodup := by
  unfold diskWrites
  split
  · have hnames : diskNames.Nodup := by decide
    rw [← diskMetrics_fst d] at hnames
    rw [List.map_map]
    refine List.Nodup.of_map (fun key => (splitKey key).1) ?_
    rw [List.map_map]
    refine (List.map_congr_left fun m hm => ?_).symm ▸ hnames
    exact congrArg Prod.fst (splitKey_dimKey (noPipe_of_mem_diskMetrics hm))
  · exact List.nodup_nil

/-- A disk of the same mount point writes under the same keys. -/
theorem exists_mem_diskWrites {d d' : DiskInfo} {kv : String × F64} (h : kv ∈ diskWrites d')
    (he : d.mountpoint = d'.mountpoint) : ∃ y ∈ diskWrites d, y.1 = kv.1 := by
  obtain ⟨hr, m, hm, rfl⟩ := mem_diskWrites.mp h
  have hname : m.1 ∈ (diskMetrics d).map Prod.fst :=
    diskMetrics_fst d' ▸ List.mem_map_of_mem hm
  obtain ⟨m', hm', hname⟩ := List.mem_map.mp hname
  exact ⟨_, mem_diskWrites.mpr ⟨he ▸ hr, m', hm', rfl⟩, by rw [hname, he]⟩

/-- **The last write under a key of a mount point is by the last disk that has it.** -/
theorem lastAt_diskWrites {disks : List DiskInfo} {kv : String × F64} :
    Map.LastAt Prod.fst (disks.flatMap diskWrites) kv.1 kv ↔
      ∃ d, Map.LastAt DiskInfo.mountpoint disks d.mountpoint d ∧ kv ∈ diskWrites d := by
  induction disks using List.reverseRecOn with
  | nil => simp [Map.LastAt]
  | append_singleton disks d ih =>
    rw [List.flatMap_append, List.flatMap_singleton, Map.LastAt.append_iff, ih,
      Map.LastAt.iff_mem_of_nodup (nodup_diskWrites d)]
    simp only [Map.LastAt.append_iff, Map.LastAt.singleton_iff, List.mem_singleton, forall_eq]
    constructor
    · rintro (h | ⟨⟨d', hl, hk⟩, hno⟩)
      · exact ⟨d, .inl ⟨rfl, rfl⟩, h⟩
      · refine ⟨d', .inr ⟨hl, fun he => ?_⟩, hk⟩
        obtain ⟨y, hy, hyk⟩ := exists_mem_diskWrites hk he
        exact hno y hy hyk
    · rintro ⟨d', ⟨rfl, -⟩ | ⟨hl, hne⟩, hk⟩
      · exact .inl hk
      · refine .inr ⟨⟨d', hl, hk⟩, fun y hy hyk => hne ?_⟩
        have hs := splitKey_of_mem_diskWrites hy
        rw [hyk, splitKey_of_mem_diskWrites hk] at hs
        exact (Option.some.inj hs).symm

/-- The names of the metrics without a dimension, the optional ones included. -/
def hostNames : List String :=
  ["cpu.usage"] ++ ["cpu.freq_mhz"] ++ ["cpu.load_1m", "cpu.load_5m", "cpu.load_15m"] ++
    ["cpu.temp_c"] ++
    ["mem.total_bytes", "mem.used_bytes", "mem.free_bytes", "mem.percent",
      "disk.io.read_bytes_per_s", "disk.io.write_bytes_per_s", "disk.io.read_iops",
      "disk.io.write_iops", "net.rx_bytes_per_s", "net.tx_bytes_per_s"]

theorem hostMetrics_fst_sublist (snap : Snapshot) :
    ((hostMetrics snap).map Prod.fst).Sublist hostNames := by
  unfold hostMetrics cpuMetrics hostNames
  simp only [List.map_append]
  refine (((List.Sublist.append (.refl _) ?_).append ?_).append ?_).append (.refl _)
  · split
    · exact List.nil_sublist _
    · exact .refl _
  · split
    · exact .refl _
    · exact List.nil_sublist _
  · split
    · exact .refl _
    · exact List.nil_sublist _

theorem nodup_hostMetrics (snap : Snapshot) : ((hostMetrics snap).map Prod.fst).Nodup :=
  (show hostNames.Nodup by decide).sublist (hostMetrics_fst_sublist snap)

theorem splitKey_of_mem_hostMetrics {snap : Snapshot} {kv : String × F64}
    (h : kv ∈ hostMetrics snap) : splitKey kv.1 = (kv.1, none) := by
  have hall : ∀ name ∈ hostNames, '|' ∉ name.toList := by decide
  have hname := (hostMetrics_fst_sublist snap).subset (List.mem_map_of_mem h)
  exact splitKey_of_none (splitKey_snd_eq_none_iff.mpr (hall _ hname))

/-- **The entries of `flatten`**: those of the host, and for each reported mount point those of the
last disk listed with it. -/
theorem mem_flatten {snap : Snapshot} {kv : String × F64} : kv ∈ flatten snap ↔
    kv ∈ hostMetrics snap ∨
      ∃ d, Map.LastAt DiskInfo.mountpoint snap.disks d.mountpoint d ∧ kv ∈ diskWrites d := by
  rw [flatten_eq, Map.mem_ofWrites, Map.LastAt.append_iff, lastAt_diskWrites,
    Map.LastAt.iff_mem_of_nodup (nodup_hostMetrics snap), or_comm]
  refine or_congr_left (and_iff_left_of_imp fun hk y hy he => ?_)
  -- a key with a mount point is none of the host's
  obtain ⟨d, -, hy⟩ := List.mem_flatMap.mp hy
  have hs := splitKey_of_mem_diskWrites hy
  rw [he, splitKey_of_mem_hostMetrics hk] at hs
  cases hs

end Vigil.Hub
