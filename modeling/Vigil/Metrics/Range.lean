import Vigil.Metrics.Disk
import Vigil.Metrics.Groups
import Vigil.Metrics.NetDev
import Vigil.SnapshotJson

/-!
# The ranges of what is collected

Where the host answers in the ranges of its types, so does every collector: a
saturating cast, a parse that rejects and a pid that is copied stay in theirs.
-/

namespace Vigil.Metrics

open Vigil.Lib Vigil.Lib.Text

/-- The counters of an interface that are reported as integers. -/
structure NetData.InRange (d : NetData) : Prop where
  packetsReceived : d.packetsReceived < 2 ^ 64
  packetsTransmitted : d.packetsTransmitted < 2 ^ 64
  errorsOnReceived : d.errorsOnReceived < 2 ^ 64
  errorsOnTransmitted : d.errorsOnTransmitted < 2 ^ 64

structure Reading.InRange (r : Reading) : Prop where
  cores : r.frequencies.length < 2 ^ 32
  pids : ∀ p ∈ r.processes, p.1 < 2 ^ 32
  netData : ∀ name, (r.netData name).InRange

theorem Reading.quiet_inRange : Reading.quiet.InRange := by
  have h64 : 0 < 2 ^ 64 := Nat.two_pow_pos 64
  exact ⟨Nat.two_pow_pos 32, nofun, fun _ => ⟨h64, h64, h64, h64⟩⟩

/-! ## Rates -/

theorem lt_of_le_u64Max {n : Nat} (h : n ≤ u64Max) : n < 2 ^ 64 := Nat.lt_of_le_pred (by decide) h

theorem intToU64_lt (z : ℤ) : intToU64 z < 2 ^ 64 := lt_of_le_u64Max (min_le_right _ _)

theorem collectIo_fits (prev : Option DiskIoPrev) (r : IoReading) :
    DiskIo.codec.Fits (collectIo prev r).1 := by
  have h64 : 0 < 2 ^ 64 := Nat.two_pow_pos 64
  have hzero : DiskIo.codec.Fits .default := ⟨⟨⟨⟨trivial, h64⟩, h64⟩, h64⟩, h64⟩
  unfold collectIo
  cases readDiskstats r with
  | none => exact hzero
  | some t =>
    cases prev with
    | none => exact hzero
    | some last =>
      dsimp only
      split
      · exact hzero
      · exact ⟨⟨⟨⟨trivial, intToU64_lt _⟩, intToU64_lt _⟩, intToU64_lt _⟩, intToU64_lt _⟩

theorem collectThroughput_fits (networks : List (String × NetData)) (prev : Option NetIoPrev)
    (now : ℚ) : Throughput.codec.Fits (collectThroughput networks prev now).1 := by
  have h64 : 0 < 2 ^ 64 := Nat.two_pow_pos 64
  have hzero : Throughput.codec.Fits .default := ⟨⟨trivial, h64⟩, h64⟩
  unfold collectThroughput
  cases prev with
  | none => exact hzero
  | some last =>
    dsimp only
    split
    · exact hzero
    · exact ⟨⟨trivial, intToU64_lt _⟩, intToU64_lt _⟩

/-! ## Interface statistics -/

theorem parseU64_getD_lt (s : List Char) : (parseU64 s).getD 0 < 2 ^ 64 := by
  unfold parseU64 parseUnsigned
  split
  · exact Nat.two_pow_pos 64
  · cases hd : (digits 0 (dropPlus s)).filter (· < 2 ^ 64) with
    | none => exact Nat.two_pow_pos 64
    | some n =>
      have hn := (Option.filter_eq_some_iff.mp hd).2
      simpa using hn

theorem readProcNetDrops_lt {r : Reading} {drops : List (String × Nat × Nat)}
    (h : readProcNetDrops r = some drops) : ∀ d ∈ drops, d.2.1 < 2 ^ 64 ∧ d.2.2 < 2 ^ 64 := by
  rw [readProcNetDrops_eq, Option.map_eq_some_iff] at h
  obtain ⟨raw, -, rfl⟩ := h
  intro d hd
  obtain ⟨line, -, hl⟩ := List.mem_filterMap.mp (Map.mem_ofWrites.mp hd).mem
  unfold lineDrops at hl
  cases hs : splitOnce ':' line with
  | none => rw [hs] at hl; cases hl
  | some p =>
    rw [hs] at hl
    dsimp only at hl
    split at hl
    · cases hl
      exact ⟨parseU64_getD_lt _, parseU64_getD_lt _⟩
    · cases hl

theorem setDrops_fits {out : List (String × NetIfaceStats)} {d : String × Nat × Nat}
    (hd : d.2.1 < 2 ^ 64 ∧ d.2.2 < 2 ^ 64) (h : ∀ kv ∈ out, NetIfaceStats.codec.Fits kv.2) :
    ∀ kv ∈ setDrops out d, NetIfaceStats.codec.Fits kv.2 := by
  intro kv hkv
  obtain ⟨⟨name, s⟩, hs, rfl⟩ := List.mem_map.mp hkv
  have hfit := h _ hs
  dsimp only
  split
  · exact ⟨⟨hfit.1.1, hd.1⟩, hd.2⟩
  · exact hfit

theorem statistics_fits {r : Reading} {networks : List (String × NetData)}
    (h : ∀ n ∈ networks, n.2.InRange) :
    ∀ kv ∈ statistics r networks, NetIfaceStats.codec.Fits kv.2 := by
  have hzero : 0 < 2 ^ 64 := Nat.two_pow_pos 64
  have hout : ∀ kv ∈ networks.foldl (fun out (n : String × NetData) =>
      Map.insert n.1 (ifaceStats n.2 (0, 0)) out) [], NetIfaceStats.codec.Fits kv.2 := by
    rw [← List.foldl_map (f := fun n : String × NetData => (n.1, ifaceStats n.2 (0, 0)))
      (g := fun out w => Map.insert w.1 w.2 out) (l := networks)]
    intro kv hkv
    obtain ⟨n, hn, rfl⟩ := List.mem_map.mp (Map.mem_ofWrites.mp hkv).mem
    have hd := h n hn
    exact ⟨⟨⟨⟨⟨⟨⟨⟨trivial, trivial⟩, trivial⟩, hd.packetsTransmitted⟩, hd.packetsReceived⟩,
      hd.errorsOnReceived⟩, hd.errorsOnTransmitted⟩, hzero⟩, hzero⟩
  have hdrops : ∀ (drops : List (String × Nat × Nat)) (out : List (String × NetIfaceStats)),
      (∀ d ∈ drops, d.2.1 < 2 ^ 64 ∧ d.2.2 < 2 ^ 64) →
      (∀ kv ∈ out, NetIfaceStats.codec.Fits kv.2) →
      ∀ kv ∈ drops.foldl setDrops out, NetIfaceStats.codec.Fits kv.2 := by
    intro drops
    induction drops with
    | nil => exact fun _ _ hout => hout
    | cons d ds ih =>
      intro out hd hout
      exact ih _ (fun x hx => hd x (List.mem_cons_of_mem _ hx))
        (setDrops_fits (hd d List.mem_cons_self) hout)
  unfold statistics
  cases hr : readProcNetDrops r with
  | none => exact hout
  | some drops => exact hdrops drops _ (readProcNetDrops_lt hr) hout

/-! ## Process tables -/

theorem mem_sortDesc {α : Type} {key : α → ℚ} {l : List (String × α)} {x : String × α} :
    x ∈ sortDesc key l ↔ x ∈ l := (List.mergeSort_perm l _).mem_iff

/-- What holds of every group whatever its memory, the streaming top ten keeps. -/
theorem forall_mem_pssLoop {P : String × Aggregated → Prop} {pssMb : Aggregated → ℚ}
    (hP : ∀ x mb, P x → P (x.1, { x.2 with memMb := mb }))
    {top entries : List (String × Aggregated)} (htop : ∀ x ∈ top, P x)
    (h : ∀ x ∈ entries, P x) : ∀ x ∈ pssLoop pssMb top entries, P x := by
  induction entries generalizing top with
  | nil => exact htop
  | cons e entries ih =>
    have hnext : ∀ x ∈ sortDesc Aggregated.memMb
        (top ++ [(e.1, { e.2 with memMb := pssMb e.2 })]), P x := by
      intro x hx
      rcases List.mem_append.mp (mem_sortDesc.mp hx) with hx | hx
      · exact htop x hx
      · rw [List.mem_singleton.mp hx]
        exact hP e _ (h e List.mem_cons_self)
    have hrest : ∀ x ∈ entries, P x := fun x hx => h x (List.mem_cons_of_mem _ hx)
    unfold pssLoop
    split
    · exact htop
    · refine ih ?_ hrest
      split
      · exact fun x hx => hnext x (List.dropLast_subset _ hx)
      · exact hnext

variable {r : Reading} {sys : System} {users : List (Nat × String)}

theorem collectTop_pid {pss : Bool} {p : Process} (hp : p ∈ collectTop r sys users pss) :
    ∃ name, p.pid = (aggregate sys users name).pids.headD 0 := by
  let entries := sortDesc Aggregated.memMb (r.memOrder.iter (groupByName sys users))
  let P : String × Aggregated → Prop := fun x => ∃ name, x.2.pids = (aggregate sys users name).pids
  have hentries : ∀ x ∈ entries, P x := by
    intro x hx
    have hmem := (groupByName_perm r.memOrder sys users).subset (mem_sortDesc.mp hx)
    obtain ⟨name, -, rfl⟩ := List.mem_map.mp hmem
    exact ⟨name, rfl⟩
  have hfinal : ∀ x ∈ (if pss then pssLoop (groupPssMb r sys) [] entries else entries.take topN),
      P x := by
    split
    · exact forall_mem_pssLoop (fun _ _ h => h) nofun hentries
    · exact fun x hx => hentries x (List.mem_of_mem_take hx)
  obtain ⟨x, hx, rfl⟩ := List.mem_map.mp hp
  obtain ⟨name, hname⟩ := hfinal x hx
  exact ⟨name, congrArg (·.headD 0) hname⟩

theorem pid_lt_of_processesOf (h : ∀ p ∈ sys.processes, p.1 < 2 ^ 32) {name : String}
    {p : Nat × SysProcess} (hp : p ∈ processesOf sys name) : p.1 < 2 ^ 32 :=
  h p (List.mem_of_mem_filter (List.mem_of_mem_filter hp))

theorem collectTop_pid_lt (h : ∀ p ∈ sys.processes, p.1 < 2 ^ 32) {pss : Bool} :
    ∀ p ∈ collectTop r sys users pss, p.pid < 2 ^ 32 := by
  intro p hp
  obtain ⟨name, hpid⟩ := collectTop_pid hp
  rw [hpid, aggregate]
  cases hl : processesOf sys name with
  | nil => exact Nat.two_pow_pos 32
  | cons q qs => exact pid_lt_of_processesOf h (hl ▸ List.mem_cons_self)

theorem runningPid_lt {l : List (Nat × SysProcess)} (h : ∀ p ∈ l, p.1 < 2 ^ 32) :
    runningPid l < 2 ^ 32 := by
  refine List.foldlRecOn (motive := (· < 2 ^ 32)) l _ (Nat.two_pow_pos 32) fun pid hpid p hp => ?_
  split
  · exact h p hp
  · exact hpid

theorem collectTopCpu_pid_lt (h : ∀ p ∈ sys.processes, p.1 < 2 ^ 32) :
    ∀ p ∈ collectTopCpu r sys users, p.pid < 2 ^ 32 := by
  intro p hp
  obtain ⟨x, hx, rfl⟩ := List.mem_map.mp hp
  have hmem := (groupByNameCpu_perm r.cpuOrder sys users).subset
    (mem_sortDesc.mp (List.mem_of_mem_take hx))
  obtain ⟨name, -, rfl⟩ := List.mem_map.mp hmem
  exact runningPid_lt fun q hq => pid_lt_of_processesOf h hq

end Vigil.Metrics
