import Vigil.Hub.Client
import Vigil.Hub.Encoding

/-!
# The ceiling on byte counts

The hub's validator rejects a byte count past `bytesCeiling`. Sizes are clamped
to it, in GiB by `gibToBytes` and in MiB by `Round.memBytes`, but `flatten`
passes the four rates on as they are.
-/

namespace Vigil.Hub

open Vigil.Lib

/-- The metric is a number of bytes, or of bytes per second. -/
def BytesTyped (metric : String) : Prop :=
  "_bytes".toList <:+ metric.toList ∨ "_bytes_per_s".toList <:+ metric.toList

instance (metric : String) : Decidable (BytesTyped metric) := inferInstanceAs (Decidable (_ ∨ _))

/-- The value is a number up to the ceiling. -/
def Accepted (v : F64) : Prop := ∃ q : ℚ, v = .fin q ∧ q ≤ bytesCeiling

theorem accepted_num {n : Nat} : Accepted (num n) ↔ n ≤ bytesCeiling := by
  rw [← natToF64_le_iff (show bytesCeiling < 2 ^ 52 by decide)]
  constructor
  · rintro ⟨q, hv, hq⟩
    cases hv
    exact hq
  · exact fun h => ⟨_, rfl, h⟩

theorem gibToBytes_le (value : F64) : gibToBytes value ≤ bytesCeiling := Nat.min_le_right _ _

theorem Round.memBytes_le (p : Process) : memBytes p ≤ bytesCeiling := Nat.min_le_right _ _

def Frame.WithinCeiling : Frame → Prop
  | .samples s => ∀ kv ∈ s.metrics, BytesTyped (splitKey kv.1).1 → Accepted kv.2
  | .processes p => ∀ i ∈ p.items, i.memBytes ≤ bytesCeiling
  | _ => True

def byteRates (snap : Snapshot) : List Nat :=
  [snap.diskIo.readBytesPerSec, snap.diskIo.writeBytesPerSec, snap.network.rxBytesPerSec,
    snap.network.txBytesPerSec]

theorem diskMetrics_accepted {d : DiskInfo} {m : String × F64} (h : m ∈ diskMetrics d)
    (hb : BytesTyped m.1) : Accepted m.2 := by
  have hpercent : ¬ BytesTyped "disk.percent" := by decide
  simp only [diskMetrics, List.mem_cons, List.not_mem_nil, or_false] at h
  rcases h with rfl | rfl | rfl
  · exact accepted_num.mpr (gibToBytes_le _)
  · exact accepted_num.mpr (gibToBytes_le _)
  · exact absurd hb hpercent

theorem not_bytesTyped_of_mem_cpuMetrics {cpu : Cpu} {m : String × F64} (h : m ∈ cpuMetrics cpu) :
    ¬ BytesTyped m.1 := by
  have hall : ∀ name ∈ ["cpu.usage", "cpu.freq_mhz", "cpu.load_1m", "cpu.load_5m", "cpu.load_15m",
      "cpu.temp_c"], ¬ BytesTyped name := by decide
  refine hall _ ?_
  unfold cpuMetrics at h
  grind

/-- The byte counts without a dimension are the clamped sizes of the memory, and the rates. -/
theorem hostMetrics_accepted (snap : Snapshot) :
    (∀ kv ∈ hostMetrics snap, BytesTyped kv.1 → Accepted kv.2) ↔
      ∀ n ∈ byteRates snap, n ≤ bytesCeiling := by
  have hcpu : ∀ kv ∈ cpuMetrics snap.cpu, BytesTyped kv.1 → Accepted kv.2 := fun kv h hb =>
    absurd hb (not_bytesTyped_of_mem_cpuMetrics h)
  have hmem := fun value => accepted_num.mpr (gibToBytes_le value)
  have hsize : BytesTyped "mem.total_bytes" ∧ BytesTyped "mem.used_bytes" ∧
      BytesTyped "mem.free_bytes" := by decide
  have hother : ¬ BytesTyped "mem.percent" ∧ ¬ BytesTyped "disk.io.read_iops" ∧
      ¬ BytesTyped "disk.io.write_iops" := by decide
  have hrate : BytesTyped "disk.io.read_bytes_per_s" ∧ BytesTyped "disk.io.write_bytes_per_s" ∧
      BytesTyped "net.rx_bytes_per_s" ∧ BytesTyped "net.tx_bytes_per_s" := by decide
  unfold hostMetrics byteRates
  rw [List.forall_mem_append, and_iff_right hcpu]
  simp only [List.forall_mem_cons, List.not_mem_nil, hsize, hother, hrate, hmem, accepted_num,
    forall_const, false_imp_iff, implies_true, true_and, and_true]

/-- **Only the rates of a snapshot can pass the ceiling.** -/
theorem flatten_accepted_iff (snap : Snapshot) :
    (∀ kv ∈ flatten snap, BytesTyped (splitKey kv.1).1 → Accepted kv.2) ↔
      ∀ n ∈ byteRates snap, n ≤ bytesCeiling := by
  rw [← hostMetrics_accepted]
  constructor
  · intro h kv hk hb
    refine h kv (mem_flatten.mpr (.inl hk)) ?_
    rwa [splitKey_of_mem_hostMetrics hk]
  · intro h kv hk hb
    rcases mem_flatten.mp hk with hk | ⟨d, -, hk⟩
    · rw [splitKey_of_mem_hostMetrics hk] at hb
      exact h kv hk hb
    · obtain ⟨-, m, hm, rfl⟩ := mem_diskWrites.mp hk
      rw [splitKey_dimKey (noPipe_of_mem_diskMetrics hm)] at hb
      exact diskMetrics_accepted (m := m) hm hb

/-- **When a round respects the ceiling**: exactly when its rates do. -/
theorem within_ceiling_iff (r : Round) :
    (∀ f ∈ r.frames, f.WithinCeiling) ↔ ∀ n ∈ byteRates r.snap, n ≤ bytesCeiling := by
  rw [← flatten_accepted_iff]
  constructor
  · exact fun h => h r.samples List.mem_cons_self
  · intro h f hf
    rcases List.mem_cons.mp hf with rfl | hf
    · exact h
    · rcases List.mem_append.mp hf with hf | hf
      · split at hf
        · cases hf
        · rw [List.mem_singleton.mp hf]
          intro i hi
          obtain ⟨p, -, rfl⟩ := List.mem_map.mp hi
          exact Round.memBytes_le p
      · split at hf
        · cases hf
        · rw [List.mem_singleton.mp hf]
          exact trivial

/-- A host that receives one byte per second more than the ceiling. -/
def fastLink : Round := ⟨0, { Snapshot.default with network := ⟨2 ^ 41 + 1, 0⟩ }, 0⟩

theorem fastLink_past_ceiling :
    ("net.rx_bytes_per_s", num (2 ^ 41 + 1)) ∈ flatten fastLink.snap ∧
      ¬ ∀ f ∈ fastLink.frames, f.WithinCeiling := by
  refine ⟨mem_flatten.mpr (.inl (by simp [hostMetrics, fastLink])), fun h => ?_⟩
  have hall := (flatten_accepted_iff fastLink.snap).mp (h fastLink.samples List.mem_cons_self)
  exact absurd (hall (2 ^ 41 + 1) (by simp [byteRates, fastLink])) (by decide)

end Vigil.Hub
