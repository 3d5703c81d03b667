import Vigil.Lib.Map
import Vigil.Lib.Text
import Vigil.Metrics.Host

/-!
# Network

The collectors of `net.rs`: throughput over all interfaces but the loopback,
and per-interface statistics with the drop counters of `/proc/net/dev`.
-/

namespace Vigil.Metrics

open Vigil.Lib

structure NetIoPrev where
  now : ℚ
  recv : Nat
  sent : Nat
  deriving DecidableEq

/-- The bytes received and sent over all interfaces but `lo`. -/
def netTotals (networks : List (String × NetData)) : Nat × Nat :=
  networks.foldl (fun (recv, sent) (name, data) =>
    if name = "lo" then (recv, sent)
    else (satAdd recv data.received, satAdd sent data.transmitted)) (0, 0)

/-- The interfaces that are summed. -/
def summed (networks : List (String × NetData)) : List (String × NetData) :=
  networks.filter (·.1 ≠ "lo")

/-- The report, and the baseline left behind. -/
def collectThroughput (networks : List (String × NetData)) (prev : Option NetIoPrev) (now : ℚ) :
    Throughput × Option NetIoPrev :=
  let (recv, sent) := netTotals networks
  let next := some ⟨now, recv, sent⟩
  match prev with
  | none => (.default, next)
  | some last =>
    let elapsed := max (now - last.now) 0
    if elapsed ≤ 0 then (.default, next)
    else
      (⟨intToU64 (roundHalfAway ((recv - last.recv : Nat) / elapsed)),
        intToU64 (roundHalfAway ((sent - last.sent : Nat) / elapsed))⟩, next)

/-- The baseline is the reading itself, whatever is reported. -/
theorem collectThroughput_snd (networks : List (String × NetData)) (prev : Option NetIoPrev)
    (now : ℚ) : (collectThroughput networks prev now).2 =
      some ⟨now, (netTotals networks).1, (netTotals networks).2⟩ := by
  unfold collectThroughput
  cases prev with
  | none => rfl
  | some last =>
    dsimp only
    split <;> rfl

def interfaceNames (networks : List (String × NetData)) : List String := networks.map Prod.fst

/-- The rows of `/proc/net/dev`: interface, receive drops, transmit drops. -/
def readProcNetDrops (r : Reading) : Option (List (String × Nat × Nat)) :=
  r.netDev.map fun raw =>
    ((Text.lines raw.toList).drop 2).foldl (fun out line =>
      match Text.splitOnce ':' line with
      | none => out
      | some (iface, rest) =>
        let cols := Text.splitWhitespace rest
        let num i := (Text.parseU64 (cols.getD i [])).getD 0
        if 12 ≤ cols.length then Map.insert (String.ofList (Text.trim iface)) (num 3, num 11) out
        else out) []

/-- Write the drops of an interface into its entry, if it has one. -/
def setDrops (out : List (String × NetIfaceStats)) (drop : String × Nat × Nat) :
    List (String × NetIfaceStats) :=
  out.map fun (name, s) =>
    if name = drop.1 then (name, { s with dropin := drop.2.1, dropout := drop.2.2 }) else (name, s)

def statistics (r : Reading) (networks : List (String × NetData)) :
    List (String × NetIfaceStats) :=
  let out := networks.foldl (fun out (name, d) =>
    Map.insert name
      { mbSent := .fin (d.transmitted / (1024 * 1024))
        mbReceived := .fin (d.received / (1024 * 1024))
        pkSent := d.packetsTransmitted
        pkReceived := d.packetsReceived
        errorIn := d.errorsOnReceived
        errorOut := d.errorsOnTransmitted
        dropin := 0
        dropout := 0 } out) []
  match readProcNetDrops r with
  | some drops => drops.foldl setDrops out
  | none => out

/-! ## Which interfaces take part -/

/-- One total is the saturating sum of a counter over the interfaces that are summed. -/
theorem netTotals_eq (networks : List (String × NetData)) :
    netTotals networks =
      (min ((summed networks).map (·.2.received)).sum u64Max,
        min ((summed networks).map (·.2.transmitted)).sum u64Max) := by
  have hfold : ∀ (l : List (String × NetData)) (a b : Nat),
      l.foldl (fun (recv, sent) (name, data) =>
        if name = "lo" then (recv, sent)
        else (satAdd recv data.received, satAdd sent data.transmitted)) (a, b) =
      (((summed l).map (·.2.received)).foldl satAdd a,
        ((summed l).map (·.2.transmitted)).foldl satAdd b) := by
    intro l
    induction l with
    | nil => exact fun _ _ => rfl
    | cons n ns ih =>
      intro a b
      rw [List.foldl_cons]
      dsimp only
      by_cases h : n.1 = "lo"
      · rw [if_pos h, ih, show summed (n :: ns) = summed ns by simp [summed, h]]
      · rw [if_neg h, ih, show summed (n :: ns) = n :: summed ns by simp [summed, h]]
        rfl
  rw [netTotals, hfold, foldl_satAdd_zero, foldl_satAdd_zero]

@[simp] theorem interfaceNames_refreshNetworks (networks : List (String × NetData)) (r : Reading) :
    interfaceNames (refreshNetworks networks r) = interfaceNames networks := by
  simp [interfaceNames, refreshNetworks]

@[simp] theorem interfaceNames_listNetworks (r : Reading) :
    interfaceNames (listNetworks r) = r.interfaces := by
  rw [interfaceNames, listNetworks, List.map_map]
  exact List.map_id _

theorem mem_summed_names {name : String} {networks : List (String × NetData)} :
    name ∈ interfaceNames (summed networks) ↔ name ∈ interfaceNames networks ∧ name ≠ "lo" := by
  simp [interfaceNames, summed]

theorem setDrops_names (out : List (String × NetIfaceStats)) (drop : String × Nat × Nat) :
    (setDrops out drop).map Prod.fst = out.map Prod.fst := by
  rw [setDrops, List.map_map]
  apply List.map_congr_left
  rintro ⟨name, s⟩ -
  show Prod.fst (if name = drop.1 then _ else _) = name
  split <;> rfl

/-- `statistics` has one entry for each listed interface; the drop counters add none. -/
theorem mem_statistics {name : String} {r : Reading} {networks : List (String × NetData)} :
    name ∈ (statistics r networks).map Prod.fst ↔ name ∈ interfaceNames networks := by
  have hdrops : ∀ (drops : List (String × Nat × Nat)) (out : List (String × NetIfaceStats)),
      (drops.foldl setDrops out).map Prod.fst = out.map Prod.fst := by
    intro drops
    induction drops with
    | nil => exact fun _ => rfl
    | cons d ds ih => exact fun out => (ih _).trans (setDrops_names out d)
  have hdrop : ∀ out : List (String × NetIfaceStats),
      name ∈ (match readProcNetDrops r with
        | some drops => drops.foldl setDrops out
        | none => out).map Prod.fst ↔ name ∈ out.map Prod.fst := by
    intro out
    split
    · rw [hdrops]
    · exact Iff.rfl
  rw [statistics, hdrop, Map.mem_keys_foldl fun _ _ => Map.mem_keys_insert]
  simp [interfaceNames]

end Vigil.Metrics
