import Vigil.Metrics.Range
import Vigil.Sampler.Interfaces
import Vigil.Sampler.Invariant

/-!
# What a client decodes

From the readings of the host to what a client makes of a response: every
published snapshot is in the range of its types (`refreshInv_inRange`), so its
payloads read back, and whatever slot a client loads at whatever time it decodes
the projection of one publication (`reads_decode`).
-/

namespace Vigil

open Vigil.Lib Vigil.Metrics

namespace SamplerState

variable (st : SamplerState) (g : Statics) (r : Reading)

theorem refresh_cores :
    (st.refresh g r).1.cpu.cores = st.cores ∧ (st.refresh g r).2.1.cores = st.cores := by
  have h : (((st.refreshCounters r).scanPhase g r).1.listPhase r).cores = st.cores := by
    unfold listPhase scanPhase
    split <;> split <;> rfl
  exact ⟨h, h⟩

/-- The numbers a state keeps for later snapshots are in range. -/
structure InRange (st : SamplerState) : Prop where
  cores : st.cores < 2 ^ 32
  processes : ∀ p ∈ st.cachedProcesses, p.pid < 2 ^ 32
  processesByCpu : ∀ p ∈ st.cachedProcessesByCpu, p.pid < 2 ^ 32

end SamplerState

structure ProcessScan.InRange (s : ProcessScan) : Prop where
  processes : ∀ p ∈ s.processes, p.pid < 2 ^ 32
  byCpu : ∀ p ∈ s.byCpu, p.pid < 2 ^ 32

/-- What a refresh reads in range, it publishes in range. -/
theorem refreshInv_inRange : RefreshInv Reading.InRange (fun _ st => st.InRange)
    (fun _ snap => snap.InRange) where
  new _ r hr := ⟨hr.cores, nofun, nofun⟩
  refresh st g r hst hr := by
    have hs := st.refresh_spec g r
    have hcores := st.refresh_cores g r
    have hscan : (st.refresh g r).2.1.cached.InRange := by
      rw [hs.cached]
      split
      · exact ⟨collectTop_pid_lt hr.pids, collectTopCpu_pid_lt hr.pids⟩
      · exact ⟨hst.processes, hst.processesByCpu⟩
    have hstats : ∀ kv ∈ (st.refresh g r).1.networkStats, NetIfaceStats.codec.Fits kv.2 := by
      rw [st.refresh_networkStats g r]
      refine statistics_fits fun n hn => ?_
      rw [st.refresh_networks g r] at hn
      obtain ⟨m, -, rfl⟩ := List.mem_map.mp hn
      exact hr.netData m.1
    refine ⟨⟨hcores.2 ▸ hst.cores, hscan.processes, hscan.byCpu⟩, ?_⟩
    have hsnap : (st.refresh g r).1.scan.InRange := hs.scan ▸ hscan
    exact ⟨hcores.1 ▸ hst.cores, collectIo_fits _ _, collectThroughput_fits _ _ _, hsnap.processes,
      hsnap.byCpu, hstats⟩
  mono_state _ _ _ _ h := h
  mono_snap _ _ _ _ h := h

/-- **Every publication is in range.** -/
theorem published_inRange {strategy : PanicStrategy} {ser : ToVec} {seed first : Reading}
    (hseed : seed.InRange) (hfirst : first.InRange) {es : List SamplerEvent}
    (hes : ∀ e ∈ es, e.Reads Reading.InRange) {s : Sampler}
    (hr : (sampler strategy ser seed first).Reaches es s) : ∀ p ∈ s.published, p.snap.InRange :=
  published_of refreshInv_inRange hseed hfirst hes hr

/-! ## Decoding -/

/-- `parse` reads what `ser` prints of a snapshot as the values that were printed. -/
structure ToVec.ReadBy (ser : ToVec) (parse : ByteArray → Option Json) (snap : Snapshot) :
    Prop where
  httpView : ∀ b, ser.httpView snap.httpView = some b →
    parse b = some (HttpSystemView.codec.enc snap.httpView)
  wsView : ∀ b, ser.wsView snap.wsView = some b →
    parse b = some (WsSystemView.codec.enc snap.wsView)
  networkView : ∀ b, ser.networkView snap.networkView = some b →
    parse b = some (NetworkView.codec.enc snap.networkView)

/-- A client of the endpoint makes its projection of `snap` of the content. -/
def Endpoint.Delivers (parse : ByteArray → Option Json) (snap : Snapshot) :
    Endpoint → Content → Prop
  | system, .bytes b => (parse b).bind HttpSystemView.codec.dec = some snap.wire.httpView
  | connect, .bytes b => (parse b).bind WsSystemView.codec.dec = some snap.wire.wsView
  | network, .bytes b => (parse b).bind NetworkView.codec.dec = some snap.wire.networkView
  | hub, .snapshot s => s = snap
  | _, _ => False

theorem delivers_of_serves {ser : ToVec} {parse : ByteArray → Option Json} {snap : Snapshot}
    (hp : ser.ReadBy parse snap) (hs : snap.InRange) {e : Endpoint} {content : Content}
    (h : e.serves ser snap content) : e.Delivers parse snap content := by
  cases e <;> cases content <;> simp only [Endpoint.serves] at h <;> simp only [Endpoint.Delivers]
  · rw [hp.httpView _ h, Option.bind_some, HttpSystemView.codec.dec_enc _ hs.httpView_fits,
      Snapshot.httpView_wire]
  · rw [hp.wsView _ h, Option.bind_some, WsSystemView.codec.dec_enc _ hs.wsView_fits,
      Snapshot.wsView_wire]
  · rw [hp.networkView _ h, Option.bind_some, NetworkView.codec.dec_enc _ hs.networkView_fits,
      Snapshot.networkView_wire]
  · exact h

/-- **What clients decode.** In every run over readings in range, each load of a slot decodes to the
projection of the publication it is tagged with, and what a load now would decode to is that of the
last one. -/
theorem reads_decode {strategy : PanicStrategy} {ser : ToVec} {seed first : Reading}
    {parse : ByteArray → Option Json} (ht : ser.Total) (hseed : seed.InRange)
    (hfirst : first.InRange) {es : List SamplerEvent} (hes : ∀ e ∈ es, e.Reads Reading.InRange)
    {s : Sampler} (hr : (sampler strategy ser seed first).Reaches es s)
    (hp : ∀ p ∈ s.published, ser.ReadBy parse p.snap) :
    (∀ r ∈ s.reads, ∃ p, s.published[r.version]? = some p ∧
      r.endpoint.Delivers parse p.snap r.content) ∧
    ∃ p, s.published.getLast? = some p ∧ ∀ e : Endpoint, e.Delivers parse p.snap (s.load e) := by
  have hrange := published_inRange hseed hfirst hes hr
  constructor
  · intro r hmem
    obtain ⟨q, hq, hs⟩ := (Sampler.readsInOrder_of_reaches ht hr).valid r hmem
    have hq' := List.mem_of_getElem? hq
    exact ⟨q, hq, delivers_of_serves (hp q hq') (hrange q hq') hs⟩
  · obtain ⟨p, hl, hshow⟩ := Sampler.current_of_reaches ht hr
    have hp' := List.mem_of_getLast? hl
    exact ⟨p, hl, fun e => delivers_of_serves (hp p hp') (hrange p hp') (hshow e)⟩

/-! ## A quiet host -/

def quietSnapshot : Snapshot := ((SamplerState.new .quiet).refresh .uninit .quiet).1

/-- A JSON parser on the three payloads of `snap`. -/
def parserOf (ser : ToVec) (snap : Snapshot) (b : ByteArray) : Option Json :=
  let is (o : Option ByteArray) := o.map ByteArray.data = some b.data
  if is (ser.httpView snap.httpView) then some (HttpSystemView.codec.enc snap.httpView)
  else if is (ser.wsView snap.wsView) then some (WsSystemView.codec.enc snap.wsView)
  else if is (ser.networkView snap.networkView) then
    some (NetworkView.codec.enc snap.networkView)
  else none

theorem map_data_eq {o : Option ByteArray} {b : ByteArray} :
    o.map ByteArray.data = some b.data ↔ o = some b := by
  cases o with
  | none => simp
  | some a => simp [ByteArray.ext_iff]

theorem parserOf_readBy {ser : ToVec} {snap : Snapshot}
    (hhw : ser.httpView snap.httpView ≠ ser.wsView snap.wsView)
    (hhn : ser.httpView snap.httpView ≠ ser.networkView snap.networkView)
    (hwn : ser.wsView snap.wsView ≠ ser.networkView snap.networkView) :
    ser.ReadBy (parserOf ser snap) snap where
  httpView b hb := by simp only [parserOf, map_data_eq, if_pos hb]
  wsView b hb := by simp only [parserOf, map_data_eq, if_neg (hb ▸ hhw), if_pos hb]
  networkView b hb := by
    simp only [parserOf, map_data_eq, if_neg (hb ▸ hhn), if_neg (hb ▸ hwn), if_pos hb]

theorem quiet_readBy : quietToVec.ReadBy (parserOf quietToVec quietSnapshot) quietSnapshot :=
  parserOf_readBy (by decide +kernel) (by decide +kernel) (by decide +kernel)

theorem reads_decode_failedTick :
    ∃ s, (sampler .unwind quietToVec .quiet .quiet).Reaches failedTick s ∧ s.reads.length = 5 ∧
      ∀ r ∈ s.reads, ∃ p, s.published[r.version]? = some p ∧
        r.endpoint.Delivers (parserOf quietToVec quietSnapshot) p.snap r.content := by
  have hrun : ∃ s, (sampler .unwind quietToVec .quiet .quiet).Reaches failedTick s ∧
      s.reads.length = 5 ∧ s.published.map Publication.snap = List.replicate 3 quietSnapshot := by
    with_unfolding_all exact ⟨_, rfl, rfl, rfl⟩
  obtain ⟨s, hr, hl, hsnaps⟩ := hrun
  have hquiet := Reading.quiet_inRange
  have hes : ∀ e ∈ failedTick, e.Reads Reading.InRange := by
    simp [failedTick, SamplerEvent.Reads, hquiet]
  refine ⟨s, hr, hl, (reads_decode quietToVec_total hquiet hquiet hes hr fun p hp => ?_).1⟩
  have hp' : p.snap ∈ s.published.map Publication.snap := List.mem_map_of_mem hp
  rw [hsnaps] at hp'
  rw [List.eq_of_mem_replicate hp']
  exact quiet_readBy

end Vigil
