import Vigil.Lib.Register
import Vigil.Sampler.Task

/-!
# Publication

The four slots are stored one after the other, in `CachedJson::publish` and in
the tick task, but without an await point between the stores. `publication_atomic`
says that no reader sees them apart: in every state of every run the slots hold
the three payloads and the snapshot of the last successful refresh, and what a
client reads, through whatever endpoints, never goes back to an older one.
-/

namespace Vigil

open Vigil.Lib Vigil.Metrics

structure ToVec.Total (ser : ToVec) : Prop where
  httpView : ∀ v, (ser.httpView v).isSome
  wsView : ∀ v, (ser.wsView v).isSome
  networkView : ∀ v, (ser.networkView v).isSome

/-- What an endpoint serves of a snapshot. -/
def Endpoint.serves (ser : ToVec) (snap : Snapshot) : Endpoint → Content → Prop
  | system, .bytes b => ser.httpView snap.httpView = some b
  | connect, .bytes b => ser.wsView snap.wsView = some b
  | network, .bytes b => ser.networkView snap.networkView = some b
  | hub, .snapshot s => s = snap
  | _, _ => False

/-- The content read is what its endpoint serves of the publication. -/
def Read.Shows (ser : ToVec) (r : Read) (p : Publication) : Prop :=
  r.endpoint.serves ser p.snap r.content

namespace Sampler

variable {strategy : PanicStrategy} {ser : ToVec} {seed first : Reading} {s s' : Sampler}

def SlotsShow (ser : ToVec) (s : Sampler) (snap : Snapshot) : Prop :=
  ∀ e : Endpoint, e.serves ser snap (s.load e)

def SameSlots (s s' : Sampler) : Prop := s'.json = s.json ∧ s'.snapshot = s.snapshot

theorem SameSlots.load (h : SameSlots s s') (e : Endpoint) : s'.load e = s.load e := by
  cases e <;> simp [Sampler.load, h.1, h.2]

theorem slotsShow_publish (ht : ser.Total) (json : CachedJson) (snap : Snapshot)
    (h : s.json = json.publish ser snap ∧ s.snapshot = snap) : s.SlotsShow ser snap := by
  have hget : ∀ {o : Option ByteArray} (d : ByteArray), o.isSome → o = some (o.getD d) := by
    intro o d ho
    obtain ⟨b, rfl⟩ := Option.isSome_iff_exists.mp ho
    rfl
  intro e
  cases e with
  | system => simp only [load, h.1]; exact hget _ (ht.httpView _)
  | connect => simp only [load, h.1]; exact hget _ (ht.wsView _)
  | network => simp only [load, h.1]; exact hget _ (ht.networkView _)
  | hub => exact h.2

/-- What a step does to the slots: it leaves them alone, or the task takes back a successful refresh
and all four get its snapshot. -/
theorem slots_step {e : SamplerEvent} (h : s.step strategy ser e = some s') :
    (SameSlots s s' ∧ s'.published = s.published) ∨
      ∃ snap st, s.task = .joining (some (snap, st)) ∧ s' = s.publish ser snap st := by
  have hpanic : SameSlots s (s.panic strategy) ∧ (s.panic strategy).published = s.published := by
    cases strategy <;> exact ⟨⟨rfl, rfl⟩, rfl⟩
  cases (step_moves h).2 with
  | joined snap st ht => exact .inr ⟨snap, st, ht, rfl⟩
  | expect | rebuildPanics => exact .inl hpanic
  | wake | refreshed | failed | abort | rebuilt | stop | read => exact .inl ⟨⟨rfl, rfl⟩, rfl⟩

theorem reads_step {e : SamplerEvent} (h : s.step strategy ser e = some s') :
    s'.reads = s.reads ∨ ∃ client ep, s'.reads = s.reads ++
      [⟨client, ep, s.load ep, s.published.length - 1⟩] ∧ s'.published = s.published := by
  cases (step_moves h).2 with
  | read client ep => exact .inr ⟨client, ep, rfl, rfl⟩
  | expect | rebuildPanics => cases strategy <;> exact .inl rfl
  | wake | refreshed | joined | failed | abort | rebuilt | stop => exact .inl rfl

/-- The slots show the last publication. -/
def Current (ser : ToVec) (s : Sampler) : Prop :=
  ∃ p, s.published.getLast? = some p ∧ s.SlotsShow ser p.snap

theorem current_step (ht : ser.Total) {e : SamplerEvent} (hc : s.Current ser)
    (h : s.step strategy ser e = some s') : s'.Current ser := by
  rcases slots_step h with ⟨hs, hp⟩ | ⟨snap, st, -, rfl⟩
  · obtain ⟨p, hl, hshow⟩ := hc
    refine ⟨p, by rw [hp, hl], fun ep => ?_⟩
    rw [hs.load]
    exact hshow ep
  · exact ⟨⟨snap, s.life⟩, by simp [publish], slotsShow_publish ht s.json snap ⟨rfl, rfl⟩⟩

def ReadsInOrder (ser : ToVec) (s : Sampler) : Prop :=
  InOrder Read.version (Read.Shows ser) s.published s.reads

theorem readsInOrder_step {e : SamplerEvent} (hc : s.Current ser) (hi : s.ReadsInOrder ser)
    (h : s.step strategy ser e = some s') : s'.ReadsInOrder ser := by
  unfold ReadsInOrder at *
  rcases reads_step h with hr | ⟨client, ep, hr, hp⟩
  · rw [hr]
    rcases slots_step h with ⟨-, hp⟩ | ⟨snap, st, -, rfl⟩
    · rwa [hp]
    · exact hi.write [_]
  · obtain ⟨p, hl, hshow⟩ := hc
    rw [hr, hp]
    have hne : s.published ≠ [] := by
      intro hn
      rw [hn] at hl
      cases hl
    have hpos := List.length_pos_of_ne_nil hne
    refine hi.read (a := p) ?_ ?_ (hshow ep)
    · dsimp only
      omega
    · dsimp only
      rw [← List.getLast?_eq_getElem?, hl]

theorem current_of_reaches (ht : ser.Total) {es : List SamplerEvent}
    (hr : (sampler strategy ser seed first).Reaches es s) : s.Current ser :=
  hr.inv (P := Current ser) ⟨_, rfl, slotsShow_publish ht CachedJson.new _ ⟨rfl, rfl⟩⟩
    fun _ _ _ hc hs => current_step ht hc hs

theorem readsInOrder_of_reaches (ht : ser.Total) {es : List SamplerEvent}
    (hr : (sampler strategy ser seed first).Reaches es s) : s.ReadsInOrder ser :=
  hr.hist (P := fun _ s => s.ReadsInOrder ser)
    (InOrder.nil : ReadsInOrder ser (sampler strategy ser seed first).init)
    fun _ _ _ _ h hi hs => readsInOrder_step (current_of_reaches ht h) hi hs

def readsOf (s : Sampler) (client : Nat) : List Read := s.reads.filter (·.client = client)

end Sampler

/-- **Publication is atomic and monotone.** In every state of every run all four slots show the
snapshot of the last successful refresh; a step publishes all four or leaves all four alone; and the
reads of a client never go back to an older publication. -/
theorem publication_atomic {strategy : PanicStrategy} {ser : ToVec} {seed first : Reading}
    (ht : ser.Total) {es : List SamplerEvent} {s : Sampler}
    (hr : (sampler strategy ser seed first).Reaches es s) :
    (∃ p, s.published.getLast? = some p ∧ s.SlotsShow ser p.snap) ∧
      (∀ e s', s.step strategy ser e = some s' →
        (Sampler.SameSlots s s' ∧ s'.published = s.published) ∨
          ∃ snap st, s.task = .joining (some (snap, st)) ∧ s'.SlotsShow ser snap ∧
            s'.published = s.published ++ [⟨snap, s.life⟩]) ∧
      ∀ client, InOrder Read.version (Read.Shows ser) s.published (s.readsOf client) := by
  have hreads := Sampler.readsInOrder_of_reaches ht hr
  refine ⟨Sampler.current_of_reaches ht hr, fun e s' hs => ?_,
    fun client => hreads.sublist List.filter_sublist⟩
  rcases Sampler.slots_step hs with h | ⟨snap, st, htask, rfl⟩
  · exact .inl h
  · exact .inr ⟨snap, st, htask, Sampler.slotsShow_publish ht s.json snap ⟨rfl, rfl⟩, rfl⟩

/-! ## A quiet host -/

/-- What `serde_json` makes of the snapshots of a quiet host. -/
def quietToVec : ToVec :=
  let cpu := "\"cpu\":\x7b\"usage\":0.0,\"temp\":0,\"freq\":0.0,\"cores\":0,\"load\":null\x7d,"
  let space := "\x7b\"total\":0.0,\"used\":0.0,\"free\":0.0,\"percent\":0.0\x7d,"
  let io := "\"disk_io\":\x7b\"read_bytes_per_sec\":0,\"write_bytes_per_sec\":0," ++
    "\"read_iops\":0,\"write_iops\":0\x7d,"
  let net := "\"network\":\x7b\"rx_bytes_per_sec\":0,\"tx_bytes_per_sec\":0\x7d,"
  let platform := "\"user\":\"root\",\"platform\":\x7b\"distro\":\"unknown\"," ++
    "\"kernel\":\"\",\"uptime\":\"\"\x7d,"
  let processes := "\"processes\":[],\"processes_metric\":\"rss\",\"processes_by_cpu\":[]\x7d"
  let head := "\x7b" ++ cpu ++ "\"mem\":" ++ space ++ "\"disk\":" ++ space
  { httpView := fun _ => some (head ++ "\"disks\":[]," ++ io ++ net ++ platform ++ processes).toUTF8
    wsView := fun _ => some (head ++ io ++ net ++ "\"uptime\":\"\"," ++ processes).toUTF8
    networkView := fun _ => some "\x7b\"interfaces\":[],\"statistics\":\x7b\x7d\x7d".toUTF8 }

theorem quietToVec_total : quietToVec.Total := ⟨fun _ => rfl, fun _ => rfl, fun _ => rfl⟩

/-- A tick whose refresh panics, between two that succeed, with readers all along. -/
def failedTick : List SamplerEvent :=
  [.read 0 .system, .wake, .refreshed .quiet, .read 1 .hub, .joined, .read 0 .connect, .wake,
    .refreshPanics ⟨some "root", some "unknown", some false⟩, .read 1 .network, .rebuilt .quiet,
    .wake, .refreshed .quiet, .joined, .read 0 .network]

theorem publication_atomic_failedTick :
    ∃ s, (sampler .unwind quietToVec .quiet .quiet).Reaches failedTick s ∧
      s.published.length = 3 ∧
      (∃ p, s.published.getLast? = some p ∧ s.SlotsShow quietToVec p.snap) := by
  have hrun : ∃ s, (sampler .unwind quietToVec .quiet .quiet).Reaches failedTick s ∧
      s.published.length = 3 := by
    with_unfolding_all exact ⟨_, rfl, rfl⟩
  obtain ⟨s, hr, hl⟩ := hrun
  exact ⟨s, hr, hl, (publication_atomic quietToVec_total hr).1⟩

end Vigil
