import Vigil.Hub.Supervise
import Vigil.Lib.Progress

/-!
# Getting through again

Connections fail, hubs refuse, sends break, and the task goes on. `hub_recovers`
says that none of it lasts: from whatever state a run has come to, as soon as the
network carries what it is given and the hub accepts, five completed connections,
sends and sleeps later the hub has the samples of a publication at least as new as
the one that was then in the slot.
-/

namespace Vigil.Hub

open Vigil.Lib

def Serde.Total (j : Serde) : Prop := ∀ f, ∃ u, j.toString f = .ok u

/-- The network and the hub do their part: connections and sends succeed, the first message is an
acceptable welcome, and no later one ends the session. -/
def Cooperates (c : Client) (h : Task) : HubEvent → Prop
  | .wire (.recv m _) => ∀ k, h.ctl = .connected k →
      (k.state = .awaitingWelcome → ∃ d, c.awaitWelcome m = .ok d) ∧
      (k.state ≠ .awaitingWelcome → ¬ m.Ends)
  | .connectFailed _ | .wire (.sendFailed _ _) | .wire .stopped | .stop => False
  | .publish _ | .connected | .wire .sent | .wire (.slept _) | .backoffOver => True

/-- A connection, a send or a sleep is completed. -/
def HubEvent.isCompletion : HubEvent → Bool
  | .connected | .wire .sent | .wire (.slept _) | .backoffOver => true
  | .publish _ | .connectFailed _ | .stop => false
  | .wire (.sendFailed _ _) | .wire (.recv _ _) | .wire .stopped => false

/-- The completions before the one that gets samples of publication `n` through. -/
def ConnState.toGo (n : Nat) : ConnState → Nat
  | sending _ .samples _ r => if n ≤ r.version then 0 else 4
  | sending _ .processes _ _ => 3
  | sending _ .processesCpu _ _ => 2
  | hello | draining _ => 1
  | awaitingWelcome | done _ | panicked => 0

def Task.toGo (n : Nat) (h : Task) : Nat :=
  match h.ctl with
  | .waiting => 3
  | .connecting => 2
  | .connected k => k.state.toGo n
  | .stopped | .dead => 0

/-- Samples of publication `n` or a later one have been written on the connection. -/
def Conn.Told (n : Nat) (k : Conn) : Prop := ∃ r ∈ k.rounds, n ≤ r.version ∧ r.samples ∈ k.frames

def Task.Told (n : Nat) (h : Task) : Prop := ∃ k ∈ h.conns, k.Told n

/-! ## One connection -/

variable {c : Client}

theorem emit_total (ht : c.serde.Total) (f : Frame) (stage : Stage) (d : Duration) (r : Round) :
    emit c f stage d r = .sending f stage d r := by
  obtain ⟨u, hu⟩ := ht f
  rw [emit, hu]

theorem toGo_afterProcesses (ht : c.serde.Total) (n : Nat) (d : Duration) (r : Round) :
    ¬ (afterProcesses c d r).IsOver ∧ (afterProcesses c d r).toGo n ≤ 2 := by
  unfold afterProcesses
  split
  · exact ⟨id, by simp [ConnState.toGo]⟩
  · rw [Round.buildProcessesCpu_eq]
    dsimp only
    rw [emit_total ht]
    exact ⟨id, le_refl 2⟩

theorem toGo_afterSamples (ht : c.serde.Total) (n : Nat) (d : Duration) (r : Round) :
    ¬ (afterSamples c d r).IsOver ∧ (afterSamples c d r).toGo n ≤ 3 := by
  unfold afterSamples
  split
  · obtain ⟨ho, hle⟩ := toGo_afterProcesses ht n d r
    exact ⟨ho, hle.trans (by norm_num)⟩
  · rw [Round.buildProcesses_eq]
    dsimp only
    rw [emit_total ht]
    exact ⟨id, le_refl 3⟩

theorem toGo_loopTop (ht : c.serde.Total) {n : Nat} (d : Duration) {r : Round}
    (hr : n ≤ r.version) : ¬ (loopTop c d r).IsOver ∧ (loopTop c d r).toGo n = 0 := by
  rw [loopTop, if_neg (flatten_ne_nil _), emit_total ht]
  exact ⟨id, if_pos hr⟩

namespace Conn

variable {k k' : Conn} {n : Nat}

/-- A send completed: the samples are through, or fewer completions are left. -/
theorem descends_sent (ht : c.serde.Total) (hi : Conn.Inv c k) (h : k.step c .sent = some k') :
    k'.Told n ∨ ¬ k'.state.IsOver ∧ k'.state.toGo n + 1 ≤ k.state.toGo n := by
  cases step_moves h with
  | helloSent hs => exact .inr ⟨id, by rw [hs]; exact le_refl 1⟩
  | sent f stage d r hs =>
    dsimp only
    rw [hs]
    cases stage with
    | samples =>
      by_cases hn : n ≤ r.version
      · left
        cases hi with
        | pushing st m ms rs r' w _ _ hf _ =>
          obtain rfl : st = .sending f .samples d r := hs
          obtain ⟨rfl, -, rfl, -⟩ := hf
          exact ⟨r, by simp, hn, by simp [Round.frameOf]⟩
        | hello | awaiting => cases hs
        | ended _ ho => rw [hs] at ho; exact ho.elim
      · right
        obtain ⟨ho, hle⟩ := toGo_afterSamples ht n d r
        refine ⟨ho, ?_⟩
        rw [ConnState.toGo, if_neg hn]
        exact Nat.succ_le_succ hle
    | processes =>
      obtain ⟨ho, hle⟩ := toGo_afterProcesses ht n d r
      exact .inr ⟨ho, Nat.succ_le_succ hle⟩
    | processesCpu => exact .inr ⟨id, le_refl 2⟩

theorem descends (ht : c.serde.Total) (hi : Conn.Inv c k) {h : Task} (hc : h.ctl = .connected k)
    (hn : n ≤ h.earlier.length) {w : Wire} (hco : Cooperates c h (.wire w))
    (hs : k.step c (w.at h.round) = some k') :
    k'.Told n ∨ ¬ k'.state.IsOver ∧
      k'.state.toGo n + (HubEvent.wire w).isCompletion.toNat ≤ k.state.toGo n := by
  cases w with
  | sent => exact descends_sent ht hi hs
  | sendFailed | stopped => exact hco.elim
  | recv m ts =>
    obtain ⟨hfirst, hlater⟩ := hco k hc
    cases step_moves hs with
    | answered _ _ hstate =>
      obtain ⟨d, hd⟩ := hfirst hstate
      obtain ⟨ho, hgo⟩ := toGo_loopTop ht d (r := h.round ts) hn
      rw [welcome, hd]
      exact .inr ⟨ho, by simp [hgo, HubEvent.isCompletion]⟩
    | drained d _ _ hstate =>
      have hm := hlater (by rw [hstate]; exact fun h => by cases h)
      have hdrain : drain d m = .draining d := by
        match m with
        | none | some (.error _) | some (.ok .close) => exact absurd trivial hm
        | some (.ok (.text _)) | some (.ok .binary) | some (.ok .ping) | some (.ok .pong) => rfl
      dsimp only
      rw [hdrain, hstate]
      exact .inr ⟨id, le_refl 1⟩
  | slept ts =>
    cases step_moves hs with
    | slept d _ hstate =>
      obtain ⟨ho, hgo⟩ := toGo_loopTop ht d (r := h.round ts) hn
      refine .inr ⟨ho, ?_⟩
      show (loopTop c d (h.round ts)).toGo n + 1 ≤ _
      rw [hgo, hstate]
      exact le_refl 1

theorem told_step {e : ConnEvent} (ht : k.Told n) (hs : k.step c e = some k') : k'.Told n := by
  have hgrow : k.rounds <+: k'.rounds ∧ k.frames <+: k'.frames := by
    cases step_moves hs with
    | helloSent | sent => exact ⟨List.prefix_rfl, List.prefix_append _ _⟩
    | helloFailed e wrote | failed _ _ _ _ e wrote =>
      refine ⟨List.prefix_rfl, ?_⟩
      cases wrote
      · exact List.prefix_rfl
      · exact List.prefix_append _ _
    | answered m r =>
      unfold welcome
      split
      · exact ⟨List.prefix_append _ _, List.prefix_rfl⟩
      · exact ⟨List.prefix_rfl, List.prefix_rfl⟩
      · exact ⟨List.prefix_rfl, List.prefix_rfl⟩
    | slept => exact ⟨List.prefix_append _ _, List.prefix_rfl⟩
    | drained | stopped => exact ⟨List.prefix_rfl, List.prefix_rfl⟩
  obtain ⟨r, hr, hv, hf⟩ := ht
  exact ⟨r, hgrow.1.subset hr, hv, hgrow.2.subset hf⟩

end Conn

/-! ## The task -/

namespace Task

variable {h h' : Task} {n : Nat}

theorem told_step {e : HubEvent} (ht : h.Told n) (hs : h.step c e = some h') : h'.Told n := by
  obtain ⟨k, hk, hf⟩ := ht
  cases connMoves_of_step hs with
  | publish s hc _ | other hc _ => exact ⟨k, hc ▸ hk, hf⟩
  | opened hc _ => exact ⟨k, hc ▸ List.mem_append_left _ hk, hf⟩
  | moved x x' e hc hx hc' _ =>
    rcases List.mem_append.mp (hc ▸ hk) with hk | hk
    · exact ⟨k, hc' ▸ List.mem_append_left _ hk, hf⟩
    · obtain rfl := List.mem_singleton.mp hk
      exact ⟨x', hc' ▸ List.mem_append_right _ (List.mem_singleton_self x'), Conn.told_step hf hx⟩

/-- The task is at work, on publication `n` or a later one. -/
structure Live (c : Client) (n : Nat) (h : Task) : Prop where
  conns : h.ConnsInv c
  backoff : h.BackoffInv
  openNotOver : h.OpenNotOver
  atWork : h.ctl ≠ .stopped ∧ h.ctl ≠ .dead
  slot : n ≤ h.earlier.length

theorem settle_of_not_over {k : Conn} (ho : ¬ k.state.IsOver) :
    h.settle c k = { h with ctl := .connected k } := by
  unfold settle
  split
  · next hs => rw [hs] at ho; exact absurd trivial ho
  · next hs => rw [hs] at ho; exact absurd trivial ho
  · rfl

/-- **A cooperative step gets nearer.** -/
theorem descends (ht : c.serde.Total) (seed : Snapshot) (n : Nat) :
    (hub c seed).Descends (Cooperates c) HubEvent.isCompletion (Live c n) (Told n) (toGo n) := by
  intro h e h' hl hco hs
  have hconns := connsInv_step hl.conns hs
  have hback := backoffInv_step hconns hl.backoff hs
  have hopen := openNotOver_step hl.openNotOver hs
  cases step_moves hs with
  | publish s =>
    refine .inr ⟨⟨hconns, hback, hopen, hl.atWork, ?_⟩, le_refl _⟩
    simpa using Nat.le_succ_of_le hl.slot
  | refused | stop | cut => exact hco.elim
  | connected hc =>
    obtain ⟨u, hu⟩ := ht (.hello c.hello)
    have hbegin : (Conn.begin c).state = .hello := by simp [Conn.begin, hu]
    have hset := settle_of_not_over (c := c) (h := h) (k := .begin c) (by rw [hbegin]; exact id)
    rw [hset] at hconns hback hopen ⊢
    refine .inr ⟨⟨hconns, hback, hopen, ⟨Ctl.noConfusion, Ctl.noConfusion⟩, hl.slot⟩, ?_⟩
    simp [toGo, hc, hbegin, ConnState.toGo, HubEvent.isCompletion]
  | wire k k' w hc hk =>
    rcases Conn.descends ht (hl.conns k (mem_conns_connected hc)) hc hl.slot hco hk with
      htold | ⟨ho, hgo⟩
    · refine .inl ⟨k', ?_, htold⟩
      rw [conns_settle]
      exact List.mem_append_right _ (List.mem_singleton_self k')
    · rw [settle_of_not_over ho] at hconns hback hopen ⊢
      refine .inr ⟨⟨hconns, hback, hopen, ⟨Ctl.noConfusion, Ctl.noConfusion⟩, hl.slot⟩, ?_⟩
      simpa only [toGo, hc] using hgo
  | backoffOver hc =>
    have hb := hl.backoff
    unfold BackoffInv at hb
    rw [hc] at hb
    obtain ⟨hgrow, hctl⟩ := backoffInv_grow hb
    refine .inr ⟨⟨hconns, hback, hopen, by simp [hctl], by simpa using hl.slot⟩, ?_⟩
    simp [toGo, hc, hctl, HubEvent.isCompletion]

theorem toGo_le (n : Nat) (h : Task) : h.toGo n ≤ 4 := by
  unfold toGo
  split
  · norm_num
  · norm_num
  · next k _ =>
    unfold ConnState.toGo
    split
    · split <;> norm_num
    all_goals norm_num
  · norm_num
  · norm_num

end Task

/-- **The hub task recovers.** From every state that a run can reach before the task is stopped or
dead, five completions of a cooperative environment get samples to the hub that are at least as new
as the snapshot that was in the slot, and they are those of their publication. -/
theorem hub_recovers {seed : Snapshot} {es fs : List HubEvent} {h t : Task}
    (ht : c.serde.Total) (hr : (hub c seed).Reaches es h) (hs : h.ctl ≠ .stopped)
    (hd : h.ctl ≠ .dead) (hrun : (hub c seed).run h fs = some t)
    (hco : (hub c seed).Guarded (Cooperates c) h fs)
    (hn : 5 ≤ fs.countP HubEvent.isCompletion) :
    ∃ k ∈ t.conns, ∃ r ∈ k.rounds, h.earlier.length ≤ r.version ∧ r.samples ∈ k.frames ∧
      t.published[r.version]? = some r.snap := by
  have hlive : h.Live c h.earlier.length :=
    ⟨Task.connsInv_of_reaches hr, Task.backoffInv_of_reaches hr, Task.openNotOver_of_reaches hr,
      ⟨hs, hd⟩, le_refl _⟩
  obtain ⟨fs', gs, u, rfl, hu, htold⟩ := (Task.descends ht seed h.earlier.length).reaches_goal hlive
    hrun hco (Nat.lt_of_le_of_lt (Task.toGo_le _ h) hn)
  rw [Machine.run_append, hu] at hrun
  obtain ⟨k, hk, r, hrk, hv, hf⟩ := Machine.run_preserves (M := hub c seed)
    (P := Task.Told h.earlier.length) (fun _ _ _ hp hs => Task.told_step hp hs) hrun htold
  have hreach : (hub c seed).Reaches (es ++ (fs' ++ gs)) t := by
    rw [Machine.Reaches, Machine.run_append, show (hub c seed).run _ es = some h from hr,
      Option.bind_some, Machine.run_append, hu]
    exact hrun
  obtain ⟨snap, hsnap, rfl⟩ :=
    (Task.roundsInOrder_of_reaches hreach).valid r (List.mem_flatMap.mpr ⟨k, hk, hrk⟩)
  exact ⟨k, hk, r, hrk, hv, hf, hsnap⟩

/-- After the broken session of `refusedThenBroken`, a publication and a hub that accepts. -/
def afterBroken : List HubEvent :=
  [.publish .default, .backoffOver, .connected, .wire .sent,
    .wire (.recv (some (.ok (.text shortWelcome))) 7), .wire .sent, .wire (.slept 12)]

theorem hub_recovers_afterBroken :
    ∃ h t, (hub lab .default).Reaches refusedThenBroken h ∧
      (hub lab .default).run h afterBroken = some t ∧
      ∃ k ∈ t.conns, ∃ r ∈ k.rounds, h.earlier.length ≤ r.version ∧ r.samples ∈ k.frames := by
  have hrun : ∃ h t, (hub lab .default).Reaches refusedThenBroken h ∧ h.ctl = .waiting ∧
      (hub lab .default).run h afterBroken = some t := by
    with_unfolding_all exact ⟨_, _, rfl, rfl, rfl⟩
  obtain ⟨h, t, hr, hc, ht⟩ := hrun
  have hwelcome : ∃ d, lab.awaitWelcome (some (.ok (.text shortWelcome))) = .ok d := by
    with_unfolding_all exact ⟨_, rfl⟩
  have hco : ∀ e ∈ afterBroken, ∀ u, Cooperates lab u e := by
    simp only [afterBroken, List.forall_mem_cons]
    refine ⟨fun _ => trivial, fun _ => trivial, fun _ => trivial, fun _ => trivial, ?_,
      fun _ => trivial, fun _ => trivial, List.forall_mem_nil _⟩
    exact fun _ _ _ => ⟨fun _ => hwelcome, fun _ => id⟩
  obtain ⟨k, hk, r, hrk, hv, hf, -⟩ := hub_recovers (fun _ => ⟨_, rfl⟩) hr
    (by rw [hc]; exact fun h => by cases h) (by rw [hc]; exact fun h => by cases h) ht
    (Machine.guarded_of_forall hco) (by decide)
  exact ⟨h, t, hr, ht, k, hk, r, hrk, hv, hf⟩

end Vigil.Hub
