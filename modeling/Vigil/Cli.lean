import Vigil.Hub.Wire
import Vigil.Lib.Table

/-!
# The command line

What `main` makes of the hub arguments: whether there is a hub client at all, the
name it advertises, and its tags. `hello_advertises` follows the tags from the
text of `--hub-tags` to what the hub reads.
-/

namespace Vigil

open Vigil.Lib Vigil.Lib.Text

/-- The arguments that concern the hub, after clap has looked at the environment. -/
structure Cli where
  hub : Option String
  hubKey : Option String
  hubName : Option String
  hubTags : Option String

/-- What the hub client reads of its host. -/
structure HostEnv where
  gethostname : Option String
  osRelease : Option String
  arch : String
  parallelism : Option Nat
  serde : Hub.Serde

namespace Cli

variable (a : Cli)

def parseTags : List String :=
  ((((a.hubTags.getD "").toList.splitOn ',').map trim).filter (· ≠ [])).map String.ofList

def newClient (key : String) (env : HostEnv) (samplerInterval : Duration) : Hub.Client where
  key := key
  hostName := (a.hubName.filter (· ≠ "")).getD (env.gethostname.getD "unknown")
  tags := a.parseTags
  samplerInterval := samplerInterval
  gethostname := env.gethostname
  osRelease := env.osRelease
  arch := env.arch
  parallelism := env.parallelism
  serde := env.serde

/-- The hub client of `main`: only with an address and a key, both not empty. -/
def hubClient (env : HostEnv) (samplerInterval : Duration) : Option Hub.Client :=
  match a.hub, a.hubKey with
  | some url, some key =>
    if url ≠ "" ∧ key ≠ "" then some (a.newClient key env samplerInterval) else none
  | _, _ => none

end Cli

/-! ## Tags -/

/-- A tag as it is advertised: some text, with no whitespace around it and no comma in it. -/
structure IsTag (t : String) : Prop where
  ne_empty : t ≠ ""
  trimmed : trim t.toList = t.toList
  solid : ',' ∉ t.toList

namespace Cli

variable {a : Cli}

/-- The tags are the fields between the commas, trimmed, and the empty ones left out. -/
theorem parseTags_intercalate {fields : List (List Char)} (hf : ∀ f ∈ fields, ',' ∉ f)
    (ha : a.hubTags = some (String.ofList ([','].intercalate fields))) :
    a.parseTags = ((fields.map trim).filter (· ≠ [])).map String.ofList := by
  rw [parseTags, ha, Option.getD_some, String.toList_ofList]
  cases fields with
  | nil => rfl
  | cons f fields => rw [List.splitOn_intercalate ',' hf (List.cons_ne_nil _ _)]

theorem parseTags_isTag : ∀ t ∈ a.parseTags, IsTag t := by
  intro t ht
  obtain ⟨f, hf, rfl⟩ := List.mem_map.mp ht
  obtain ⟨hf, hne⟩ := List.mem_filter.mp hf
  obtain ⟨g, hg, rfl⟩ := List.mem_map.mp hf
  refine ⟨fun he => ?_, ?_, ?_⟩
  · have hnil : trim g = [] := by rw [← String.toList_ofList (l := trim g), he]; rfl
    simp [hnil] at hne
  · rw [String.toList_ofList, trim_trim]
  · rw [String.toList_ofList]
    exact fun hm => notMem_of_mem_splitOn hg ((trim_sublist g).subset hm)

/-- Advertised tags read back as they are. -/
theorem parseTags_join {ts : List String} (ht : ∀ t ∈ ts, IsTag t)
    (ha : a.hubTags = some (join "," ts)) : a.parseTags = ts := by
  have hfields : ∀ f ∈ ts.map String.toList, ',' ∉ f := by
    intro f hf
    obtain ⟨t, hm, rfl⟩ := List.mem_map.mp hf
    exact (ht t hm).solid
  have htext : join "," ts = String.ofList ([','].intercalate (ts.map String.toList)) := by
    rw [join, ← String.ofList_toList (s := String.intercalate "," ts), String.toList_intercalate]
    rfl
  rw [parseTags_intercalate hfields (ha.trans (congrArg some htext)), List.map_map]
  have hkeep : ∀ ts : List String, (∀ t ∈ ts, IsTag t) →
      ((ts.map (trim ∘ String.toList)).filter (· ≠ [])).map String.ofList = ts := by
    intro ts ht
    induction ts with
    | nil => rfl
    | cons t ts ih =>
      have h := ht t List.mem_cons_self
      have hne : t.toList ≠ [] := fun hn => h.ne_empty (String.toList_eq_nil_iff.mp hn)
      rw [List.map_cons, Function.comp_apply, h.trimmed,
        List.filter_cons_of_pos (by simpa using hne), List.map_cons, String.ofList_toList,
        ih fun u hu => ht u (List.mem_cons_of_mem _ hu)]
  exact hkeep ts ht

end Cli

/-! ## What the hub reads -/

theorem Hub.Hello.wire_eq (h : Hub.Hello) : Hub.Hello.codec.wire h = h := by
  obtain ⟨v, t, key, name, hostname, os, arch, version, cores, tags⟩ := h
  show Hub.Hello.mk v t key ⟨name, hostname, os, arch, version, cores.map id, tags.map id⟩ = _
  rw [Option.map_id, List.map_id]
  rfl

/-- **From the command line to the hub.** Whatever fields are written between the commas of
`--hub-tags`, what the hub reads of hello has the key, and for tags the fields without the
whitespace around them and without those that are empty; given as they were advertised, they are
advertised again. -/
theorem hello_advertises {a : Cli} {env : HostEnv} {interval : Duration} {c : Hub.Client}
    (hc : a.hubClient env interval = some c) (hr : c.InRange) {fields : List (List Char)}
    (hf : ∀ f ∈ fields, ',' ∉ f)
    (ha : a.hubTags = some (String.ofList ([','].intercalate fields))) :
    ∃ h : Hub.Hello, Hub.Frame.deserialize (Hub.Frame.hello c.hello).serialize = some (.hello h) ∧
      a.hubKey = some h.key ∧
      h.host.tags = ((fields.map trim).filter (· ≠ [])).map String.ofList ∧
      ∀ a' : Cli, a'.hubTags = some (join "," h.host.tags) → a'.parseTags = h.host.tags := by
  obtain ⟨key, hkey, rfl⟩ : ∃ key, a.hubKey = some key ∧ a.newClient key env interval = c := by
    unfold Cli.hubClient at hc
    split at hc
    · next url key _ hkey =>
      split at hc
      · exact ⟨key, hkey, Option.some.inj hc⟩
      · cases hc
    · cases hc
  refine ⟨(a.newClient key env interval).hello, ?_, hkey, Cli.parseTags_intercalate hf ha,
    fun a' ha' => ?_⟩
  · rw [Hub.Frame.deserialize_serialize (Hub.hello_fits hr), Hub.Frame.wire, Hub.Hello.wire_eq]
  · exact Cli.parseTags_join a.parseTags_isTag ha'

def labArgs : Cli := ⟨some "wss://hub.example.com/ingest", some "k", none, some "db, , eu west"⟩

def labEnv : HostEnv := ⟨some "lab", none, "x86_64", some 1, Hub.labSerde⟩

theorem hello_advertises_labArgs : ∃ c, labArgs.hubClient labEnv Hub.lab.samplerInterval = some c ∧
    ∃ h : Hub.Hello, Hub.Frame.deserialize (Hub.Frame.hello c.hello).serialize = some (.hello h) ∧
      h.host.tags = ["db", "eu west"] := by
  have hclient : labArgs.hubClient labEnv Hub.lab.samplerInterval =
      some (labArgs.newClient "k" labEnv Hub.lab.samplerInterval) := rfl
  have hrange : (labArgs.newClient "k" labEnv Hub.lab.samplerInterval).InRange := by
    intro n hn
    cases hn
    decide
  have hf : ∀ f ∈ ["db".toList, " ".toList, " eu west".toList], ',' ∉ f := by decide
  obtain ⟨h, hread, -, htags, -⟩ := hello_advertises hclient hrange hf (by decide +kernel)
  exact ⟨_, hclient, h, hread, htags.trans (by decide +kernel)⟩

end Vigil
