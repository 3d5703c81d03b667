import Vigil.Lib.Table
import Vigil.Metrics.Disk

/-!
# Which mounts are listed

A `Filesystem` is a line of `/proc/filesystems`: a name, and in front of it the
word `nodev` for a file system without a device. `mounts_exact` says that
`collect_all` lists the mounts of devices whose file system is none of those,
with their usage and in their order, and that the figures of the root mount are
those of its row.
-/

namespace Vigil.Metrics

open Vigil.Lib Vigil.Lib.Text

/-- A file system as the kernel prints it. -/
structure Filesystem where
  nodev : Bool
  pad : List Char
  word : Word
  isGap : IsGap pad
  separates : pad ≠ []

namespace Filesystem

variable (f : Filesystem)

def name : String := String.ofList f.word.chars

def mark : List Char := if f.nodev then "nodev".toList else []

def text : List Char := f.mark ++ (f.pad ++ f.word.chars)

end Filesystem

def filesystemsText (fs : List Filesystem) : String :=
  String.ofList (ofLines (fs.map Filesystem.text))

/-- The names of the file systems without a device. -/
def nodevNames (fs : List Filesystem) : List String := (fs.filter (·.nodev)).map Filesystem.name

/-! ## Reading the lines -/

namespace Filesystem

variable {f : Filesystem}

theorem newline_notMem_text : '\n' ∉ f.text := by
  rw [text, mark, List.mem_append, List.mem_append]
  rintro (h | h | h)
  · split at h
    · exact absurd h (by decide)
    · cases h
  · exact (f.isGap _ h).2 rfl
  · exact absurd (f.word.solid _ h) (by decide)

/-- A name ends its line, and it does not end in a carriage return. -/
theorem chompCr_text : chompCr f.text = f.text := by
  rw [chompCr, if_neg]
  intro h
  rw [text, ← List.append_assoc, List.getLast?_append_of_ne_nil _ f.word.ne_nil] at h
  exact absurd (f.word.solid _ (List.mem_of_getLast? h)) (by decide)

/-- What a line is worth to the reader. -/
theorem nodev_text : (stripPrefix "nodev" f.text).map (fun rest => String.ofList (trim rest)) =
    if f.nodev then some f.name else none := by
  cases hn : f.nodev with
  | true =>
    have hstrip : stripPrefix "nodev" f.text = some (f.pad ++ f.word.chars) :=
      stripPrefix_eq_some_iff.mpr (by rw [text, mark, hn, if_pos rfl])
    rw [hstrip, Option.map_some, trim_gap f.isGap f.word.solid]
    rfl
  | false =>
    have hstrip : stripPrefix "nodev" f.text = none := by
      rw [stripPrefix_eq_none_iff, text, mark, hn]
      cases hpad : f.pad with
      | nil => exact absurd hpad f.separates
      | cons c pad =>
        have hc := (f.isGap c (hpad ▸ List.mem_cons_self)).1
        intro h
        obtain rfl : 'n' = c := (List.cons_prefix_cons.mp h).1
        cases hc
    rw [hstrip]
    rfl

end Filesystem

theorem nodevFilesystems_text {r : Reading} {fs : List Filesystem}
    (hr : r.filesystems = some (filesystemsText fs)) :
    nodevFilesystems r = nodevNames fs ++ ["fuse.snapfuse"] := by
  have hlines : lines (filesystemsText fs).toList = fs.map Filesystem.text := by
    have hnl : ∀ l ∈ fs.map Filesystem.text, '\n' ∉ l := by
      intro l hl
      obtain ⟨f, -, rfl⟩ := List.mem_map.mp hl
      exact f.newline_notMem_text
    rw [filesystemsText, String.toList_ofList, lines_ofLines hnl, List.map_map]
    exact List.map_congr_left fun f _ => f.chompCr_text
  have hmap : ∀ fs : List Filesystem, (fs.map Filesystem.text).filterMap (fun line =>
      (stripPrefix "nodev" line).map fun rest => String.ofList (trim rest)) = nodevNames fs := by
    intro fs
    induction fs with
    | nil => rfl
    | cons f fs ih =>
      rw [List.map_cons, List.filterMap_cons, f.nodev_text, ih, nodevNames, nodevNames]
      cases hn : f.nodev <;> simp [hn]
  rw [nodevFilesystems, hr]
  dsimp only
  rw [hlines, hmap]

/-! ## The list -/

/-- The mount is one of a device, under a file system that has one. -/
def Mount.isPhysical (fs : List Filesystem) (d : Mount) : Bool :=
  startsWith "/" d.device && !(nodevNames fs).contains d.fstype && d.fstype != "fuse.snapfuse"

def mountInfo (r : Reading) (d : Mount) : DiskInfo :=
  let u := usageForMount r d.mountpoint d.totalSpace d.availableSpace
  ⟨d.device, d.mountpoint, d.fstype, u.total, u.used, u.free, u.percent⟩

def usageOf (row : DiskInfo) : Disk := ⟨row.total, row.used, row.free, row.percent⟩

/-- **The list of mounts is exact**, and so is its root row: where the first mount at `/` is listed,
the figures reported for the root are those of its row. -/
theorem mounts_exact {r : Reading} {fs : List Filesystem}
    (hr : r.filesystems = some (filesystemsText fs)) (disks : List Mount) :
    collectAll r disks = (disks.filter (·.isPhysical fs)).map (mountInfo r) ∧
      ∀ d, disks.find? (·.mountpoint = rootMount) = some d → d.isPhysical fs = true →
        ∃ row ∈ collectAll r disks, row.mountpoint = rootMount ∧
          collectRoot r disks = usageOf row := by
  have hall : collectAll r disks = (disks.filter (·.isPhysical fs)).map (mountInfo r) := by
    rw [collectAll, nodevFilesystems_text hr]
    induction disks with
    | nil => rfl
    | cons d disks ih =>
      rw [List.filterMap_cons, ih, List.filter_cons, Mount.isPhysical]
      cases startsWith "/" d.device with
      | false => simp
      | true =>
        by_cases hm : d.fstype ∈ nodevNames fs
        · simp [hm]
        · by_cases hs : d.fstype = "fuse.snapfuse"
          · simp [hs]
          · simp [hm, hs, mountInfo]
  refine ⟨hall, fun d hd hp => ⟨mountInfo r d, ?_, ?_, ?_⟩⟩
  · rw [hall]
    exact List.mem_map_of_mem (List.mem_filter.mpr ⟨List.mem_of_find?_eq_some hd, hp⟩)
  · show d.mountpoint = rootMount
    simpa using List.find?_some hd
  · rw [collectRoot, hd]
    rfl

/-- A file system by its name, a tab in front of it as the kernel prints it. -/
def Filesystem.ofName (nodev : Bool) (s : String) (hne : s.toList ≠ [])
    (hs : s.toList.all (fun c => !isWhitespace c) = true) : Filesystem where
  nodev := nodev
  pad := ['\t']
  word := ⟨s.toList, hne, fun c hc => (Bool.not_eq_true' _).mp (List.all_eq_true.mp hs c hc)⟩
  isGap := fun c hc => by
    obtain rfl := List.mem_singleton.mp hc
    exact ⟨rfl, by decide⟩
  separates := List.cons_ne_nil _ _

def labFilesystems : List Filesystem :=
  [.ofName true "sysfs" (by decide) rfl, .ofName false "ext4" (by decide) rfl]

def labMounts : List Mount :=
  [⟨"sysfs", "sysfs", "/sys", 0, 0⟩, ⟨"/dev/sda1", "ext4", "/", 2 ^ 30, 2 ^ 29⟩,
    ⟨"/snap", "fuse.snapfuse", "/snap/core", 2 ^ 20, 0⟩]

/-- A host whose kernel knows these two. -/
def labHost : Reading :=
  { Reading.quiet with filesystems := some (filesystemsText labFilesystems) }

theorem mounts_exact_labMounts :
    filesystemsText labFilesystems = "nodev\tsysfs\n\text4\n" ∧
      (collectAll labHost labMounts).map DiskInfo.mountpoint = ["/"] ∧
      ∃ row ∈ collectAll labHost labMounts, collectRoot labHost labMounts = usageOf row := by
  have hfs : labHost.filesystems = some (filesystemsText labFilesystems) := rfl
  obtain ⟨hall, hroot⟩ := mounts_exact hfs labMounts
  obtain ⟨row, hrow, -, hu⟩ := hroot ⟨"/dev/sda1", "ext4", "/", 2 ^ 30, 2 ^ 29⟩ rfl
    (by decide +kernel)
  refine ⟨by decide +kernel, ?_, row, hrow, hu⟩
  rw [hall]
  decide +kernel

end Vigil.Metrics
