/- OrbisAgent/Plugins/Disk
   source: src/plugins/disk/disk.cpp (Linux)
   digest: The plugin that reports the usage of each mounted disk. -/

import OrbisAgent.Lib.MachineNumbers
import OrbisAgent.Plugins.ArrayText

set_option autoImplicit false
set_option relaxedAutoImplicit false

namespace OrbisAgent.Plugins.Disk

open OrbisAgent.Lib.ByteString
open OrbisAgent.Lib.CText
open OrbisAgent.Lib.MachineNumbers
open OrbisAgent.Lib.Json
open OrbisAgent.Lib.JsonText (toText)
open OrbisAgent.Lib.Utf8
open OrbisAgent.Plugins.ArrayText
open OrbisAgent.Plugins.PluginLoader (Outcome)

structure DiskInfo (δ : Type) where
  mount : ByteArray
  total_gb : Nat
  used_gb : Nat
  percent : δ

/-- What is used of a line of /proc/mounts. -/
structure Mount where
  mp : ByteArray
  fstype : String

structure Statvfs where
  f_blocks : Nat
  f_bfree : Nat
  f_frsize : Nat

/-- File systems that are not physical-looking. -/
def skipped : List String :=
  ["tmpfs", "devtmpfs", "sysfs", "proc", "cgroup", "devpts", "securityfs", "pstore"]

variable {δ : Type} (d : Doubles δ) (statvfs : ByteArray → Option Statvfs)

def diskInfo (mp : ByteArray) (sv : Statvfs) : DiskInfo δ where
  mount := mp
  total_gb := mulU64 sv.f_blocks sv.f_frsize / (1024 * 1024 * 1024)
  used_gb := mulU64 (subU64 sv.f_blocks sv.f_bfree) sv.f_frsize / (1024 * 1024 * 1024)
  percent := d.mul (d.ofInt 100)
    (d.sub (d.ofInt 1) (d.div (d.ofInt sv.f_bfree) (d.ofInt sv.f_blocks)))

/-- The loop over the mounts, with the disks found so far. -/
def gatherFrom (disks : List (DiskInfo δ)) : List Mount → List (DiskInfo δ)
  | [] => disks
  | m :: rest =>
      if m.fstype ∈ skipped then gatherFrom disks rest
      else
        match statvfs m.mp with
        | none => gatherFrom disks rest
        | some sv =>
            if sv.f_blocks = 0 then gatherFrom disks rest
            else
              let disks := disks ++ [diskInfo d m.mp sv]
              if 8 ≤ disks.length then disks else gatherFrom disks rest

def gatherDisks (mounts : List Mount) : List (DiskInfo δ) := gatherFrom d statvfs [] mounts

/-- What `"Disk %s: %.1f%% used (%llu/%llu GB)"` prints. -/
def diskLine (x : DiskInfo δ) : Bytes :=
  bytes "Disk " ++ (cString x.mount.data.toList ++ (bytes ": " ++ d.fixed1 x.percent ++
    bytes "% used (" ++ digits x.used_gb ++ bytes "/" ++ digits x.total_gb ++ bytes " GB)"))

def diskLevel (x : DiskInfo δ) : String :=
  if d.le (d.ofInt 90) x.percent then "ERROR"
  else if d.le (d.ofInt 75) x.percent then "WARNING"
  else "INFO"

def diskEntry (x : DiskInfo δ) : Json :=
  .obj [("level", .text (diskLevel d x)), ("message", .str (toText (snprintf 128 (diskLine d x)))),
    ("metadata", .obj [("mount_point", .str x.mount), ("percent", d.toJson x.percent),
      ("total_gb", .int x.total_gb), ("used_gb", .int x.used_gb)]),
    ("source", .text "disk_plugin")]

/-- `disks` is what `gatherDisks` returns. -/
def collect (codec : Codec) (disks : List (DiskInfo δ)) : Outcome :=
  arrayText codec (disks.map (diskEntry d))

/-- The disk of a mount that is not passed over. -/
def mountedDisk (m : Mount) : Option (DiskInfo δ) :=
  if m.fstype ∈ skipped then none
  else (statvfs m.mp).bind fun sv => if sv.f_blocks = 0 then none else some (diskInfo d m.mp sv)

/-- An entry for the disk. -/
def ForDisk (x : DiskInfo δ) (e : Json) : Prop :=
  ∃ fields metadata, e = .obj fields ∧ fields.lookup "metadata" = some (.obj metadata) ∧
    metadata.lookup "mount_point" = some (.str x.mount) ∧
    metadata.lookup "total_gb" = some (.int x.total_gb) ∧
    metadata.lookup "used_gb" = some (.int x.used_gb)

variable {d} {statvfs}

theorem gatherFrom_eq {disks : List (DiskInfo δ)} (room : disks.length < 8) (mounts : List Mount) :
    gatherFrom d statvfs disks mounts =
      (disks ++ mounts.filterMap (mountedDisk d statvfs)).take 8 := by
  induction mounts generalizing disks with
  | nil =>
      rw [gatherFrom, List.filterMap_nil, List.append_nil, List.take_of_length_le (by omega)]
  | cons m rest ih =>
      have passedOver : mountedDisk d statvfs m = none →
          gatherFrom d statvfs disks rest =
            (disks ++ (m :: rest).filterMap (mountedDisk d statvfs)).take 8 := by
        intro none
        rw [ih room, List.filterMap_cons_none none]
      rw [gatherFrom]
      split
      · rename_i skip
        exact passedOver (by rw [mountedDisk, if_pos skip])
      · rename_i physical
        cases found : statvfs m.mp with
        | none => exact passedOver (by rw [mountedDisk, if_neg physical, found]; rfl)
        | some sv =>
            dsimp only
            by_cases empty : sv.f_blocks = 0
            · rw [if_pos empty]
              apply passedOver
              rw [mountedDisk, if_neg physical, found, Option.bind_some, if_pos empty]
            · have here : mountedDisk d statvfs m = some (diskInfo d m.mp sv) := by
                rw [mountedDisk, if_neg physical, found, Option.bind_some, if_neg empty]
              have joined := List.append_cons disks (diskInfo d m.mp sv)
                (rest.filterMap (mountedDisk d statvfs))
              rw [if_neg empty, List.filterMap_cons_some here, joined]
              split
              · rename_i full
                rw [List.take_append_of_le_length full, List.take_of_length_le]
                rw [List.length_append, List.length_singleton]
                omega
              · rename_i more
                exact ih (by omega)

/-- The first eight disks are gathered, in the order of their mounts. -/
theorem gatherDisks_eq (mounts : List Mount) :
    gatherDisks d statvfs mounts = (mounts.filterMap (mountedDisk d statvfs)).take 8 :=
  gatherFrom_eq (by simp) mounts

theorem forDisk_diskEntry (x : DiskInfo δ) : ForDisk x (diskEntry d x) :=
  ⟨_, _, rfl, rfl, rfl, rfl, rfl⟩

private theorem ascii_usage (x : DiskInfo δ) :
    Ascii (bytes ": " ++ d.fixed1 x.percent ++ bytes "% used (" ++ digits x.used_gb ++ bytes "/" ++
      digits x.total_gb ++ bytes " GB)") := by
  simp only [ascii_append]
  exact ⟨⟨⟨⟨⟨⟨by decide, d.ascii_fixed1 _⟩, by decide⟩, ascii_digits _⟩, by decide⟩,
    ascii_digits _⟩, by decide⟩

/-- The line is valid, and has no zero byte. -/
theorem diskLine_sound {x : DiskInfo δ} (valid : x.mount.validateUTF8 = true) :
    Valid (diskLine d x) ∧ 0 ∉ diskLine d x := by
  have mount : Valid x.mount.data.toList := valid
  have usage := ascii_usage (d := d) x
  have front : Ascii (bytes "Disk ") := by decide
  refine ⟨front.valid.append (mount.cString.append usage.valid), ?_⟩
  unfold diskLine
  rw [List.mem_append, List.mem_append, not_or, not_or]
  exact ⟨front.zero_notMem, zero_notMem_cString _, usage.zero_notMem⟩

/-- Only the mount path can be cut inside a character. -/
theorem characterAt_diskLine (x : DiskInfo δ) :
    CharacterAt (diskLine d x) 127 ↔ CharacterAt (cString x.mount.data.toList) 122 := by
  have front : Ascii (bytes "Disk ") := by decide
  have length : (bytes "Disk ").length = 5 := rfl
  unfold diskLine
  rw [characterAt_append, characterAt_append, length]
  constructor
  · intro both
    exact (both.2 (by omega)).1
  · intro mount
    exact ⟨front.characterAt, fun _ => ⟨mount, fun _ => (ascii_usage x).characterAt⟩⟩

/-- The entry of a disk can be serialised just when its message is cut between two characters. -/
theorem wellEncoded_diskEntry {x : DiskInfo δ} (valid : x.mount.validateUTF8 = true) :
    (diskEntry d x).wellEncoded = true ↔ CharacterAt (cString x.mount.data.toList) 122 := by
  obtain ⟨line, solid⟩ := diskLine_sound (d := d) valid
  have cut : Valid (snprintf 128 (diskLine d x)) ↔ CharacterAt (diskLine d x) 127 :=
    valid_snprintf_iff line solid
  rw [← characterAt_diskLine, ← cut]
  simp [diskEntry, valid, Valid]

end OrbisAgent.Plugins.Disk
