/- OrbisAgent/Services/SystemMetrics
   source: src/services/HeartbeatService.cpp (system metrics, Linux)
   digest: The processor, memory and disk percentages of a status message. -/

import OrbisAgent.Core.ProcFiles
import OrbisAgent.Lib.Binary64
import OrbisAgent.Plugins.Disk

set_option autoImplicit false
set_option relaxedAutoImplicit false

namespace OrbisAgent.Services.SystemMetrics

open OrbisAgent.Core.ProcFiles
open OrbisAgent.Lib.Binary64
open OrbisAgent.Lib.ByteString
open OrbisAgent.Lib.Extraction
open OrbisAgent.Lib.MachineNumbers
open OrbisAgent.Plugins.Disk (Statvfs diskInfo)

/-- The array that `readStat` returns. -/
structure Stat where
  busy : Nat
  system : Nat
  idle : Nat
  total : Nat

/-- `none` when a variable is read that was not written. -/
def readStat (content : Option Bytes) : Option Stat :=
  let s := (word (.opened content)).2
  let (user, s) := unsignedLongLong s
  let (nice, s) := unsignedLongLong s
  let (system, s) := unsignedLongLong s
  let (idle, _) := unsignedLongLong s
  match user, nice, system, idle with
  | some user, some nice, some system, some idle =>
      some ⟨addU64 user nice, system, idle, addU64 (addU64 (addU64 user nice) system) idle⟩
  | _, _, _, _ => none

section Percentages

variable {δ : Type} (d : Doubles δ)

/-- Of the two contents that `/proc/stat` has with half a second between. -/
def getCpuPercent (first second : Option Bytes) : Option δ :=
  match readStat first, readStat second with
  | some s1, some s2 =>
      let total_delta := subU64 s2.total s1.total
      let idle_delta := subU64 s2.idle s1.idle
      some (if total_delta = 0 then d.ofInt 0 else usedPercent d idle_delta total_delta)
  | _, _ => none

def getRamPercent (content : Option Bytes) : δ :=
  let m := readMemory content
  if m.total = 0 then d.ofInt 0 else usedPercent d m.available m.total

def getDiskPercent (statvfs : Option Statvfs) : δ :=
  match statvfs with
  | none => d.ofInt 0
  | some sv =>
      if sv.f_blocks = 0 then d.ofInt 0
      else usedPercent d (mulU64 sv.f_bfree sv.f_frsize) (mulU64 sv.f_blocks sv.f_frsize)

end Percentages

theorem readStat_statText {counters : List Counter} (enough : 4 ≤ counters.length) {rest : Bytes}
    (behind : Behind rest) :
    readStat (some (statText counters rest)) =
      some ⟨(counterAt counters 0 + counterAt counters 1) % 2 ^ 64, counterAt counters 2,
        counterAt counters 3, (counterAt counters 0 + counterAt counters 1 +
          counterAt counters 2 + counterAt counters 3) % 2 ^ 64⟩ := by
  have some' : counters ≠ [] := by
    rintro rfl
    exact absurd enough (by decide)
  have read := extract_counters behind enough
  rw [← word_statText some'] at read
  unfold readStat
  dsimp only
  generalize (word (.opened (some (statText counters rest)))).2 = s at read ⊢
  have range : List.range 4 = [0, 1, 2, 3] := rfl
  simp only [extract, range, List.map_cons, List.map_nil, List.cons.injEq, and_true] at read
  obtain ⟨user, nice, system, idle⟩ := read
  simp only [user, nice, system, idle, addU64, Nat.mod_add_mod]

theorem getCpuPercent_of {δ : Type} {d : Doubles δ} {first second : Option Bytes} {s1 s2 : Stat}
    (read : readStat first = some s1) (read' : readStat second = some s2) {idle total : Nat}
    (totals : subU64 s2.total s1.total = total) (idles : subU64 s2.idle s1.idle = idle) :
    getCpuPercent d first second =
      some (if total = 0 then d.ofInt 0 else usedPercent d idle total) := by
  unfold getCpuPercent
  generalize readStat first = x, readStat second = y at read read' ⊢
  subst totals idles read read'
  rfl

/-- What the heartbeat takes for the time of all processors. -/
def heartbeatTotal (w : Nat → Nat) : Nat := w 0 + w 1 + w 2 + w 3

/-- The percentage is that of what the counters have advanced by, also when one has wrapped. -/
theorem getCpuPercent_advanced {δ : Type} {d : Doubles δ} {first second : List Counter}
    {w : Nat → Nat} (advanced : Advanced first second w) (enough : 4 ≤ first.length)
    (enough' : 4 ≤ second.length) {rest rest' : Bytes} (behind : Behind rest)
    (behind' : Behind rest') :
    getCpuPercent d (some (statText first rest)) (some (statText second rest')) =
      some (if heartbeatTotal w = 0 then d.ofInt 0
        else usedPercent d (w 3) (heartbeatTotal w)) := by
  have fits := advanced.fits
  have gains := advanced.gains (i := 3) (by omega)
  have totals := (((advanced.gains (i := 0) (by omega)).add
    (advanced.gains (i := 1) (by omega))).add (advanced.gains (i := 2) (by omega))).add gains
  have total := totals.difference (by omega)
  have idle := gains.difference (by omega)
  rw [Nat.mod_eq_of_lt (counterAt_lt first 3), Nat.mod_eq_of_lt (counterAt_lt second 3)] at idle
  exact getCpuPercent_of (readStat_statText enough behind) (readStat_statText enough' behind')
    total idle

/-- A percentage that is 0 when there is nothing to share. -/
theorem percent_bounds {part total : Nat} (le : part ≤ total) {p : ℚ}
    (percent : p = if total = 0 then binary64.ofInt 0 else usedPercent binary64 part total) :
    0 ≤ p ∧ p ≤ 100 ∧ (0 < total → |p - 100 * (1 - part / total)| ≤ 1 / 10 ^ 12) := by
  subst percent
  split
  · rename_i none
    refine ⟨by simp [binary64], by simp [binary64], ?_⟩
    intro pos
    omega
  · obtain ⟨low, high⟩ := usedPercent_bounds le
    exact ⟨low, high, fun pos => usedPercent_accurate le pos⟩

/-- The heartbeat computes with bytes and the plugin with blocks. As long as the size of the disk
fits, both percentages are in range, and all but equal. -/
theorem disk_percentages_agree {sv : Statvfs} (blocks : 0 < sv.f_blocks) (size : 0 < sv.f_frsize)
    (part : sv.f_bfree ≤ sv.f_blocks) (fits : sv.f_blocks * sv.f_frsize < 2 ^ 64)
    (mp : ByteArray) :
    0 ≤ getDiskPercent binary64 (some sv) ∧ getDiskPercent binary64 (some sv) ≤ 100 ∧
      0 ≤ (diskInfo binary64 mp sv).percent ∧ (diskInfo binary64 mp sv).percent ≤ 100 ∧
      |getDiskPercent binary64 (some sv) - (diskInfo binary64 mp sv).percent| ≤ 2 / 10 ^ 12 := by
  have le : sv.f_bfree * sv.f_frsize ≤ sv.f_blocks * sv.f_frsize := Nat.mul_le_mul_right _ part
  have free : mulU64 sv.f_bfree sv.f_frsize = sv.f_bfree * sv.f_frsize :=
    Nat.mod_eq_of_lt (Nat.lt_of_le_of_lt le fits)
  have total : mulU64 sv.f_blocks sv.f_frsize = sv.f_blocks * sv.f_frsize := Nat.mod_eq_of_lt fits
  have heartbeat : getDiskPercent binary64 (some sv) =
      usedPercent binary64 (sv.f_bfree * sv.f_frsize) (sv.f_blocks * sv.f_frsize) := by
    rw [getDiskPercent, if_neg (by omega), free, total]
  have plugin : (diskInfo binary64 mp sv).percent =
      usedPercent binary64 sv.f_bfree sv.f_blocks := rfl
  have inBytes := usedPercent_accurate le (Nat.mul_pos blocks size)
  have inBlocks := usedPercent_accurate part blocks
  have scaled : ((sv.f_bfree * sv.f_frsize : Nat) : ℚ) / (sv.f_blocks * sv.f_frsize : Nat) =
      sv.f_bfree / sv.f_blocks := by
    push_cast
    exact mul_div_mul_right _ _ (Nat.cast_ne_zero.mpr (Nat.ne_of_gt size))
  rw [scaled] at inBytes
  rw [heartbeat, plugin]
  refine ⟨(usedPercent_bounds le).1, (usedPercent_bounds le).2, (usedPercent_bounds part).1,
    (usedPercent_bounds part).2, ?_⟩
  rw [abs_le] at inBytes inBlocks ⊢
  constructor <;> linarith

theorem disk_percentages_of_a_disk :
    |getDiskPercent binary64 (some ⟨1000003, 333, 4096⟩) -
      (diskInfo binary64 "/".toByteArray ⟨1000003, 333, 4096⟩).percent| ≤ 2 / 10 ^ 12 := by
  let sv : Statvfs := ⟨1000003, 333, 4096⟩
  have blocks : 0 < sv.f_blocks := by decide
  have size : 0 < sv.f_frsize := by decide
  have part : sv.f_bfree ≤ sv.f_blocks := by decide
  exact (disk_percentages_agree blocks size part (by decide) "/".toByteArray).2.2.2.2

end OrbisAgent.Services.SystemMetrics
