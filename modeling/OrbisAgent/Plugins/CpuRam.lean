/- OrbisAgent/Plugins/CpuRam
   source: src/plugins/cpu_ram/cpu_ram.cpp (Linux)
   digest: The plugin that reports the usage of processor and memory. -/

import OrbisAgent.Plugins.ArrayText
import OrbisAgent.Services.SystemMetrics

set_option autoImplicit false
set_option relaxedAutoImplicit false

namespace OrbisAgent.Plugins.CpuRam

open OrbisAgent.Core.ProcFiles
open OrbisAgent.Lib.Binary64
open OrbisAgent.Lib.ByteString
open OrbisAgent.Lib.CText
open OrbisAgent.Lib.Extraction
open OrbisAgent.Lib.Json
open OrbisAgent.Lib.JsonText (toText)
open OrbisAgent.Lib.MachineNumbers
open OrbisAgent.Lib.Utf8
open OrbisAgent.Plugins.ArrayText
open OrbisAgent.Plugins.PluginLoader (Outcome)
open OrbisAgent.Services.SystemMetrics

structure CpuSample where
  idle : Nat
  total : Nat

/-- `none` when a variable is read that was not written. The last three begin as 0. -/
def readCpuSample (content : Option Bytes) : Option CpuSample :=
  let s := (word (.opened content)).2
  let (user, s) := unsignedLongLong s
  let (nice, s) := unsignedLongLong s
  let (system, s) := unsignedLongLong s
  let (idle, s) := unsignedLongLong s
  let (iowait, s) := unsignedLongLong s
  let (irq, s) := unsignedLongLong s
  let (softirq, _) := unsignedLongLong s
  match user, nice, system, idle with
  | some user, some nice, some system, some idle =>
      some ⟨addU64 idle (iowait.getD 0), addU64 (addU64 (addU64 (addU64 (addU64 (addU64 user nice)
        system) idle) (iowait.getD 0)) (irq.getD 0)) (softirq.getD 0)⟩
  | _, _, _, _ => none

structure Ram (δ : Type) where
  ram_pct : δ
  used_mb : Nat
  total_mb : Nat

section Measuring

variable {δ : Type} (d : Doubles δ)

/-- Of the two contents that `/proc/stat` has with half a second between. -/
def measureCpu (first second : Option Bytes) : Option δ :=
  match readCpuSample first, readCpuSample second with
  | some s1, some s2 =>
      let total_delta := subU64 s2.total s1.total
      let idle_delta := subU64 s2.idle s1.idle
      some (if total_delta = 0 then d.ofInt 0 else usedPercent d idle_delta total_delta)
  | _, _ => none

def measureRam (content : Option Bytes) : Ram δ :=
  let m := readMemory content
  { total_mb := m.total / 1024
    used_mb := subU64 m.total m.available / 1024
    ram_pct := if m.total = 0 then d.ofInt 0 else usedPercent d m.available m.total }

/-- What `"CPU: %.1f%% RAM: %.1f%%"` prints. -/
def usageLine (cpu_pct ram_pct : δ) : Bytes :=
  bytes "CPU: " ++ d.fixed1 cpu_pct ++ bytes "% RAM: " ++ d.fixed1 ram_pct ++ bytes "%"

def usageEntry (cpu_pct : δ) (ram : Ram δ) : Json :=
  .obj [("level", .text "INFO"),
    ("message", .str (toText (snprintf 128 (usageLine d cpu_pct ram.ram_pct)))),
    ("metadata", .obj [("cpu_percent", d.toJson cpu_pct), ("ram_percent", d.toJson ram.ram_pct),
      ("ram_total_mb", .int ram.total_mb), ("ram_used_mb", .int ram.used_mb)]),
    ("source", .text "cpu_ram_plugin")]

/-- `none` stands for undefined behaviour. -/
def collect (codec : Codec) (stat stat' meminfo : Option Bytes) : Option Outcome :=
  (measureCpu d stat stat').map fun cpu_pct =>
    arrayText codec [usageEntry d cpu_pct (measureRam d meminfo)]

end Measuring

theorem readCpuSample_statText {counters : List Counter} (enough : 4 ≤ counters.length)
    {rest : Bytes} (behind : Behind rest) :
    readCpuSample (some (statText counters rest)) =
      some ⟨(counterAt counters 3 + counterAt counters 4) % 2 ^ 64,
        (counterAt counters 0 + counterAt counters 1 + counterAt counters 2 +
          counterAt counters 3 + counterAt counters 4 + counterAt counters 5 +
          counterAt counters 6) % 2 ^ 64⟩ := by
  have some' : counters ≠ [] := by
    rintro rfl
    exact absurd enough (by decide)
  have read := extract_counters behind enough
  have padded : (extract 7 (.after (countersText counters rest))).map (fun n => n.getD 0) = _ :=
    extract_counters_padded behind 7
  rw [← word_statText some'] at read padded
  unfold readCpuSample
  dsimp only
  generalize (word (.opened (some (statText counters rest)))).2 = s at read padded ⊢
  have range : List.range 4 = [0, 1, 2, 3] := rfl
  have range' : List.range 7 = [0, 1, 2, 3, 4, 5, 6] := rfl
  simp only [extract, range, List.map_cons, List.map_nil, List.cons.injEq, and_true] at read
  simp only [extract, range', List.map_cons, List.map_nil, List.cons.injEq, and_true] at padded
  obtain ⟨user, nice, system, idle⟩ := read
  obtain ⟨_, _, _, _, iowait, irq, softirq⟩ := padded
  simp only [user, nice, system, idle, iowait, irq, softirq, addU64, Nat.mod_add_mod]

theorem measureCpu_of {δ : Type} {d : Doubles δ} {first second : Option Bytes} {s1 s2 : CpuSample}
    (read : readCpuSample first = some s1) (read' : readCpuSample second = some s2)
    {idle total : Nat} (totals : subU64 s2.total s1.total = total)
    (idles : subU64 s2.idle s1.idle = idle) :
    measureCpu d first second =
      some (if total = 0 then d.ofInt 0 else usedPercent d idle total) := by
  unfold measureCpu
  generalize readCpuSample first = x, readCpuSample second = y at read read' ⊢
  subst totals idles read read'
  rfl

/-- What the plugin takes for the time of all processors, and for their idle time. -/
def pluginTotal (w : Nat → Nat) : Nat := w 0 + w 1 + w 2 + w 3 + w 4 + w 5 + w 6

def pluginIdle (w : Nat → Nat) : Nat := w 3 + w 4

section Counters

variable {first second : List Counter} {w : Nat → Nat} {rest rest' : Bytes}

theorem measureCpu_advanced {δ : Type} {d : Doubles δ} (advanced : Advanced first second w)
    (enough : 4 ≤ first.length) (enough' : 4 ≤ second.length) (behind : Behind rest)
    (behind' : Behind rest') :
    measureCpu d (some (statText first rest)) (some (statText second rest')) =
      some (if pluginTotal w = 0 then d.ofInt 0
        else usedPercent d (pluginIdle w) (pluginTotal w)) := by
  have fits := advanced.fits
  have gains : ∀ i < 7, Gains (counterAt first i) (counterAt second i) (w i) :=
    fun i place => advanced.gains place
  have idles := (gains 3 (by omega)).add (gains 4 (by omega))
  have totals := ((((((gains 0 (by omega)).add (gains 1 (by omega))).add
    (gains 2 (by omega))).add (gains 3 (by omega))).add (gains 4 (by omega))).add
    (gains 5 (by omega))).add (gains 6 (by omega))
  exact measureCpu_of (readCpuSample_statText enough behind)
    (readCpuSample_statText enough' behind') (totals.difference fits)
    (idles.difference (by omega))

/-- Between two readings of counters that may wrap, the heartbeat and the plugin both report a
percentage, each by a share of its own: the heartbeat counts the first four counters and takes the
fourth as idle, the plugin counts seven and takes the wait for devices as idle too. They agree
when nothing was spent waiting for devices or serving interrupts. -/
theorem both_report_the_busy_share (advanced : Advanced first second w)
    (enough : 4 ≤ first.length) (enough' : 4 ≤ second.length) (behind : Behind rest)
    (behind' : Behind rest') :
    ∃ p q, getCpuPercent binary64 (some (statText first rest)) (some (statText second rest')) =
        some p ∧
      measureCpu binary64 (some (statText first rest)) (some (statText second rest')) = some q ∧
      (0 ≤ p ∧ p ≤ 100 ∧
        (0 < heartbeatTotal w → |p - 100 * (1 - w 3 / heartbeatTotal w)| ≤ 1 / 10 ^ 12)) ∧
      (0 ≤ q ∧ q ≤ 100 ∧
        (0 < pluginTotal w → |q - 100 * (1 - pluginIdle w / pluginTotal w)| ≤ 1 / 10 ^ 12)) ∧
      (w 4 = 0 → w 5 = 0 → w 6 = 0 → p = q) := by
  refine ⟨_, _, getCpuPercent_advanced advanced enough enough' behind behind',
    measureCpu_advanced advanced enough enough' behind behind', ?_, ?_, ?_⟩
  · apply percent_bounds _ rfl
    unfold heartbeatTotal
    omega
  · apply percent_bounds _ rfl
    unfold pluginIdle pluginTotal
    omega
  · intro iowait irq softirq
    have total : pluginTotal w = heartbeatTotal w := by
      unfold pluginTotal heartbeatTotal
      omega
    have idle : pluginIdle w = w 3 := by
      unfold pluginIdle
      omega
    rw [total, idle]

/-- The counter of the idle time wraps. -/
theorem busy_share_over_a_wrap :
    ∃ p, getCpuPercent binary64
        (some (statText [.spaced 10 (by decide), .spaced 0 (by decide), .spaced 5 (by decide),
          .spaced (2 ^ 64 - 1) (by decide)] [])) (some (statText [.spaced 20 (by decide),
          .spaced 0 (by decide), .spaced 10 (by decide), .spaced 9 (by decide)] [])) = some p ∧
      measureCpu binary64
        (some (statText [.spaced 10 (by decide), .spaced 0 (by decide), .spaced 5 (by decide),
          .spaced (2 ^ 64 - 1) (by decide)] [])) (some (statText [.spaced 20 (by decide),
          .spaced 0 (by decide), .spaced 10 (by decide), .spaced 9 (by decide)] [])) = some p := by
  have advanced : Advanced
      [.spaced 10 (by decide), .spaced 0 (by decide), .spaced 5 (by decide),
        .spaced (2 ^ 64 - 1) (by decide)]
      [.spaced 20 (by decide), .spaced 0 (by decide), .spaced 10 (by decide),
        .spaced 9 (by decide)]
      (fun i => [10, 0, 5, 10].getD i 0) := ⟨by decide, by decide⟩
  obtain ⟨p, q, heartbeat, plugin, _, _, same⟩ := both_report_the_busy_share advanced (by decide)
    (by decide) .nothing .nothing
  obtain rfl := same rfl rfl rfl
  exact ⟨p, heartbeat, plugin⟩

end Counters

section Memory

variable {records : List Record} {total available : Nat}

/-- Of a file with both entries, in any layout and with anything behind them, the heartbeat and
the plugin report the same percentage, that of the memory that is not available, and the plugin
the whole megabytes. -/
theorem both_report_the_used_memory (file : Meminfo records total available)
    (positive : 0 < available) (part : available ≤ total) (rest : Bytes) :
    ∃ p, getRamPercent binary64 (some (records.flatMap Record.text ++ rest)) = p ∧
      measureRam binary64 (some (records.flatMap Record.text ++ rest)) =
        ⟨p, (total - available) / 1024, total / 1024⟩ ∧
      0 ≤ p ∧ p ≤ 100 ∧ |p - 100 * (1 - available / total)| ≤ 1 / 10 ^ 12 := by
  have read := readMemory_meminfo file positive part rest
  obtain ⟨r, _, same⟩ := List.mem_map.mp file.has_total
  have fits : total < 2 ^ 64 := by
    have val : r.val = total := congrArg Prod.snd same
    rw [← val]
    exact r.val_lt
  have used : subU64 total available = total - available := by
    unfold subU64
    omega
  have bounds := percent_bounds part rfl
  refine ⟨_, rfl, ?_, ?_, ?_, ?_⟩
  · rw [measureRam, getRamPercent, read, used]
  · rw [getRamPercent, read]
    exact bounds.1
  · rw [getRamPercent, read]
    exact bounds.2.1
  · rw [getRamPercent, read]
    exact bounds.2.2 (by omega)

/-- The first lines of a file that goes on. -/
theorem used_memory_of_a_machine :
    ∃ p, measureRam binary64 (some ([kilobytes (bytes "MemTotal:") 8000000
        (word_of_all rfl (by decide)) (by decide), kilobytes (bytes "MemAvailable:") 6000000
        (word_of_all rfl (by decide)) (by decide)].flatMap Record.text ++ bytes "Buffers: x")) =
      ⟨p, 1953, 7812⟩ := by
  have file : Meminfo [kilobytes (bytes "MemTotal:") 8000000 (word_of_all rfl (by decide))
      (by decide), kilobytes (bytes "MemAvailable:") 6000000 (word_of_all rfl (by decide))
      (by decide)] 8000000 6000000 := by
    refine ⟨?_, List.mem_cons_self, List.mem_cons_of_mem _ List.mem_cons_self⟩
    have apart : bytes "MemTotal:" ≠ bytes "MemAvailable:" := by decide
    simp [kilobytes, apart]
  obtain ⟨p, _, ram, _⟩ := both_report_the_used_memory file (by decide) (by decide)
    (bytes "Buffers: x")
  exact ⟨p, ram⟩

/-- Where the kernel does not say what is available, all memory is reported as used. -/
theorem all_memory_is_used_without_available {content : Bytes}
    (absent : ¬ bytes "MemAvailable:" <:+: content) :
    getRamPercent binary64 (some content) =
        (if (readMemory (some content)).total = 0 then 0 else 100) ∧
      (measureRam binary64 (some content)).used_mb =
        (measureRam binary64 (some content)).total_mb := by
  obtain ⟨zero, fits⟩ := readMemory_without absent
  constructor
  · rw [getRamPercent, zero, usedPercent_of_nothing]
    simp [binary64]
  · have whole : subU64 (readMemory (some content)).total 0 =
        (readMemory (some content)).total := by
      unfold subU64
      omega
    simp only [measureRam, zero, whole]

theorem all_memory_of_an_old_kernel :
    (measureRam binary64 (some (bytes "MemTotal: 4096 kB MemFree: 1024 kB"))).used_mb =
      (measureRam binary64 (some (bytes "MemTotal: 4096 kB MemFree: 1024 kB"))).total_mb := by
  have absent : ¬ bytes "MemAvailable:" <:+: bytes "MemTotal: 4096 kB MemFree: 1024 kB" := by
    decide
  exact (all_memory_is_used_without_available absent).2

end Memory

section Entry

variable {δ : Type} {d : Doubles δ}

theorem ascii_usageLine (cpu_pct ram_pct : δ) : Ascii (usageLine d cpu_pct ram_pct) := by
  simp only [usageLine, ascii_append]
  exact ⟨⟨⟨⟨by decide, d.ascii_fixed1 _⟩, by decide⟩, d.ascii_fixed1 _⟩, by decide⟩

/-- Once the processor was measured, the array with its entry is returned, never an empty one. -/
theorem collect_measured {codec : Codec} {stat stat' : Option Bytes} {cpu_pct : δ}
    (measured : measureCpu d stat stat' = some cpu_pct) (meminfo : Option Bytes) :
    collect d codec stat stat' meminfo = some (.text (codec.render
      (.arr [usageEntry d cpu_pct (measureRam d meminfo)])).toByteArray) := by
  have line : ∀ ram_pct : δ, Valid (snprintf 128 (usageLine d cpu_pct ram_pct)) := by
    intro ram_pct
    have ascii := ascii_usageLine (d := d) cpu_pct ram_pct
    exact (valid_snprintf_iff ascii.valid ascii.zero_notMem).mpr ascii.characterAt
  have encoded : ∀ e ∈ [usageEntry d cpu_pct (measureRam d meminfo)], e.wellEncoded = true := by
    intro e mem
    rw [List.mem_singleton.mp mem]
    have message := line (measureRam d meminfo).ram_pct
    rw [Valid] at message
    simp [usageEntry, message]
  rw [collect, measured, Option.map_some, arrayText,
    Codec.dump_of_wellEncoded codec (Json.wellEncoded_arr encoded)]

end Entry

end OrbisAgent.Plugins.CpuRam
