/- OrbisAgent/Plugins/DockerStats
   source: src/plugins/docker_stats/docker_stats.cpp (not Windows)
   digest: The plugin that reports the CPU and memory usage of each running container. -/

import OrbisAgent.Lib.MachineNumbers
import OrbisAgent.Plugins.ArrayText

set_option autoImplicit false
set_option relaxedAutoImplicit false

namespace OrbisAgent.Plugins.DockerStats

open OrbisAgent.Lib.ByteString
open OrbisAgent.Lib.CText
open OrbisAgent.Lib.MachineNumbers
open OrbisAgent.Lib.Json
open OrbisAgent.Lib.JsonText (toText)
open OrbisAgent.Lib.Utf8
open OrbisAgent.Plugins.ArrayText
open OrbisAgent.Plugins.PluginLoader (Outcome)

/-- How a computation ends early. -/
inductive Fault
  | threw
  | undefined
  deriving DecidableEq

def caught {α : Type} (result : Except Exn α) : Except Fault α :=
  result.mapError fun _ => .threw

/-- `j[key]` on a const value. Nothing is defined for a key that an object does not have. -/
def constAt (key : String) : Json → Except Fault Json
  | .obj fields =>
      match fields.lookup key with
      | some field => .ok field
      | none => .error .undefined
  | _ => .error .threw

/-- `j[key]` on a value that can be changed. A key that an object does not have is added. -/
def valueAt (key : String) : Json → Except Exn Json
  | .obj fields => .ok ((fields.lookup key).getD .null)
  | .null => .ok .null
  | other =>
      .error ⟨.other, "[json.exception.type_error.305] cannot use operator[] with a string " ++
        "argument with " ++ other.typeName⟩

/-- `get<uint64_t>()`: numbers, wrapped and truncated toward zero. -/
def getUInt64 : Json → Except Exn Nat
  | .int n => .ok (n % 2 ^ 64).toNat
  | .float m e =>
      let n := if 0 ≤ e then m * 2 ^ e.toNat else m.tdiv (2 ^ (-e).toNat)
      .ok (n % 2 ^ 64).toNat
  | other =>
      .error ⟨.other,
        "[json.exception.type_error.302] type must be number, but is " ++ other.typeName⟩

structure CpuCounters where
  total : Nat
  preTotal : Nat
  system : Nat
  preSystem : Nat
  online_cpus : Int

/-- The reads of `calcCpuPercent`. -/
def cpuCounters (stats : Json) : Except Fault CpuCounters := do
  let cpu_s ← constAt "cpu_stats" stats
  let precpu ← constAt "precpu_stats" stats
  let total ← caught (getUInt64 (← constAt "total_usage" (← constAt "cpu_usage" cpu_s)))
  let preTotal ← caught (getUInt64 (← constAt "total_usage" (← constAt "cpu_usage" precpu)))
  let system ← caught (getUInt64 (← constAt "system_cpu_usage" cpu_s))
  let preSystem ← caught (getUInt64 (← constAt "system_cpu_usage" precpu))
  let online_cpus ← caught (← constAt "online_cpus" cpu_s).getInt
  pure ⟨total, preTotal, system, preSystem, online_cpus⟩

/-- `usage` and `limit` of `memory_stats`. -/
def memoryCounters (stats : Json) : Except Exn (Nat × Nat) := do
  let mem ← valueAt "memory_stats" stats
  let usage ← getUInt64 (← valueAt "usage" mem)
  let limit ← getUInt64 (← valueAt "limit" mem)
  pure (usage, limit)

/-- The name without its leading slash, or the id. -/
def containerName (c : Json) (id : ByteArray) : Except Exn ByteArray := do
  match ← valueAt "Names" c with
  | .null | .arr [] | .obj [] => pure id
  | .arr (first :: _) =>
      let name ← first.getString
      if name.isEmpty then
        throw ⟨.other, "basic_string::substr: __pos (which is 1) > this->size() (which is 0)"⟩
      else pure (name.extract 1 name.size)
  | other =>
      throw ⟨.other, "[json.exception.type_error.305] cannot use operator[] with a numeric " ++
        "argument with " ++ other.typeName⟩

theorem containerName_nil {c : Json} (names : valueAt "Names" c = .ok (.arr [])) (id : ByteArray) :
    containerName c id = .ok id := by
  unfold containerName
  rw [names]
  rfl

theorem containerName_cons {c : Json} {first : ByteArray} {others : List Json}
    (names : valueAt "Names" c = .ok (.arr (.str first :: others))) (id : ByteArray) :
    containerName c id = if first.isEmpty then
        .error ⟨.other, "basic_string::substr: __pos (which is 1) > this->size() (which is 0)"⟩
      else .ok (first.extract 1 first.size) := by
  unfold containerName
  rw [names]
  rfl

variable {δ : Type} (d : Doubles δ)

/-- An exception gives 0.0. -/
def calcCpuPercent (stats : Json) : Except Fault δ :=
  match cpuCounters stats with
  | .ok c =>
      let cpu_delta := d.ofInt (subU64 c.total c.preTotal)
      let sys_delta := d.ofInt (subU64 c.system c.preSystem)
      if d.eq sys_delta (d.ofInt 0) then .ok (d.ofInt 0)
      else .ok (d.mul (d.mul (d.div cpu_delta sys_delta) (d.ofInt c.online_cpus)) (d.ofInt 100))
  | .error .threw => .ok (d.ofInt 0)
  | .error .undefined => .error .undefined

structure Usage (δ : Type) where
  cpu_pct : δ
  ram_mb : δ
  ram_limit_mb : δ
  ram_pct : δ

def usageOf (cpu_pct : δ) (stats : Json) : Usage δ :=
  match memoryCounters stats with
  | .ok (usage, limit) =>
      let usage := d.ofInt usage
      let limit := d.ofInt limit
      let mb := d.mul (d.ofInt 1024) (d.ofInt 1024)
      ⟨cpu_pct, d.div usage mb, d.div limit mb,
        if d.lt (d.ofInt 0) limit then d.mul (d.div usage limit) (d.ofInt 100) else d.ofInt 0⟩
  | .error _ => ⟨cpu_pct, d.ofInt 0, d.ofInt 0, d.ofInt 0⟩

/-- What `"Container %s (%s): CPU %.1f%% RAM %.1f MB"` prints. -/
def containerLine (name image : ByteArray) (u : Usage δ) : Bytes :=
  bytes "Container " ++ (cString name.data.toList ++ (bytes " (" ++ (cString image.data.toList ++
    (bytes "): CPU " ++ d.fixed1 u.cpu_pct ++ bytes "% RAM " ++ d.fixed1 u.ram_mb ++
      bytes " MB"))))

def statsEntry (id name image : ByteArray) (u : Usage δ) : Json :=
  .obj [("level", .text "INFO"),
    ("message", .str (toText (snprintf 256 (containerLine d name image u)))),
    ("metadata", .obj [("container_id", .str id), ("container_name", .str name),
      ("cpu_percent", d.toJson u.cpu_pct), ("image", .str image),
      ("ram_limit_mb", d.toJson u.ram_limit_mb), ("ram_mb", d.toJson u.ram_mb),
      ("ram_percent", d.toJson u.ram_pct)]),
    ("source", .text "docker_plugin")]

section Requests

variable (codec : Codec) (dockerGet : Nat → ByteArray → ByteArray)

/-- The answer to request `i`, which asks for the stats of a container, if it is one. -/
def statsAnswer (i : Nat) (id : ByteArray) : Option Json :=
  let stats_raw := dockerGet i
    ("/containers/".toByteArray ++ id ++ "/stats?stream=false".toByteArray)
  if stats_raw.isEmpty then none
  else
    match codec.parse stats_raw with
    | .ok stats => some stats
    | .error _ => none

/-- The turn of one container in the loop, with its request. -/
def containerEntry (i : Nat) (c : Json) : Except Fault (Option Json) := do
  let id ← caught (c.value Json.getString "Id" ByteArray.empty)
  let id := id.extract 0 12
  let name ← caught (containerName c id)
  let image ← caught (c.value Json.getString "Image" "unknown".toByteArray)
  match statsAnswer codec dockerGet i id with
  | none => pure none
  | some stats =>
      let cpu_pct ← calcCpuPercent d stats
      pure (some (statsEntry d id name image (usageOf d cpu_pct stats)))

/-- The loop over the containers, from request `i` on. -/
def containerEntries : Nat → List Json → Except Fault (List Json)
  | _, [] => .ok []
  | i, c :: rest => do
      let entry ← containerEntry d codec dockerGet i c
      let entries ← containerEntries (i + 1) rest
      pure (entry.toList ++ entries)

/-- `dockerGet i path` is what request `i` is answered, and empty when it fails. The result is
`none` when nothing is defined. -/
def collect : Option Outcome :=
  let containers_raw := dockerGet 0 "/containers/json".toByteArray
  if containers_raw.isEmpty then some (.text "[]".toByteArray)
  else
    match codec.parse containers_raw with
    | .ok (.arr containers) =>
        match containerEntries d codec dockerGet 1 containers with
        | .ok entries => some (arrayText codec entries)
        | .error .threw => some (.text "[]".toByteArray)
        | .error .undefined => none
    | _ => some (.text "[]".toByteArray)

end Requests

end OrbisAgent.Plugins.DockerStats
