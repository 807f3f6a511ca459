/- OrbisAgent/Plugins/ItemIsolation
   source: src/plugins/docker_stats/docker_stats.cpp, src/plugins/disk/disk.cpp
   digest: When both plugins return one entry for each container or disk. A string cut inside a
   character makes the whole array disappear. -/

import OrbisAgent.Plugins.Disk
import OrbisAgent.Plugins.DockerStats

set_option autoImplicit false
set_option relaxedAutoImplicit false

namespace OrbisAgent.Plugins.ItemIsolation

open OrbisAgent.Lib.ByteString
open OrbisAgent.Lib.CText
open OrbisAgent.Lib.MachineNumbers
open OrbisAgent.Lib.Json
open OrbisAgent.Lib.JsonText (toText toText_toList)
open OrbisAgent.Lib.Utf8
open OrbisAgent.Plugins.ArrayText
open OrbisAgent.Plugins.Disk
open OrbisAgent.Plugins.DockerStats
open OrbisAgent.Plugins.PluginLoader (Outcome)

/-- A running container, and the stats that its request is answered with. -/
structure Container where
  id : ByteArray
  names : List ByteArray
  image : ByteArray
  stats : List (String × Json)

namespace Container

def shortId (x : Container) : ByteArray := x.id.extract 0 12

/-- The first name without its slash. -/
def shownName (x : Container) : ByteArray :=
  match x.names with
  | [] => x.shortId
  | first :: _ => first.extract 1 first.size

/-- What the array of the daemon says about the container. -/
def ListedAs (x : Container) (c : Json) : Prop :=
  ∃ fields, c = .obj fields ∧ fields.lookup "Id" = some (.str x.id) ∧
    fields.lookup "Names" = some (.arr (x.names.map .str)) ∧
    fields.lookup "Image" = some (.str x.image)

/-- An entry for the container. -/
def HasEntry (x : Container) (e : Json) : Prop :=
  ∃ fields metadata, e = .obj fields ∧ fields.lookup "metadata" = some (.obj metadata) ∧
    metadata.lookup "container_id" = some (.str x.shortId) ∧
    metadata.lookup "container_name" = some (.str x.shownName) ∧
    metadata.lookup "image" = some (.str x.image)

/-- The first name is not empty, and no read of the stats is undefined. -/
structure Readable (x : Container) : Prop where
  named : ∀ first ∈ x.names.head?, first.isEmpty = false
  counters : cpuCounters (.obj x.stats) ≠ .error .undefined

/-- The slash is a character, and the id, and the name or the image in the message, are cut
between two characters. -/
structure CutsBetween (x : Container) : Prop where
  id : CharacterAt x.id.data.toList 12
  slash : ∀ first ∈ x.names.head?, CharacterAt first.data.toList 1
  name : CharacterAt (cString x.shownName.data.toList) 245
  image : (cString x.shownName.data.toList).length ≤ 243 →
    CharacterAt (cString x.image.data.toList) (243 - (cString x.shownName.data.toList).length)

structure ValidTexts (x : Container) : Prop where
  id : Valid x.id.data.toList
  name : ∀ first ∈ x.names.head?, Valid first.data.toList
  image : Valid x.image.data.toList

end Container

section Docker

variable {δ : Type} {d : Doubles δ} {codec : Codec} {dockerGet : Nat → ByteArray → ByteArray}

/-- The containers of an array, and the requests from `i` on that ask for their stats. -/
inductive Answered (codec : Codec) (dockerGet : Nat → ByteArray → ByteArray) :
    Nat → List Json → List Container → Prop
  | nil (i : Nat) : Answered codec dockerGet i [] []
  | cons {i : Nat} {c : Json} {x : Container} {rest : List Json} {xs : List Container}
      (listed : x.ListedAs c)
      (answer : statsAnswer codec dockerGet i x.shortId = some (.obj x.stats))
      (others : Answered codec dockerGet (i + 1) rest xs) :
      Answered codec dockerGet i (c :: rest) (x :: xs)

theorem validTexts_of_listedAs {x : Container} {c : Json} (listed : x.ListedAs c)
    (valid : c.wellEncoded = true) : x.ValidTexts := by
  obtain ⟨fields, rfl, id, names, image⟩ := listed
  refine ⟨Json.wellEncoded_of_lookup valid id, fun first mem => ?_,
    Json.wellEncoded_of_lookup valid image⟩
  have all := Json.wellEncoded_of_lookup valid names
  have here : Json.str first ∈ x.names.map Json.str :=
    List.mem_map_of_mem (List.mem_of_mem_head? mem)
  exact Json.wellEncoded_of_mem all here

private theorem ascii_usage (u : Usage δ) :
    Ascii (bytes "): CPU " ++ d.fixed1 u.cpu_pct ++ bytes "% RAM " ++ d.fixed1 u.ram_mb ++
      bytes " MB") := by
  simp only [ascii_append]
  exact ⟨⟨⟨⟨by decide, d.ascii_fixed1 _⟩, by decide⟩, d.ascii_fixed1 _⟩, by decide⟩

/-- The line of valid texts is valid, and has no zero byte. -/
theorem containerLine_sound {name image : ByteArray} (validName : Valid name.data.toList)
    (validImage : Valid image.data.toList) (u : Usage δ) :
    Valid (containerLine d name image u) ∧ 0 ∉ containerLine d name image u := by
  have front : Ascii (bytes "Container ") := by decide
  have middle : Ascii (bytes " (") := by decide
  have usage := ascii_usage (d := d) u
  unfold containerLine
  constructor
  · have fromImage := validImage.cString.append usage.valid
    exact front.valid.append (validName.cString.append (middle.valid.append fromImage))
  · simp only [List.mem_append, not_or]
    have rest := usage.zero_notMem
    simp only [List.mem_append, not_or] at rest
    exact ⟨front.zero_notMem, zero_notMem_cString _, middle.zero_notMem, zero_notMem_cString _,
      rest⟩

/-- Only the name and the image can be cut inside a character. -/
theorem characterAt_containerLine (name image : ByteArray) (u : Usage δ) :
    CharacterAt (containerLine d name image u) 255 ↔
      CharacterAt (cString name.data.toList) 245 ∧
        ((cString name.data.toList).length ≤ 243 → CharacterAt (cString image.data.toList)
          (243 - (cString name.data.toList).length)) := by
  have front : Ascii (bytes "Container ") := by decide
  have middle : Ascii (bytes " (") := by decide
  have usage := ascii_usage (d := d) u
  have ten : (bytes "Container ").length = 10 := rfl
  have two : (bytes " (").length = 2 := rfl
  unfold containerLine
  generalize cString name.data.toList = shown, cString image.data.toList = pulled
  have gap : 255 - 10 - shown.length - 2 = 243 - shown.length := by omega
  rw [characterAt_append, characterAt_append, characterAt_append, characterAt_append, ten, two, gap]
  constructor
  · intro line
    obtain ⟨inName, rest⟩ := line.2 (by omega)
    refine ⟨inName, fun short => ?_⟩
    exact ((rest (by omega)).2 (by omega)).1
  · rintro ⟨inName, inImage⟩
    refine ⟨front.characterAt, fun _ => ⟨inName, fun _ => ⟨middle.characterAt, fun room => ?_⟩⟩⟩
    exact ⟨inImage (by omega), fun _ => usage.characterAt⟩

theorem valid_shortId_iff {x : Container} (valid : x.ValidTexts) :
    x.shortId.validateUTF8 = true ↔ CharacterAt x.id.data.toList 12 := by
  rw [← valid_take_iff valid.id, Valid, toText_take]
  exact Iff.rfl

theorem valid_shownName_iff {x : Container} (valid : x.ValidTexts) :
    x.shownName.validateUTF8 = true ↔
      (x.names = [] → x.shortId.validateUTF8 = true) ∧
        ∀ first ∈ x.names.head?, CharacterAt first.data.toList 1 := by
  have validName := valid.name
  unfold Container.shownName
  cases names : x.names with
  | nil => simp
  | cons first others =>
      rw [names] at validName
      have slash := valid_drop_iff (n := 1) (validName first rfl)
      rw [Valid, toText_drop, toText_toList] at slash
      simpa using slash

/-- The entry of a container can be serialised just when its texts are cut between two
characters. -/
theorem wellEncoded_statsEntry {x : Container} (valid : x.ValidTexts) (u : Usage δ) :
    (statsEntry d x.shortId x.shownName x.image u).wellEncoded = true ↔ x.CutsBetween := by
  have encoded : (statsEntry d x.shortId x.shownName x.image u).wellEncoded = true ↔
      Valid (snprintf 256 (containerLine d x.shownName x.image u)) ∧
        x.shortId.validateUTF8 = true ∧ x.shownName.validateUTF8 = true := by
    have image : x.image.validateUTF8 = true := valid.image
    simp [statsEntry, Valid, image]
  have message : x.shownName.validateUTF8 = true →
      (Valid (snprintf 256 (containerLine d x.shownName x.image u)) ↔
        CharacterAt (containerLine d x.shownName x.image u) 255) := by
    intro name
    obtain ⟨line, solid⟩ := containerLine_sound (d := d) name valid.image u
    exact valid_snprintf_iff line solid
  rw [encoded]
  constructor
  · rintro ⟨cut, id, name⟩
    rw [message name, characterAt_containerLine] at cut
    exact ⟨(valid_shortId_iff valid).mp id, ((valid_shownName_iff valid).mp name).2, cut.1, cut.2⟩
  · rintro ⟨id, slash, inName, inImage⟩
    have short := (valid_shortId_iff valid).mpr id
    have name := (valid_shownName_iff valid).mpr ⟨fun _ => short, slash⟩
    rw [message name, characterAt_containerLine]
    exact ⟨⟨inName, inImage⟩, short, name⟩

/-- A first name that is not empty is shown; on an empty one `substr(1)` throws. -/
theorem containerName_of_listedAs {x : Container} {c : Json} (listed : x.ListedAs c) :
    ((∀ first ∈ x.names.head?, first.isEmpty = false) ∧
      containerName c x.shortId = .ok x.shownName) ∨
    (¬ (∀ first ∈ x.names.head?, first.isEmpty = false) ∧
      ∃ e, containerName c x.shortId = .error e) := by
  obtain ⟨fields, rfl, _, listedNames, _⟩ := listed
  have found : valueAt "Names" (.obj fields) = .ok (.arr (x.names.map .str)) := by
    rw [valueAt, listedNames]
    rfl
  unfold Container.shownName
  cases names : x.names with
  | nil =>
      rw [names] at found
      exact .inl ⟨nofun, containerName_nil found x.shortId⟩
  | cons first others =>
      rw [names] at found
      rw [containerName_cons found]
      cases empty : first.isEmpty with
      | false =>
          refine .inl ⟨fun name mem => ?_, rfl⟩
          obtain rfl := Option.some.inj mem
          exact empty
      | true =>
          refine .inr ⟨fun all => ?_, _, rfl⟩
          rw [all first rfl] at empty
          cases empty

/-- The CPU percentage is defined unless a read of the stats is not. -/
theorem calcCpuPercent_cases (stats : Json) :
    (cpuCounters stats ≠ .error .undefined ∧ ∃ cpu_pct, calcCpuPercent d stats = .ok cpu_pct) ∨
      (cpuCounters stats = .error .undefined ∧
        calcCpuPercent d stats = .error .undefined) := by
  unfold calcCpuPercent
  cases cpuCounters stats with
  | ok c =>
      refine .inl ⟨nofun, ?_⟩
      dsimp only
      split
      · exact ⟨_, rfl⟩
      · exact ⟨_, rfl⟩
  | error fault =>
      cases fault with
      | threw => exact .inl ⟨nofun, _, rfl⟩
      | undefined => exact .inr ⟨rfl, rfl⟩

/-- The turn of a container of the array. -/
theorem containerEntry_of_listedAs {x : Container} {c : Json} {i : Nat} (listed : x.ListedAs c)
    (answer : statsAnswer codec dockerGet i x.shortId = some (.obj x.stats)) :
    (x.Readable ∧ ∃ u, containerEntry d codec dockerGet i c =
      .ok (some (statsEntry d x.shortId x.shownName x.image u))) ∨
    (¬ x.Readable ∧ ∃ fault, containerEntry d codec dockerGet i c = .error fault) := by
  have turn : containerEntry d codec dockerGet i c =
      (caught (containerName c x.shortId)).bind fun name =>
        (calcCpuPercent d (.obj x.stats)).bind fun cpu_pct =>
          .ok (some (statsEntry d x.shortId name x.image (usageOf d cpu_pct (.obj x.stats)))) := by
    obtain ⟨fields, rfl, id, _, image⟩ := listed
    unfold containerEntry
    rw [Json.value_obj, Json.value_obj, id, image]
    have readId : caught (Json.str x.id).getString = .ok x.id := rfl
    have readImage : caught (Json.str x.image).getString = .ok x.image := rfl
    have stats : statsAnswer codec dockerGet i (x.id.extract 0 12) = some (.obj x.stats) := answer
    simp only [bind, Except.bind, readId, readImage, stats]
    rfl
  rw [turn]
  rcases containerName_of_listedAs listed with ⟨named, shown⟩ | ⟨unnamed, e, threw⟩
  · rw [shown]
    rcases calcCpuPercent_cases (d := d) (.obj x.stats) with ⟨read, cpu, defined⟩ | ⟨lost, not⟩
    · exact .inl ⟨⟨named, read⟩, usageOf d cpu (.obj x.stats), by rw [defined]; rfl⟩
    · refine .inr ⟨fun readable => readable.counters lost, .undefined, ?_⟩
      rw [not]
      rfl
  · rw [threw]
    exact .inr ⟨fun readable => unnamed readable.named, .threw, rfl⟩

/-- The loop over the containers. -/
theorem containerEntries_of_answered {i : Nat} {containers : List Json} {xs : List Container}
    (answered : Answered codec dockerGet i containers xs) :
    ((∀ x ∈ xs, x.Readable) ∧ ∃ entries, containerEntries d codec dockerGet i containers =
        .ok entries ∧ List.Forall₂ (fun x e => ∃ u, e =
          statsEntry d x.shortId x.shownName x.image u) xs entries) ∨
      (¬ (∀ x ∈ xs, x.Readable) ∧
        ∃ fault, containerEntries d codec dockerGet i containers = .error fault) := by
  induction answered with
  | nil i => exact .inl ⟨nofun, [], rfl, .nil⟩
  | @cons i c x rest xs listed answer others ih =>
      simp only [containerEntries, List.forall_mem_cons]
      rcases containerEntry_of_listedAs (d := d) listed answer with
        ⟨readable, u, first⟩ | ⟨unreadable, fault, stops⟩
      · rw [first]
        rcases ih with ⟨all, entries, later, each⟩ | ⟨some, fault, stops⟩
        · rw [later]
          exact .inl ⟨⟨readable, all⟩, _ :: entries, rfl, .cons ⟨u, rfl⟩ each⟩
        · rw [stops]
          exact .inr ⟨fun both => some both.2, fault, rfl⟩
      · rw [stops]
        exact .inr ⟨fun both => unreadable both.1, fault, rfl⟩

theorem listedAs_of_answered {i : Nat} {containers : List Json} {xs : List Container}
    (answered : Answered codec dockerGet i containers xs) :
    ∀ x ∈ xs, ∃ c ∈ containers, x.ListedAs c := by
  induction answered with
  | nil i => exact nofun
  | @cons i c x rest xs listed answer others ih =>
      intro y mem
      rcases List.mem_cons.mp mem with rfl | later
      · exact ⟨c, List.mem_cons_self, listed⟩
      · obtain ⟨c', here, listed'⟩ := ih y later
        exact ⟨c', List.mem_cons_of_mem c here, listed'⟩

/-- The docker plugin returns an entry for each container exactly when all of them can be read
and all of their texts are cut between two characters. -/
theorem docker_returns_iff {containers : List Json} {xs : List Container}
    (tells : TellsEmpty codec)
    (reached : (dockerGet 0 "/containers/json".toByteArray).isEmpty = false)
    (parsed : codec.parse (dockerGet 0 "/containers/json".toByteArray) = .ok (.arr containers))
    (answered : Answered codec dockerGet 1 containers xs) :
    ReturnsOneEach codec Container.HasEntry xs (DockerStats.collect d codec dockerGet) ↔
      ∀ x ∈ xs, x.Readable ∧ x.CutsBetween := by
  have validTexts : ∀ x ∈ xs, x.ValidTexts := by
    intro x mem
    obtain ⟨c, here, listed⟩ := listedAs_of_answered answered x mem
    have encoded := codec.wellEncoded_of_parse _ _ parsed
    exact validTexts_of_listedAs listed (Json.wellEncoded_of_mem encoded here)
  unfold DockerStats.collect
  dsimp only
  rw [reached, if_neg Bool.false_ne_true, parsed]
  dsimp only
  rcases containerEntries_of_answered (d := d) answered with
    ⟨readable, entries, built, each⟩ | ⟨unreadable, fault, stops⟩
  · rw [built]
    have described : List.Forall₂ Container.HasEntry xs entries := by
      refine each.imp ?_
      rintro x e ⟨u, rfl⟩
      exact ⟨_, _, rfl, rfl, rfl, rfl, rfl⟩
    have cuts : (∀ e ∈ entries, e.wellEncoded = true) ↔ ∀ x ∈ xs, x.CutsBetween := by
      refine forall_entries_iff each ?_
      rintro x mem e ⟨u, rfl⟩
      exact wellEncoded_statsEntry (validTexts x mem) u
    rw [returnsOneEach_arrayText tells described, cuts]
    exact ⟨fun all x mem => ⟨readable x mem, all x mem⟩, fun all x mem => (all x mem).2⟩
  · rw [stops]
    constructor
    · intro returns
      cases fault with
      | threw =>
          obtain rfl := items_eq_nil tells returns
          exact nofun
      | undefined =>
          obtain ⟨entries, same, _⟩ := returns
          cases same
    · exact fun all => absurd (fun x mem => (all x mem).1) unreadable

end Docker

/-- The disk plugin returns an entry for each disk exactly when the message of each cuts its
mount path between two characters. -/
theorem disk_returns_iff {δ : Type} {d : Doubles δ} {codec : Codec} {disks : List (DiskInfo δ)}
    (tells : TellsEmpty codec) (valid : ∀ x ∈ disks, x.mount.validateUTF8 = true) :
    ReturnsOneEach codec ForDisk disks (some (Disk.collect d codec disks)) ↔
      ∀ x ∈ disks, CharacterAt (cString x.mount.data.toList) 122 := by
  have built : List.Forall₂ (fun x e => e = diskEntry d x) disks (disks.map (diskEntry d)) := by
    rw [List.forall₂_map_right_iff, List.forall₂_same]
    exact fun x _ => rfl
  have described : List.Forall₂ ForDisk disks (disks.map (diskEntry d)) := by
    refine built.imp ?_
    rintro x e rfl
    exact forDisk_diskEntry x
  unfold Disk.collect
  rw [returnsOneEach_arrayText tells described]
  refine forall_entries_iff built ?_
  rintro x mem e rfl
  exact wellEncoded_diskEntry (valid x mem)


/-- On Linux the disks are those of at most eight mounts that are not passed over. -/
theorem mounts_return_iff {δ : Type} {d : Doubles δ} {codec : Codec}
    {statvfs : ByteArray → Option Statvfs} {mounts : List Mount} {disks : List (DiskInfo δ)}
    (tells : TellsEmpty codec) (mounted : mounts.filterMap (mountedDisk d statvfs) = disks)
    (few : disks.length ≤ 8) (valid : ∀ x ∈ disks, x.mount.validateUTF8 = true) :
    ReturnsOneEach codec ForDisk disks
        (some (Disk.collect d codec (gatherDisks d statvfs mounts))) ↔
      ∀ x ∈ disks, CharacterAt (cString x.mount.data.toList) 122 := by
  rw [gatherDisks_eq, mounted, List.take_of_length_le few]
  exact disk_returns_iff tells valid

/-- Doubles that are 0.0 or 100.0. -/
def wholeDoubles : Doubles Int where
  ofInt := id
  sub := Int.sub
  mul := Int.mul
  div := Int.tdiv
  eq m n := m == n
  le m n := decide (m ≤ n)
  lt m n := decide (m < n)
  fixed1 n := if n = 100 then bytes "100.0" else bytes "0.0"
  toJson n := .float n 0
  ascii_fixed1 n := by
    split
    · decide
    · decide
  wellEncoded_toJson _ := rfl

/-- The stats of a container that has used nothing. -/
def idleStats : List (String × Json) :=
  [("cpu_stats", .obj [("cpu_usage", .obj [("total_usage", .int 0)]), ("online_cpus", .int 1),
      ("system_cpu_usage", .int 0)]),
    ("precpu_stats", .obj [("cpu_usage", .obj [("total_usage", .int 0)]),
      ("system_cpu_usage", .int 0)])]

def idle (id name image : String) : Container where
  id := id.toByteArray
  names := [name.toByteArray]
  image := image.toByteArray
  stats := idleStats

def web : Container := idle "4c01db0b339c" "/web" "nginx"

def db : Container := idle "9f" "/db" "postgres"

def listed (id name image : String) : Json :=
  .obj [("Id", .text id), ("Image", .text image), ("Names", .arr [.text name])]

def webListing : Json :=
  .arr [listed "4c01db0b339c" "/web" "nginx", listed "9f" "/db" "postgres"]

def webCodec : Codec :=
  Codec.plain [webListing, .obj idleStats] (by
    intro j mem
    simp only [List.mem_cons, List.not_mem_nil, or_false] at mem
    rcases mem with rfl | rfl
    · simp [webListing, listed]
    · simp [idleStats])

def webDaemon (i : Nat) (_ : ByteArray) : ByteArray :=
  (plainText (if i = 0 then webListing else .obj idleStats)).toByteArray

def fullDisk (mount : String) : DiskInfo Int := ⟨mount.toByteArray, 20, 20, 100⟩

theorem idle_fine {id name image : String} (named : name.toByteArray.isEmpty = false)
    (cuts : (idle id name image).CutsBetween) :
    (idle id name image).Readable ∧ (idle id name image).CutsBetween := by
  have counters : cpuCounters (.obj idleStats) = .ok ⟨0, 0, 0, 0, 1⟩ := rfl
  refine ⟨⟨fun first here => ?_, ?_⟩, cuts⟩
  · obtain rfl := Option.some.inj here
    exact named
  · change cpuCounters (.obj idleStats) ≠ _
    rw [counters]
    exact nofun

/-- A path whose 122nd and 123rd byte are one character. -/
def accentedPath : String := "/" ++ String.ofList (List.replicate 120 'a') ++ "é"

end OrbisAgent.Plugins.ItemIsolation
