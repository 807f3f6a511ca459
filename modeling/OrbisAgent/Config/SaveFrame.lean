/- OrbisAgent/Config/SaveFrame
   source: src/config/ConfigManager.cpp: save
   digest: A save keeps the other values of the file exactly if every assignment to another key
   that ends in a managed name already has the managed value. -/

import OrbisAgent.Config.SavedFile

set_option autoImplicit false
set_option relaxedAutoImplicit false

namespace OrbisAgent.Config.SaveFrame

open OrbisAgent.Config.Base64
open OrbisAgent.Config.ConfigManager
open OrbisAgent.Config.SavedFile
open OrbisAgent.Lib.ByteString
open OrbisAgent.Lib.Toml
open OrbisAgent.Lib.TomlText

/-- The two managed values, and the tables around them. -/
def Managed (p : List Step) : Prop := p <+: agentPath "device_id" ∨ p <+: agentPath "token"

/-- The text parses, and whatever else was at any path of the document is still there. -/
def FrameKept (parse : Bytes → Option Value) (root : Value) (text : Bytes) : Prop :=
  ∃ root', parse text = some root' ∧ ∀ p, ¬ Managed p →
    (root'.find p).map Value.surface = (root.find p).map Value.surface

/-- The assignments to other keys that the patterns of `save` match have the saved values. -/
def OthersEqual (ps : List Piece) (c : Manager) : Prop :=
  ∀ e, .basic e ∈ ps → ¬ Managed e.path →
    (bytes "device_id" <:+ e.key → e.value = c.device_id) ∧
      (bytes "token" <:+ e.key → e.value = c.token_encrypted)

variable {parse : Bytes → Option Value} {content : Bytes} {root : Value} {c : Manager}

theorem frameKept_of_othersEqual (reading : Reading parse) (parsed : parse content = some root)
    (inId : Contained (bytes "device_id") (reading.pieces content))
    (inToken : Contained (bytes "token") (reading.pieces content))
    (storable : Storable c.device_id) (isBase64 : ∀ b ∈ c.token_encrypted, b ∈ pad :: tbl)
    (equal : OthersEqual (reading.pieces content) c) :
    FrameKept parse root (savedText c content) := by
  obtain ⟨idPlain, tokenPlain, middle, root1, root2, first, parsed1, pieces1, second, parsed2, _⟩ :=
    savedText_parses reading parsed inId inToken storable isBase64
  refine ⟨root2, parsed2, fun p other => ?_⟩
  have kept1 : (root1.find p).map Value.surface = (root.find p).map Value.surface := by
    rw [first]
    refine reading.replace_surface parsed idPlain fun e mem there ends => ?_
    exact (equal e mem (there ▸ other)).1 ends
  have kept2 : (root2.find p).map Value.surface = (root1.find p).map Value.surface := by
    rw [second]
    refine reading.replace_surface parsed1 tokenPlain fun e' mem there ends => ?_
    rw [pieces1] at mem
    -- the first replacement has left an assignment to a token alone
    obtain ⟨e, before, _, key, ⟨endsId, _⟩ | ⟨_, rfl⟩⟩ := of_mem_patch idPlain mem
    · rw [key] at ends
      exact absurd ends (not_token_of_device_id endsId)
    · exact (equal e' before (there ▸ other)).2 ends
  rw [kept2, kept1]

theorem othersEqual_of_frameKept (reading : Reading parse) (parsed : parse content = some root)
    (inId : Contained (bytes "device_id") (reading.pieces content))
    (inToken : Contained (bytes "token") (reading.pieces content))
    (storable : Storable c.device_id) (isBase64 : ∀ b ∈ c.token_encrypted, b ∈ pad :: tbl)
    (kept : FrameKept parse root (savedText c content)) :
    OthersEqual (reading.pieces content) c := by
  obtain ⟨idPlain, tokenPlain, middle, root1, root2, _, _, pieces1, _, parsed2, pieces2⟩ :=
    savedText_parses reading parsed inId inToken storable isBase64
  obtain ⟨root', parsed', frame⟩ := kept
  obtain rfl := Option.some.inj (parsed2.symm.trans parsed')
  rw [pieces1] at pieces2
  intro e mem other
  have before := reading.reads parsed e mem
  have same := frame e.path other
  -- both documents have a string at the path
  have value : ∀ e', .basic e' ∈ reading.pieces (savedText c content) → e'.path = e.path →
      e.value = e'.value := by
    intro e' mem' path
    have after := reading.reads parsed2 e' mem'
    rw [path] at after
    rw [before, after] at same
    exact (Value.string.inj (Option.some.inj same)).symm
  rw [pieces2] at value
  constructor
  · intro ends
    have written := (mem_patch idPlain mem).1 ends
    have left := (mem_patch tokenPlain written).2 (not_token_of_device_id ends)
    exact value _ left rfl
  · intro ends
    have left := (mem_patch idPlain mem).2 fun endsId => not_token_of_device_id endsId ends
    have written := (mem_patch tokenPlain left).1 ends
    exact value _ written rfl

/-- A file with a token of something else, and a parser that knows it before and after. -/
def probeText (id token probe : Bytes) : Bytes :=
  bytes "[agent]\ndevice_id = \"" ++ id ++ bytes "\"\ntoken = \"" ++ token ++
    bytes "\"\n[probe]\nauth_token = \"" ++ probe ++ bytes "\"\n"

def probeRoot (id token probe : Bytes) : Value :=
  .table [(bytes "agent", .table [(bytes "device_id", .string id), (bytes "token", .string token)]),
    (bytes "probe", .table [(bytes "auth_token", .string probe)])]

def savedToken : Bytes := bytes "AAECAwQFBgcICQoLDA0OD6P88nv3HLPCTrEPgvM7t4o="

def parseProbe (text : Bytes) : Option Value :=
  if text = probeText [] [] (bytes "k") then some (probeRoot [] [] (bytes "k"))
  else if text = probeText sampleId savedToken savedToken then
    some (probeRoot sampleId savedToken savedToken)
  else none

end OrbisAgent.Config.SaveFrame
