/- OrbisAgent/Cli/Arguments
   source: src/main.cpp, main (argument loop)
   digest: The options that an argument vector sets, for every vector. -/

import OrbisAgent.Constants
import OrbisAgent.Lib.ByteString

set_option autoImplicit false
set_option relaxedAutoImplicit false

namespace OrbisAgent.Cli.Arguments

open OrbisAgent.Constants (Platform DEFAULT_CONFIG_PATH)
open OrbisAgent.Lib.ByteString

structure Options where
  config_path : Bytes
  server_url : Bytes
  reg_token : Bytes
  uninstall_code : Bytes
  do_install : Bool
  do_uninstall : Bool
  do_run : Bool
  do_version : Bool
  do_status : Bool
  do_verify_uninstall : Bool
  deriving DecidableEq

def Options.default (platform : Platform) : Options :=
  ⟨bytes (DEFAULT_CONFIG_PATH platform), [], [], [], false, false, false, false, false, false⟩

/-- The argument loop. An option with a value takes the next argument whatever it
is; as the last argument it matches nothing, like an unknown one. -/
def parseArgs : List Bytes → Options → Options
  | [], o => o
  | arg :: rest, o =>
      if arg = bytes "--install" then parseArgs rest { o with do_install := true }
      else if arg = bytes "--uninstall" then parseArgs rest { o with do_uninstall := true }
      else if arg = bytes "--verify-uninstall-code" then
        parseArgs rest { o with do_verify_uninstall := true }
      else if arg = bytes "--run" then parseArgs rest { o with do_run := true }
      else if arg = bytes "--version" then parseArgs rest { o with do_version := true }
      else if arg = bytes "--status" then parseArgs rest { o with do_status := true }
      else if arg = bytes "--config" then
        match rest with
        | value :: rest => parseArgs rest { o with config_path := value }
        | [] => o
      else if arg = bytes "--server" then
        match rest with
        | value :: rest => parseArgs rest { o with server_url := value }
        | [] => o
      else if arg = bytes "--token" then
        match rest with
        | value :: rest => parseArgs rest { o with reg_token := value }
        | [] => o
      else if arg = bytes "--uninstall-code" then
        match rest with
        | value :: rest => parseArgs rest { o with uninstall_code := value }
        | [] => o
      else parseArgs rest o

/-- An argument before others that asks for the check of a code. -/
theorem parseArgs_verify (rest : List Bytes) (o : Options) :
    parseArgs (bytes "--verify-uninstall-code" :: rest) o =
      parseArgs rest { o with do_verify_uninstall := true } := by
  rw [parseArgs.eq_def (bytes "--verify-uninstall-code" :: rest) o]
  dsimp only
  rw [if_neg (by decide), if_neg (by decide), if_pos rfl]

/-- The code and the check are left as they are, and the version is asked for by its name. -/
def ReadLast (arg : Bytes) (o p : Options) : Prop :=
  p.uninstall_code = o.uninstall_code ∧
    (o.do_verify_uninstall = true → p.do_verify_uninstall = true) ∧
    p.do_version = (o.do_version || decide (arg = bytes "--version"))

/-- One test of the argument loop. -/
private theorem readLast_test {test : Prop} [Decidable test] {arg : Bytes} {o p q : Options}
    (here : test → ReadLast arg o p) (other : ¬ test → ReadLast arg o q) :
    ReadLast arg o (if test then p else q) := by
  by_cases taken : test
  · rw [if_pos taken]
    exact here taken
  · rw [if_neg taken]
    exact other taken

/-- A last argument supplies no value, and asks for the version only by its name. -/
theorem parseArgs_last (arg : Bytes) (o : Options) :
    (parseArgs [arg] o).uninstall_code = o.uninstall_code ∧
      (o.do_verify_uninstall = true → (parseArgs [arg] o).do_verify_uninstall = true) ∧
      (parseArgs [arg] o).do_version = (o.do_version || decide (arg = bytes "--version")) := by
  have leaves : ∀ {p : Options}, p.uninstall_code = o.uninstall_code →
      (o.do_verify_uninstall = true → p.do_verify_uninstall = true) →
      p.do_version = o.do_version → arg ≠ bytes "--version" → ReadLast arg o p := by
    intro p code check version other
    refine ⟨code, check, ?_⟩
    rw [version, decide_eq_false other, Bool.or_false]
  have apart : ∀ {s : String}, arg = bytes s → bytes s ≠ bytes "--version" →
      arg ≠ bytes "--version" := by
    rintro s rfl ne
    exact ne
  have read : ReadLast arg o (parseArgs [arg] o) := by
    rw [parseArgs.eq_def]
    dsimp only
    refine readLast_test (fun here => leaves rfl id rfl (apart here (by decide))) fun _ => ?_
    refine readLast_test (fun here => leaves rfl id rfl (apart here (by decide))) fun _ => ?_
    refine readLast_test (fun here => leaves rfl (fun _ => rfl) rfl (apart here (by decide)))
      fun _ => ?_
    refine readLast_test (fun here => leaves rfl id rfl (apart here (by decide))) fun _ => ?_
    refine readLast_test (fun here => ⟨rfl, id, ?_⟩) fun other => ?_
    · rw [decide_eq_true here, Bool.or_true]
      rfl
    refine readLast_test (fun _ => leaves rfl id rfl other) fun _ => ?_
    refine readLast_test (fun _ => leaves rfl id rfl other) fun _ => ?_
    refine readLast_test (fun _ => leaves rfl id rfl other) fun _ => ?_
    refine readLast_test (fun _ => leaves rfl id rfl other) fun _ => ?_
    exact readLast_test (fun _ => leaves rfl id rfl other) fun _ => leaves rfl id rfl other
  exact read

end OrbisAgent.Cli.Arguments
