/- OrbisAgent/Cli/Prerm
   source: packaging/linux/prerm
   digest: The removal script runs the agent with the code as an argument of its own, so the
   agent's argument loop decides by the text of the code and never sees it as a code. -/

import OrbisAgent.Cli.Uninstall

set_option autoImplicit false
set_option relaxedAutoImplicit false

namespace OrbisAgent.Cli.Prerm

open OrbisAgent.Cli.Arguments
open OrbisAgent.Cli.Main
open OrbisAgent.Cli.Uninstall
open OrbisAgent.Constants
open OrbisAgent.Lib.ByteString

/-- What the script reads: its first argument, the variable `ORBIS_UNINSTALL_CODE`
(empty when unset), the code typed when standard input is a terminal, and whether
`systemctl` is there. -/
structure Input where
  action : Bytes
  ORBIS_UNINSTALL_CODE : Bytes
  typed : Option Bytes
  systemctl : Bool

structure Result where
  status : Nat
  stdout : Bytes
  stderr : Bytes
  /-- The arguments of the calls of `systemctl`. -/
  calls : List Bytes
  deriving DecidableEq

/-- The part after the check: the failures of `systemctl` are ignored. -/
def stopService (input : Input) (stdout : Bytes) : Result :=
  if [bytes "remove", bytes "upgrade", bytes "deconfigure"].contains input.action &&
      input.systemctl then
    ⟨0, stdout, [], [bytes "stop orbis-agent.service", bytes "disable orbis-agent.service"]⟩
  else ⟨0, stdout, [], []⟩

/-- The arguments of the agent's call. -/
def agentArgs (CODE : Bytes) : List Bytes := [bytes "--verify-uninstall-code", CODE]

def prerm (d : Digest) (out : Outside) (input : Input) (m : Machine) : Result × Machine :=
  if (m.files (keyPath .linux)).isSome then
    let asks := input.ORBIS_UNINSTALL_CODE.isEmpty && input.typed.isSome
    let prompt :=
      if asks then bytes "Orbis Agent uninstall protection\nEnter uninstall code: \n" else []
    let CODE := if asks then input.typed.getD [] else input.ORBIS_UNINSTALL_CODE
    if CODE.isEmpty then
      (⟨1, prompt, bytes "Error: uninstall code required. " ++
        bytes "Set ORBIS_UNINSTALL_CODE or run interactively.\n", []⟩, m)
    else
      let (agent, after) := main d .linux out (agentArgs CODE) m
      let said := prompt ++ agent.stdout
      if agent.status = 0 then
        (stopService input (said ++ bytes "Uninstall code accepted.\n"), after)
      else (⟨1, said, bytes "Error: invalid uninstall code. Uninstall aborted.\n", []⟩, after)
  else (stopService input [], m)

variable {d : Digest}

theorem stopService_status (input : Input) (stdout : Bytes) :
    (stopService input stdout).status = 0 := by
  unfold stopService
  split <;> rfl

/-- The agent called by the script exits with 0 on the text `--version` only. -/
theorem agent_status (out : Outside) (m : Machine) (CODE : Bytes) :
    (main d .linux out (agentArgs CODE) m).1.status = 0 ↔ CODE = bytes "--version" := by
  have asked : ({ Options.default .linux with do_verify_uninstall := true } :
      Options).do_verify_uninstall = true := rfl
  obtain ⟨given, checks, version⟩ :=
    parseArgs_last CODE { Options.default .linux with do_verify_uninstall := true }
  have check := checks asked
  unfold main agentArgs
  rw [parseArgs_verify]
  dsimp only
  rw [version]
  by_cases named : CODE = bytes "--version"
  · rw [decide_eq_true named, Bool.or_true, if_pos rfl]
    exact iff_of_true rfl named
  · have noCode : (parseArgs [CODE]
        { Options.default .linux with do_verify_uninstall := true }).uninstall_code.isEmpty =
        true := by
      rw [given]
      rfl
    rw [decide_eq_false named, Bool.or_false, if_neg (by decide), check, if_pos rfl]
    unfold verify
    rw [noCode, if_pos rfl]
    exact iff_of_false Nat.one_ne_zero named

/-- A protected machine: the script accepts a code from the variable exactly when
the agent exits with 0. -/
theorem prerm_status {m : Machine} {code : Bytes} (stored : Stored d .linux m code)
    (out : Outside) (input : Input) (given : input.ORBIS_UNINSTALL_CODE ≠ []) :
    (prerm d out input m).1.status = 0 ↔
      (main d .linux out (agentArgs input.ORBIS_UNINSTALL_CODE) m).1.status = 0 := by
  obtain ⟨_, content, here, _⟩ := stored
  have some' : input.ORBIS_UNINSTALL_CODE.isEmpty = false := by
    rw [List.isEmpty_eq_false_iff]
    exact given
  unfold prerm
  simp only [here, Option.isSome_some, if_true, some', Bool.false_and, Bool.false_eq_true,
    if_false]
  split
  · rename_i accepted
    exact iff_of_true (stopService_status _ _) accepted
  · rename_i refused
    exact iff_of_false Nat.one_ne_zero refused

/-- The script accepts exactly the stored code when the supplied code is neither that
code nor `--version`, or is both. -/
theorem prerm_accepts_stored_code_iff (d : Digest) (out : Outside) (input : Input) (m : Machine)
    (code : Bytes) (stored : Stored d .linux m code)
    (given : input.ORBIS_UNINSTALL_CODE ≠ []) :
    ((prerm d out input m).1.status = 0 ↔ input.ORBIS_UNINSTALL_CODE = code) ↔
      (input.ORBIS_UNINSTALL_CODE = code ↔
        input.ORBIS_UNINSTALL_CODE = bytes "--version") := by
  have agent := agent_status (d := d) out m input.ORBIS_UNINSTALL_CODE
  rw [prerm_status stored out input given, agent]
  exact Iff.comm

/-- A machine on which `--install` stored the code s3cret. -/
def protectedMachine : Machine :=
  next sampleDigest .linux fresh
    (call ["--install", "--server", "ssl://host:8883", "--uninstall-code", "s3cret"])

def removal (code : String) : Input := ⟨bytes "remove", bytes code, none, true⟩

theorem wrong_code_is_refused :
    Stored sampleDigest .linux protectedMachine (bytes "s3cret") ∧
      ((prerm sampleDigest working (removal "wrong") protectedMachine).1.status = 0 ↔
        bytes "wrong" = bytes "s3cret") := by
  have stored : Stored sampleDigest .linux protectedMachine (bytes "s3cret") := by
    decide +kernel
  exact ⟨stored, (prerm_accepts_stored_code_iff sampleDigest working (removal "wrong")
    protectedMachine (bytes "s3cret") stored (by decide)).mpr (by decide)⟩

theorem stored_code_is_refused :
    Stored sampleDigest .linux protectedMachine (bytes "s3cret") ∧
      (prerm sampleDigest working (removal "s3cret") protectedMachine).1 =
        ⟨1, [], bytes "Error: invalid uninstall code. Uninstall aborted.\n", []⟩ ∧
      ¬ ((prerm sampleDigest working (removal "s3cret") protectedMachine).1.status = 0 ↔
        bytes "s3cret" = bytes "s3cret") := by
  refine ⟨by decide +kernel, by decide +kernel, by decide +kernel⟩

end OrbisAgent.Cli.Prerm
