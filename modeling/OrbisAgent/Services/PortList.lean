/- OrbisAgent/Services/PortList
   source: NetworkScanner::parsePorts, probePort (POSIX); scan (the loop over the ports)
   digest: The configured ports are read exactly if stoi rejects every token that is no port
   number. -/

import OrbisAgent.Lib.CText
import OrbisAgent.Services.NetworkScanner

set_option autoImplicit false
set_option relaxedAutoImplicit false

namespace OrbisAgent.Services.PortList

open OrbisAgent.Lib.ByteString
open OrbisAgent.Lib.CText
open OrbisAgent.Services.NetworkScanner

universe u v

def comma : UInt8 := 44

def space : UInt8 := 32

/-- Tokens that `stoi` rejects are skipped. -/
def parsePorts (range : Bytes) : List Int :=
  (getlines comma range).filterMap fun token => (stoi token).toOption

/-- The value of a decimal number from 1 to 65535 with nothing but spaces around it. -/
def portNumber (token : Bytes) : Option Int :=
  let rest := token.dropWhile (· == space)
  let digits := rest.takeWhile isDigit
  let behind := rest.dropWhile isDigit
  if !digits.isEmpty && behind.all (· == space) && 1 ≤ number digits && number digits ≤ 65535 then
    some (number digits)
  else none

/-- The number that `probePort` dials. -/
def dialled (port : Int) : Int := (UInt16.ofInt port).toNat

/-- The ports are those of the tokens that are port numbers, and each is dialled as the number
that is reported. -/
structure Exact (range : Bytes) : Prop where
  ports : parsePorts range = (getlines comma range).filterMap portNumber
  reported : ∀ port ∈ parsePorts range, dialled port = port

/-- Every token is a port number, or one that `stoi` rejects. -/
def Clean (range : Bytes) : Prop :=
  ∀ token ∈ getlines comma range, (portNumber token).isSome ∨ ∃ e, stoi token = .error e

/-- Spaces in front of a digit are blanks to `stoi`. -/
theorem dropWhile_isSpace {token rest : Bytes} {d : UInt8} (digit : isDigit d = true)
    (front : token.dropWhile (· == space) = d :: rest) : token.dropWhile isSpace = d :: rest := by
  induction token with
  | nil => cases front
  | cons b token ih =>
      by_cases blank : b = space
      · rw [List.dropWhile_cons, blank] at front ⊢
        exact ih front
      · rw [List.dropWhile_cons, beq_false_of_ne blank] at front
        obtain ⟨rfl, rfl⟩ := List.cons.inj front
        rw [List.dropWhile_cons, not_space_of_digit digit]
        rfl

/-- `stoi` reads a port number as it is. -/
theorem stoi_of_portNumber {token : Bytes} {port : Int} (found : portNumber token = some port) :
    stoi token = .ok port ∧ 1 ≤ port ∧ port ≤ 65535 := by
  unfold portNumber at found
  dsimp only at found
  split at found
  · rename_i shape
    simp only [Bool.and_eq_true, Bool.not_eq_true', decide_eq_true_eq] at shape
    obtain ⟨⟨⟨some, _⟩, low⟩, high⟩ := shape
    cases front : token.dropWhile (· == space) with
    | nil =>
        rw [front] at some
        cases some
    | cons d rest =>
        rw [front] at some low high found
        have digit : isDigit d = true := by
          by_cases digit : isDigit d = true
          · exact digit
          · rw [List.takeWhile_cons, if_neg digit] at some
            cases some
        obtain rfl := Option.some.inj found
        refine ⟨?_, by omega, by omega⟩
        unfold stoi
        rw [dropWhile_isSpace digit front, sign_of_digit digit]
        simp only [Bool.false_eq_true, if_false, some]
        rw [if_neg (by omega)]
  · cases found

section Partial

variable {α : Type u} {β : Type v} {f g : α → Option β}

/-- A partial function that extends another one gives no fewer values. -/
theorem length_filterMap_le (extends' : ∀ a b, g a = some b → f a = some b) (l : List α) :
    (l.filterMap g).length ≤ (l.filterMap f).length := by
  induction l with
  | nil => exact Nat.le_refl _
  | cons a l ih =>
      cases found : g a with
      | none =>
          rw [List.filterMap_cons_none found]
          cases other : f a with
          | none =>
              rw [List.filterMap_cons_none other]
              exact ih
          | some b =>
              rw [List.filterMap_cons_some other, List.length_cons]
              omega
      | some b =>
          rw [List.filterMap_cons_some found, List.filterMap_cons_some (extends' a b found),
            List.length_cons, List.length_cons]
          omega

/-- It gives the same values exactly if it is defined nowhere else. -/
theorem filterMap_eq_iff (extends' : ∀ a b, g a = some b → f a = some b) (l : List α) :
    l.filterMap f = l.filterMap g ↔ ∀ a ∈ l, (g a).isSome ∨ f a = none := by
  induction l with
  | nil => simp
  | cons a l ih =>
      rw [List.forall_mem_cons, ← ih]
      cases found : g a with
      | some b =>
          rw [List.filterMap_cons_some found, List.filterMap_cons_some (extends' a b found)]
          simp
      | none =>
          rw [List.filterMap_cons_none found]
          cases other : f a with
          | none =>
              rw [List.filterMap_cons_none other]
              simp
          | some b =>
              rw [List.filterMap_cons_some other]
              have shorter := length_filterMap_le extends' l
              constructor
              · intro same
                have lengths := congrArg List.length same
                rw [List.length_cons] at lengths
                omega
              · rintro ⟨impossible, _⟩
                simp at impossible

end Partial

theorem toOption_eq_none_iff {token : Bytes} :
    (stoi token).toOption = none ↔ ∃ e, stoi token = .error e := by
  cases read : stoi token with
  | ok port => simp [Except.toOption]
  | error e => simp [Except.toOption]

/-- The configured ports are read, dialled and reported exactly if `stoi` rejects every token
that is no port number. -/
theorem ports_exact_iff (range : Bytes) : Exact range ↔ Clean range := by
  have extends' : ∀ token port, portNumber token = some port →
      (stoi token).toOption = some port := by
    intro token port found
    rw [(stoi_of_portNumber found).1]
    rfl
  have same := filterMap_eq_iff extends' (getlines comma range)
  simp only [toOption_eq_none_iff] at same
  constructor
  · intro exact'
    exact same.mp exact'.ports
  · intro clean
    have ports : parsePorts range = (getlines comma range).filterMap portNumber := same.mpr clean
    refine ⟨ports, fun port mem => ?_⟩
    rw [ports] at mem
    obtain ⟨token, _, found⟩ := List.mem_filterMap.mp mem
    obtain ⟨_, low, high⟩ := stoi_of_portNumber found
    unfold dialled UInt16.ofInt
    rw [UInt16.toNat_ofNat']
    omega

/-- A port beyond 16 bits, a negative one and one with text behind it are taken, and the first
two are dialled as other ports. -/
theorem loose_ports_are_taken :
    let range := bytes "22,70000,-5,80x,x"
    parsePorts range = [22, 70000, -5, 80] ∧
      (getlines comma range).filterMap portNumber = [22] ∧
      (parsePorts range).map dialled = [22, 4464, 65531, 80] ∧ ¬ Exact range := by
  intro range
  have taken : parsePorts range = [22, 70000, -5, 80] := rfl
  have meant : (getlines comma range).filterMap portNumber = [22] := rfl
  refine ⟨taken, meant, rfl, fun exact' => ?_⟩
  have same := exact'.ports
  rw [taken, meant] at same
  cases same

end OrbisAgent.Services.PortList
