/- OrbisAgent/Mqtt/Backoff
   source: MQTTClientWrapper::reconnectLoop; README.md: `delay = min(max, min × 2^attempt)`
   digest: The delay before each reconnect attempt, the settings for which it is the documented one,
   and the delays a reconnect thread sleeps in any run. -/

import OrbisAgent.Lib.SignedInt
import OrbisAgent.Mqtt.Client
import Mathlib.Data.Int.ConditionallyCompleteOrder
import Mathlib.Tactic.Positivity

set_option autoImplicit false
set_option relaxedAutoImplicit false

namespace OrbisAgent.Mqtt.Backoff

universe u

open OrbisAgent.Lib.SignedInt
open OrbisAgent.Lib.Transition
open OrbisAgent.Mqtt.Client

/-- `1 << std::min(attempt, 10)` -/
def factor (arith : Arith 31) (attempt : Int) : Int :=
  arith.result (.shl 1 (min attempt 10).toNat)

/-- `delay` in `reconnectLoop`. -/
def reconnectDelay (arith : Arith 31) (reconnect_min_sec reconnect_max_sec attempt : Int) : Int :=
  min reconnect_max_sec (arith.result (.mul reconnect_min_sec (factor arith attempt)))

/-- The operations it takes. -/
def delayOps (arith : Arith 31) (reconnect_min_sec attempt : Int) : List IntOp :=
  [.shl 1 (min attempt 10).toNat, .mul reconnect_min_sec (factor arith attempt)]

/-- No operation overflows, and the delay is the documented one. -/
def Documented (lo hi : Int) (n : Nat) : Prop :=
  ∀ arith : Arith 31, (∀ op ∈ delayOps arith lo n, op.Defined 31) ∧
    reconnectDelay arith lo hi n = min hi (lo * 2 ^ n)

/-- The documented backoff between two settings, over all attempts. -/
structure Conforms (lo hi : Int) : Prop where
  documented : ∀ n, Documented lo hi n
  monotone : ∀ arith : Arith 31, Monotone fun n : Nat => reconnectDelay arith lo hi n
  within : ∀ (arith : Arith 31) (n : Nat),
    lo ≤ reconnectDelay arith lo hi n ∧ reconnectDelay arith lo hi n ≤ hi

variable {lo hi : Int} {n : Nat}

theorem exponent (n : Nat) : (min (n : Int) 10).toNat = min n 10 := by
  omega

theorem factor_defined (n : Nat) : (IntOp.shl 1 (min (n : Int) 10).toNat).Defined 31 := by
  have small : (2 : Int) ^ min n 10 ≤ 2 ^ 10 :=
    pow_le_pow_right₀ (by decide) (Nat.min_le_right n 10)
  have positive : (0 : Int) < 2 ^ min n 10 := by positivity
  rw [exponent]
  refine ⟨by decide, ?_, ?_⟩
  · omega
  · omega

theorem factor_eq (arith : Arith 31) (n : Nat) : factor arith n = 2 ^ min n 10 := by
  rw [factor, arith.result_of_defined _ (factor_defined n), exponent]
  exact one_mul _

/-- The product is the one operation that can overflow. -/
theorem delayOps_defined_iff (arith : Arith 31) (positive : 1 ≤ lo) :
    (∀ op ∈ delayOps arith lo n, op.Defined 31) ↔ lo * 2 ^ min n 10 < 2 ^ 31 := by
  have scaled : 0 < lo * 2 ^ min n 10 := Int.mul_pos (by omega) (by positivity)
  rw [delayOps, List.forall_mem_cons, List.forall_mem_singleton, factor_eq]
  constructor
  · rintro ⟨_, product⟩
    exact product.2
  · intro fits
    exact ⟨factor_defined n, by change -2 ^ 31 ≤ lo * 2 ^ min n 10; omega, fits⟩

theorem reconnectDelay_eq (arith : Arith 31) (positive : 1 ≤ lo)
    (fits : lo * 2 ^ min n 10 < 2 ^ 31) :
    reconnectDelay arith lo hi n = min hi (lo * 2 ^ min n 10) := by
  have defined := (delayOps_defined_iff arith positive).mpr fits
  rw [delayOps, List.forall_mem_cons, List.forall_mem_singleton] at defined
  rw [reconnectDelay, arith.result_of_defined _ defined.2, factor_eq]
  rfl

/-- The capped exponent shows where the maximum is not reached by then. -/
theorem capped_iff (positive : 1 ≤ lo) :
    min hi (lo * 2 ^ min n 10) = min hi (lo * 2 ^ n) ↔ n ≤ 10 ∨ hi ≤ lo * 2 ^ 10 := by
  rcases Nat.lt_or_ge 10 n with late | early
  · have step : (2 : Int) ^ 10 < 2 ^ n := pow_lt_pow_right₀ (by decide) late
    have grows := Int.mul_lt_mul_of_pos_left step (by omega : 0 < lo)
    rw [Nat.min_eq_right (by omega)]
    omega
  · rw [Nat.min_eq_left early]
    exact ⟨fun _ => .inl early, fun _ => rfl⟩

theorem documented_iff (positive : 1 ≤ lo) :
    Documented lo hi n ↔ lo * 2 ^ min n 10 < 2 ^ 31 ∧ (n ≤ 10 ∨ hi ≤ lo * 2 ^ 10) := by
  constructor
  · intro documented
    obtain ⟨defined, delay⟩ := documented (Arith.wrapping 31)
    have fits := (delayOps_defined_iff _ positive).mp defined
    rw [reconnectDelay_eq _ positive fits] at delay
    exact ⟨fits, (capped_iff positive).mp delay⟩
  · rintro ⟨fits, reached⟩ arith
    refine ⟨(delayOps_defined_iff arith positive).mpr fits, ?_⟩
    rw [reconnectDelay_eq arith positive fits]
    exact (capped_iff positive).mpr reached

theorem product_le (positive : 1 ≤ lo) {m n : Nat} (le : m ≤ n) : lo * 2 ^ m ≤ lo * 2 ^ n :=
  Int.mul_le_mul_of_nonneg_left (pow_le_pow_right₀ (by decide) le) (by omega)

/-- Where every attempt has the documented delay, the delays grow from the minimum. -/
theorem conforms_of_documented (positive : 1 ≤ lo) (ordered : lo ≤ hi)
    (documented : ∀ n, Documented lo hi n) : Conforms lo hi := by
  have delay : ∀ (arith : Arith 31) (n : Nat),
      reconnectDelay arith lo hi n = min hi (lo * 2 ^ n) := fun arith n => (documented n arith).2
  refine ⟨documented, ?_, ?_⟩
  · intro arith m n le
    have grown := product_le positive le
    change reconnectDelay arith lo hi m ≤ reconnectDelay arith lo hi n
    rw [delay, delay]
    omega
  · intro arith n
    have grown := product_le positive (Nat.zero_le n)
    rw [delay]
    omega

/-- The delay is the documented one unless the product overflows or the capped exponent shows.
Over all attempts: when the minimum times 1024 fits `int` and reaches the maximum. -/
theorem conforms_iff (positive : 1 ≤ lo) (ordered : lo ≤ hi) :
    (∀ n, Documented lo hi n ↔ lo * 2 ^ min n 10 < 2 ^ 31 ∧ (n ≤ 10 ∨ hi ≤ lo * 2 ^ 10)) ∧
      (Conforms lo hi ↔ lo * 2 ^ 10 < 2 ^ 31 ∧ hi ≤ lo * 2 ^ 10) := by
  refine ⟨fun n => documented_iff positive, ?_, ?_⟩
  · intro conforms
    obtain ⟨fits, reached⟩ := (documented_iff positive).mp (conforms.documented 11)
    exact ⟨fits, by omega⟩
  · rintro ⟨fits, reached⟩
    apply conforms_of_documented positive ordered
    intro n
    have below := product_le positive (Nat.min_le_right n 10)
    exact (documented_iff positive).mpr ⟨by omega, .inr reached⟩

/-- The settings of `config.toml.example`. -/
theorem conforms_defaults : (1 : Int) ≤ 60 ∧ Conforms 1 60 :=
  ⟨by decide, (conforms_iff (by decide) (by decide)).2.mpr (by decide)⟩

/-- A large minimum overflows into a negative delay; a large maximum is never reached. -/
theorem undocumented_delays :
    ¬ Documented 4000000 5000000 10 ∧
      reconnectDelay (Arith.wrapping 31) 4000000 5000000 10 = -198967296 ∧
      ¬ Documented 1 3600 12 ∧ reconnectDelay (Arith.wrapping 31) 1 3600 12 = 1024 := by
  refine ⟨?_, by decide +kernel, ?_, by decide +kernel⟩
  · intro documented
    have product := (documented (Arith.wrapping 31)).1 (.mul 4000000 1024) (by decide +kernel)
    revert product
    decide
  · intro documented
    have delay := (documented (Arith.wrapping 31)).2
    revert delay
    decide +kernel

/-! ### The delays of a run -/

variable {ι : Type u} {i j : ι} {s s' : Wrapper ι} {a : Act ι} {pc : Pc} {arith : Arith 31}

/-- The wrapper, and for each thread the local variable `attempt` of `reconnectLoop` and the
delays it has begun to sleep. No thread runs the loop twice. -/
structure Paced (ι : Type u) where
  wrapper : Wrapper ι
  attempt : ι → Int
  slept : ι → List Int

def Paced.start : Paced ι := ⟨.start, fun _ => 0, fun _ => []⟩

/-- Before the next delay, with `attempt` counting the delays so far. -/
def awaitsDelay : Pc → Bool
  | .idle | .testShutdown | .testConnected => true
  | _ => false

/-- Between a delay and `++attempt`. -/
def midRound : Pc → Bool
  | .sleeping | .connecting .reconnectLoop => true
  | _ => false

/-- As long as `attempt` stays within `int`, it counts the delays of the thread, and each delay is
the one of its number. -/
structure Counted (arith : Arith 31) (lo hi : Int) (pc : Pc) (attempt : Int) (slept : List Int) :
    Prop where
  delays : slept.length ≤ 2 ^ 31 → ∀ (n : Nat) (d : Int), slept[n]? = some d →
    d = reconnectDelay arith lo hi n
  waiting : awaitsDelay pc = true → slept.length < 2 ^ 31 → attempt = slept.length
  within : midRound pc = true → slept.length ≤ 2 ^ 31 → attempt + 1 = slept.length

variable {attempt : Int} {slept : List Int} {pc' : Pc}

theorem Counted.move (counted : Counted arith lo hi pc attempt slept)
    (waits : awaitsDelay pc' = true → awaitsDelay pc = true)
    (mid : midRound pc' = true → midRound pc = true) : Counted arith lo hi pc' attempt slept :=
  ⟨counted.delays, fun waiting => counted.waiting (waits waiting),
    fun within => counted.within (mid within)⟩

/-- `++attempt` -/
theorem Counted.fail (counted : Counted arith lo hi pc attempt slept) (mid : midRound pc = true) :
    Counted arith lo hi .testShutdown (arith.result (.add attempt 1)) slept := by
  refine ⟨counted.delays, ?_, nofun⟩
  intro _ short
  have count := counted.within mid (by omega)
  have defined : (IntOp.add attempt 1).Defined 31 := by
    constructor
    · change -2 ^ 31 ≤ attempt + 1
      omega
    · change attempt + 1 < 2 ^ 31
      omega
  rw [arith.result_of_defined _ defined]
  exact count

theorem Counted.delay (counted : Counted arith lo hi pc attempt slept)
    (waiting : awaitsDelay pc = true) :
    Counted arith lo hi .sleeping attempt (slept ++ [reconnectDelay arith lo hi attempt]) := by
  have grown : (slept ++ [reconnectDelay arith lo hi attempt]).length = slept.length + 1 := by
    rw [List.length_append, List.length_singleton]
  refine ⟨?_, nofun, ?_⟩
  · intro short n d entry
    rw [grown] at short
    have count := counted.waiting waiting (by omega)
    rcases Nat.lt_trichotomy n slept.length with earlier | last | later
    · rw [List.getElem?_append_left earlier] at entry
      exact counted.delays (by omega) n d entry
    · rw [last, List.getElem?_concat_length, count] at entry
      rw [last]
      exact (Option.some.inj entry).symm
    · rw [List.getElem?_eq_none (by omega)] at entry
      cases entry
  · intro _ short
    rw [grown] at short ⊢
    have count := counted.waiting waiting (by omega)
    omega

section Step

variable [DecidableEq ι]

def attemptAfter (arith : Arith 31) (p : Paced ι) : Act ι → ι → Int
  | .connect i false =>
      if p.wrapper.threads i = .connecting .reconnectLoop then
        Function.update p.attempt i (arith.result (.add (p.attempt i) 1))
      else p.attempt
  | _ => p.attempt

def sleptAfter (arith : Arith 31) (lo hi : Int) (p : Paced ι) (s : Wrapper ι) :
    Act ι → ι → List Int
  | .testConnected i =>
      if s.threads i = .sleeping then
        Function.update p.slept i (p.slept i ++ [reconnectDelay arith lo hi (p.attempt i)])
      else p.slept
  | _ => p.slept

def pace (arith : Arith 31) (lo hi : Int) (p : Paced ι) (a : Act ι) : Option (Paced ι) :=
  (step p.wrapper a).map fun s => ⟨s, attemptAfter arith p a, sleptAfter arith lo hi p s a⟩

theorem phase_frame (threads : s'.threads = Function.update s.threads j pc)
    (own : i = j → (awaitsDelay pc = true → awaitsDelay (s.threads j) = true) ∧
      (midRound pc = true → midRound (s.threads j) = true)) :
    (awaitsDelay (s'.threads i) = true → awaitsDelay (s.threads i) = true) ∧
      (midRound (s'.threads i) = true → midRound (s.threads i) = true) := by
  rw [threads]
  by_cases same : i = j
  · subst same
    rw [Function.update_self]
    exact own rfl
  · rw [Function.update_of_ne same]
    exact ⟨id, id⟩

/-- A thread enters a round by a delay and leaves it by a failed connect. -/
theorem phase_step (moves : Moves s a s')
    (failed : ¬ (a = .connect i false ∧ s.threads i = .connecting .reconnectLoop))
    (delayed : ¬ (a = .testConnected i ∧ s'.threads i = .sleeping)) :
    (awaitsDelay (s'.threads i) = true → awaitsDelay (s.threads i) = true) ∧
      (midRound (s'.threads i) = true → midRound (s.threads i) = true) := by
  cases moves with
  | connectFailed j caller here =>
      refine phase_frame rfl ?_
      rintro rfl
      cases caller with
      | connect => exact ⟨nofun, nofun⟩
      | reconnectLoop => exact absurd ⟨rfl, here⟩ failed
  | testShutdown j here =>
      refine phase_frame rfl fun _ => ?_
      rw [here]
      exact ⟨fun _ => rfl, by split <;> exact nofun⟩
  | testConnected j here =>
      refine phase_frame rfl ?_
      rintro rfl
      by_cases connected : s.connected = true
      · rw [if_pos connected]
        exact ⟨nofun, nofun⟩
      · refine absurd ⟨rfl, ?_⟩ delayed
        rw [setThread_same, if_neg connected]
  | wake j here =>
      refine phase_frame rfl fun _ => ?_
      rw [here]
      exact ⟨by split <;> exact nofun, fun _ => rfl⟩
  | spawn j k here running fresh =>
      have apart : k ≠ j := by
        rintro rfl
        rw [fresh] at here
        cases here
      have idle : (s.setThread j .returned).threads k = .idle := by
        rw [setThread_other s .returned apart, fresh]
      have ended : (awaitsDelay ((s.setThread j .returned).threads i) = true →
            awaitsDelay (s.threads i) = true) ∧
          (midRound ((s.setThread j .returned).threads i) = true →
            midRound (s.threads i) = true) :=
        phase_frame rfl fun _ => ⟨nofun, nofun⟩
      have started : (awaitsDelay (((s.setThread j .returned).setThread k .testShutdown).threads i)
              = true → awaitsDelay ((s.setThread j .returned).threads i) = true) ∧
          (midRound (((s.setThread j .returned).setThread k .testShutdown).threads i) = true →
            midRound ((s.setThread j .returned).threads i) = true) := by
        refine phase_frame rfl fun _ => ?_
        rw [idle]
        exact ⟨fun _ => rfl, nofun⟩
      exact ⟨ended.1 ∘ started.1, ended.2 ∘ started.2⟩
  | checkFlag j sub here | checkLink j sub here =>
      exact phase_frame rfl fun _ => ⟨by split <;> exact nofun, by split <;> exact nofun⟩
  | testDisconnect j destructor here =>
      refine phase_frame rfl fun _ => ⟨?_, ?_⟩
      · cases destructor <;> split <;> exact nofun
      · cases destructor <;> split <;> exact nofun
  | clearFlag j destructor here =>
      exact phase_frame rfl fun _ =>
        ⟨by cases destructor <;> exact nofun, by cases destructor <;> exact nofun⟩
  | callConnect j here | connectOk j caller here | setFlag j caller here | lockSubs j caller here
  | resubscribe j _ caller _ _ here | unlockSubs j caller here | notify j _ here | lose j here
  | clear j here | noSpawn j _ here | callSubscribe j _ here | register j _ here
  | subscribe j _ _ here | callDisconnect j here | callDestructor j here | closeLink j _ here
  | destroy j here =>
      exact phase_frame rfl fun _ => ⟨nofun, nofun⟩

theorem attemptAfter_other {p : Paced ι}
    (failed : ¬ (a = .connect i false ∧ p.wrapper.threads i = .connecting .reconnectLoop)) :
    attemptAfter arith p a i = p.attempt i := by
  unfold attemptAfter
  split
  · rename_i j
    by_cases here : p.wrapper.threads j = .connecting .reconnectLoop
    · rw [if_pos here]
      apply Function.update_of_ne
      rintro rfl
      exact failed ⟨rfl, here⟩
    · rw [if_neg here]
  · rfl

theorem sleptAfter_other {p : Paced ι}
    (delayed : ¬ (a = .testConnected i ∧ s.threads i = .sleeping)) :
    sleptAfter arith lo hi p s a i = p.slept i := by
  unfold sleptAfter
  split
  · rename_i j
    by_cases asleep : s.threads j = .sleeping
    · rw [if_pos asleep]
      apply Function.update_of_ne
      rintro rfl
      exact delayed ⟨rfl, asleep⟩
    · rw [if_neg asleep]
  · rfl

theorem counted_step {p q : Paced ι}
    (counted : ∀ i, Counted arith lo hi (p.wrapper.threads i) (p.attempt i) (p.slept i))
    (move : pace arith lo hi p a = some q) (i : ι) :
    Counted arith lo hi (q.wrapper.threads i) (q.attempt i) (q.slept i) := by
  obtain ⟨s, moved, rfl⟩ := Option.map_eq_some_iff.mp move
  have moves := moves_of_step moved
  change Counted arith lo hi (s.threads i) (attemptAfter arith p a i)
    (sleptAfter arith lo hi p s a i)
  by_cases failed : a = .connect i false ∧ p.wrapper.threads i = .connecting .reconnectLoop
  · obtain ⟨rfl, here⟩ := failed
    have place : s.threads i = .testShutdown := by
      cases moves with
      | connectFailed _ caller before =>
          rw [here] at before
          cases before
          rw [setThread_same]
          rfl
    have mid : midRound (p.wrapper.threads i) = true := by
      rw [here]
      rfl
    rw [place, attemptAfter, if_pos here, Function.update_self]
    exact (counted i).fail mid
  by_cases delayed : a = .testConnected i ∧ s.threads i = .sleeping
  · obtain ⟨rfl, asleep⟩ := delayed
    have waiting : awaitsDelay (p.wrapper.threads i) = true := by
      cases moves with
      | testConnected _ before =>
          rw [before]
          rfl
    rw [asleep, sleptAfter, if_pos asleep, Function.update_self]
    exact (counted i).delay waiting
  obtain ⟨waits, mid⟩ := phase_step moves failed delayed
  rw [attemptAfter_other failed, sleptAfter_other delayed]
  exact (counted i).move waits mid

/-- In every run, whatever the threads do, the delays a reconnect thread sleeps are those of the
attempts 0, 1, 2 and so on. -/
theorem slept_delay {p : Paced ι} (run : Reaches (pace arith lo hi) anyStep Paced.start p) (i : ι)
    (short : (p.slept i).length ≤ 2 ^ 31) (n : Nat) (d : Int) (entry : (p.slept i)[n]? = some d) :
    d = reconnectDelay arith lo hi n := by
  have counted : ∀ i, Counted arith lo hi (p.wrapper.threads i) (p.attempt i) (p.slept i) := by
    apply run.invariant (I := fun p => ∀ i,
      Counted arith lo hi (p.wrapper.threads i) (p.attempt i) (p.slept i))
    · intro i
      exact ⟨fun _ _ _ entry => (nomatch entry), fun _ _ => rfl, nofun⟩
    · intro p q a counted _ move
      exact counted_step counted move
  exact (counted i).delays short n d entry

/-- With settings that conform, every run backs off as documented. -/
theorem slept_documented (conforms : Conforms lo hi) {p : Paced ι}
    (run : Reaches (pace arith lo hi) anyStep Paced.start p) (i : ι)
    (short : (p.slept i).length ≤ 2 ^ 31) (n : Nat) (d : Int) (entry : (p.slept i)[n]? = some d) :
    d = min hi (lo * 2 ^ n) := by
  rw [slept_delay run i short n d entry]
  exact (conforms.documented n arith).2

end Step

end OrbisAgent.Mqtt.Backoff
