/- OrbisAgent/Services/ShellTimeout
   source: CommandExecutor::runShell (POSIX) and CommandExecutor::workerLoop
   digest: The worker, the std::async task, the child process and the queue. After a timeout the
   worker goes on by itself exactly when the child is already gone. -/

import OrbisAgent.Lib.Transition

set_option autoImplicit false
set_option relaxedAutoImplicit false

namespace OrbisAgent.Services.ShellTimeout

open OrbisAgent.Lib.Transition

universe u

/-- The processes behind a `popen`: the bytes in the pipe, whether a process still
holds its write end, and the exit code of the shell. -/
structure Child where
  unread : Nat
  stdoutOpen : Bool
  exited : Option Int
  deriving DecidableEq

def Child.finished (child : Child) : Prop := child.stdoutOpen = false ∧ child.exited.isSome

/-- The lambda run by `std::async`, up to the value of its future. -/
inductive Task (κ : Type u)
  | none
  | starting (c : κ)
  | reading
  | closing
  | finished (exit_code : Int)
  deriving DecidableEq

inductive Outcome
  | timedOut
  | exited (exit_code : Int)
  deriving DecidableEq

/-- Where the worker is between two of its blocking points. -/
inductive Worker (κ : Type u)
  /-- At the head of the loops, with the queue lock. -/
  | loop
  | launching (c : κ)
  /-- In `fut.wait_for`. -/
  | waiting (c : κ)
  /-- The timeout fired: `return res` destroys the future first. -/
  | unwinding (c : κ)
  | reporting (c : κ) (r : Outcome)
  deriving DecidableEq

structure State (κ : Type u) where
  queue : List κ
  worker : Worker κ
  task : Task κ
  child : Option Child
  published : List (κ × Outcome)

variable {κ : Type u}

def State.start : State κ := ⟨[], .loop, .none, none, []⟩

inductive Act (κ : Type u)
  | enqueue (c : κ)
  | dequeue
  | launch
  | popen
  | read (n : Nat)
  | eof
  | reap
  | ready
  | timer
  | release
  | publish
  | childWrite (n : Nat)
  | childClose
  | childExit (exit_code : Int)

/-- One step. `spawns` says for which commands `popen` succeeds. The future is
ready when the task has finished, and its destructor waits for that. -/
def step (spawns : κ → Bool) (s : State κ) : Act κ → Option (State κ)
  | .enqueue c => some { s with queue := s.queue ++ [c] }
  | .dequeue =>
      match s.worker, s.queue with
      | .loop, c :: rest => some { s with worker := .launching c, queue := rest }
      | _, _ => none
  | .launch =>
      match s.worker with
      | .launching c => some { s with worker := .waiting c, task := .starting c, child := none }
      | _ => none
  | .popen =>
      match s.task with
      | .starting c =>
          if spawns c then some { s with task := .reading, child := some ⟨0, true, none⟩ }
          else some { s with task := .finished (-1) }
      | _ => none
  | .read n =>
      match s.task, s.child with
      | .reading, some child =>
          if 0 < n ∧ n ≤ child.unread then
            some { s with child := some { child with unread := child.unread - n } }
          else none
      | _, _ => none
  | .eof =>
      match s.task, s.child with
      | .reading, some ⟨0, false, _⟩ => some { s with task := .closing }
      | _, _ => none
  | .reap =>
      match s.task, s.child with
      | .closing, some ⟨_, _, some exit_code⟩ => some { s with task := .finished exit_code }
      | _, _ => none
  | .ready =>
      match s.worker, s.task with
      | .waiting c, .finished exit_code =>
          some { s with worker := .reporting c (.exited exit_code), task := .none }
      | _, _ => none
  | .timer =>
      match s.worker, s.task with
      | .waiting _, .finished _ => none
      | .waiting c, _ => some { s with worker := .unwinding c }
      | _, _ => none
  | .release =>
      match s.worker, s.task with
      | .unwinding c, .finished _ =>
          some { s with worker := .reporting c .timedOut, task := .none }
      | _, _ => none
  | .publish =>
      match s.worker with
      | .reporting c r => some { s with worker := .loop, published := s.published ++ [(c, r)] }
      | _ => none
  | .childWrite n =>
      match s.child with
      | some ⟨unread, true, exited⟩ => some { s with child := some ⟨unread + n, true, exited⟩ }
      | _ => none
  | .childClose =>
      match s.child with
      | some ⟨unread, true, exited⟩ => some { s with child := some ⟨unread, false, exited⟩ }
      | _ => none
  | .childExit exit_code =>
      match s.child with
      | some ⟨unread, stdoutOpen, none⟩ =>
          some { s with child := some ⟨unread, stdoutOpen, some exit_code⟩ }
      | _ => none

/-- The steps, one constructor each with what it needs. -/
inductive Moves (spawns : κ → Bool) (s : State κ) : Act κ → State κ → Prop
  | enqueue (c : κ) : Moves spawns s (.enqueue c) { s with queue := s.queue ++ [c] }
  | dequeue (c : κ) (rest : List κ) (idle : s.worker = .loop) (next : s.queue = c :: rest) :
      Moves spawns s .dequeue { s with worker := .launching c, queue := rest }
  | launch (c : κ) (here : s.worker = .launching c) :
      Moves spawns s .launch { s with worker := .waiting c, task := .starting c, child := none }
  | spawned (c : κ) (starting : s.task = .starting c) (spawn : spawns c = true) :
      Moves spawns s .popen { s with task := .reading, child := some ⟨0, true, none⟩ }
  | unspawned (c : κ) (starting : s.task = .starting c) (fail : spawns c = false) :
      Moves spawns s .popen { s with task := .finished (-1) }
  | read (n : Nat) (child : Child) (reading : s.task = .reading) (here : s.child = some child)
      (positive : 0 < n) (present : n ≤ child.unread) : Moves spawns s (.read n)
        { s with child := some { child with unread := child.unread - n } }
  | eof (exited : Option Int) (reading : s.task = .reading)
      (here : s.child = some ⟨0, false, exited⟩) : Moves spawns s .eof { s with task := .closing }
  | reap (unread : Nat) (stdoutOpen : Bool) (exit_code : Int) (closing : s.task = .closing)
      (here : s.child = some ⟨unread, stdoutOpen, some exit_code⟩) :
      Moves spawns s .reap { s with task := .finished exit_code }
  | ready (c : κ) (exit_code : Int) (waiting : s.worker = .waiting c)
      (finished : s.task = .finished exit_code) : Moves spawns s .ready
        { s with worker := .reporting c (.exited exit_code), task := .none }
  | timer (c : κ) (waiting : s.worker = .waiting c)
      (unfinished : ∀ exit_code, s.task ≠ .finished exit_code) :
      Moves spawns s .timer { s with worker := .unwinding c }
  | release (c : κ) (exit_code : Int) (unwinding : s.worker = .unwinding c)
      (finished : s.task = .finished exit_code) : Moves spawns s .release
        { s with worker := .reporting c .timedOut, task := .none }
  | publish (c : κ) (r : Outcome) (here : s.worker = .reporting c r) :
      Moves spawns s .publish { s with worker := .loop, published := s.published ++ [(c, r)] }
  | childWrite (n unread : Nat) (exited : Option Int)
      (here : s.child = some ⟨unread, true, exited⟩) :
      Moves spawns s (.childWrite n) { s with child := some ⟨unread + n, true, exited⟩ }
  | childClose (unread : Nat) (exited : Option Int) (here : s.child = some ⟨unread, true, exited⟩) :
      Moves spawns s .childClose { s with child := some ⟨unread, false, exited⟩ }
  | childExit (exit_code : Int) (unread : Nat) (stdoutOpen : Bool)
      (here : s.child = some ⟨unread, stdoutOpen, none⟩) : Moves spawns s (.childExit exit_code)
        { s with child := some ⟨unread, stdoutOpen, some exit_code⟩ }

theorem moves_of_step {spawns : κ → Bool} {s s' : State κ} {a : Act κ}
    (move : step spawns s a = some s') : Moves spawns s a s' := by
  cases a <;> simp only [step] at move
  case enqueue c =>
    cases move
    exact .enqueue c
  case dequeue =>
    split at move <;> cases move
    exact .dequeue _ _ ‹_› ‹_›
  case launch =>
    split at move <;> cases move
    exact .launch _ ‹_›
  case popen =>
    split at move
    · split at move <;> cases move
      · exact .spawned _ ‹_› ‹_›
      · exact .unspawned _ ‹_› (Bool.eq_false_iff.mpr ‹_›)
    · cases move
  case read n =>
    split at move
    · split at move <;> cases move
      rename_i bounds
      exact .read n _ ‹_› ‹_› bounds.1 bounds.2
    · cases move
  case eof =>
    split at move <;> cases move
    exact .eof _ ‹_› ‹_›
  case reap =>
    split at move <;> cases move
    exact .reap _ _ _ ‹_› ‹_›
  case ready =>
    split at move <;> cases move
    exact .ready _ _ ‹_› ‹_›
  case timer =>
    split at move <;> cases move
    rename_i c here unfinished
    exact .timer c here fun code done => unfinished code done
  case release =>
    split at move <;> cases move
    exact .release _ _ ‹_› ‹_›
  case publish =>
    split at move <;> cases move
    exact .publish _ _ ‹_›
  case childWrite n =>
    split at move <;> cases move
    exact .childWrite n _ _ ‹_›
  case childClose =>
    split at move <;> cases move
    exact .childClose _ _ ‹_›
  case childExit code =>
    split at move <;> cases move
    exact .childExit code _ _ ‹_›

/-- How the task and the child stand while the worker waits for command `c`. -/
def TaskOf (spawns : κ → Bool) (s : State κ) (c : κ) : Prop :=
  match s.task with
  | .none => False
  | .starting d => d = c ∧ s.child = none
  | .reading => spawns c = true ∧ s.child.isSome
  | .closing => spawns c = true ∧ ∃ child, s.child = some child ∧ child.stdoutOpen = false
  | .finished _ => spawns c = false ∨ ∃ child, s.child = some child ∧ child.finished

/-- There is a task exactly while the worker waits for it. -/
def Sane (spawns : κ → Bool) (s : State κ) : Prop :=
  match s.worker with
  | .waiting c | .unwinding c => TaskOf spawns s c
  | .loop | .launching _ | .reporting _ _ => s.task = .none

/-- The child never opens its output again and never comes back. -/
private theorem taskOf_child {spawns : κ → Bool} {s : State κ} {c : κ} {old new : Child}
    (before : TaskOf spawns s c) (here : s.child = some old)
    (closed : old.stdoutOpen = false → new.stdoutOpen = false)
    (finished : old.finished → new.finished) :
    TaskOf spawns { s with child := some new } c := by
  unfold TaskOf at before ⊢
  cases now : s.task with
  | none =>
      rw [now] at before
      exact before
  | starting d =>
      rw [now, here] at before
      cases before.2
  | reading =>
      rw [now] at before
      exact ⟨before.1, rfl⟩
  | closing =>
      rw [now] at before
      obtain ⟨spawn, child, there, shut⟩ := before
      rw [here] at there
      cases there
      exact ⟨spawn, new, rfl, closed shut⟩
  | finished exit_code =>
      rw [now] at before
      rcases before with fail | ⟨child, there, done⟩
      · exact .inl fail
      · rw [here] at there
        cases there
        exact .inr ⟨new, rfl, finished done⟩

private theorem taskOf_step {spawns : κ → Bool} {s s' : State κ} {a : Act κ} {c : κ}
    (before : TaskOf spawns s c) (move : Moves spawns s a s') (sameWorker : s'.worker = s.worker) :
    TaskOf spawns s' c := by
  cases move with
  | enqueue d => exact before
  | dequeue d rest idle next =>
      rw [idle] at sameWorker
      cases sameWorker
  | launch d here =>
      rw [here] at sameWorker
      cases sameWorker
  | spawned d starting spawn =>
      unfold TaskOf at before
      rw [starting] at before
      obtain ⟨rfl, _⟩ := before
      exact ⟨spawn, rfl⟩
  | unspawned d starting fail =>
      unfold TaskOf at before
      rw [starting] at before
      obtain ⟨rfl, _⟩ := before
      exact .inl fail
  | read n child reading here positive present =>
      exact taskOf_child before here (fun shut => shut) fun done => done
  | eof exited reading here =>
      unfold TaskOf at before
      rw [reading] at before
      exact ⟨before.1, _, here, rfl⟩
  | reap unread stdoutOpen exit_code closing here =>
      unfold TaskOf at before
      rw [closing] at before
      obtain ⟨_, child, there, closed⟩ := before
      rw [here] at there
      cases there
      exact .inr ⟨_, here, closed, rfl⟩
  | ready d exit_code waiting finished =>
      rw [waiting] at sameWorker
      cases sameWorker
  | timer d waiting unfinished =>
      rw [waiting] at sameWorker
      cases sameWorker
  | release d exit_code unwinding finished =>
      rw [unwinding] at sameWorker
      cases sameWorker
  | publish d r here =>
      rw [here] at sameWorker
      cases sameWorker
  | childWrite n unread exited here =>
      refine taskOf_child before here (fun shut => shut) fun done => ?_
      cases done.1
  | childClose unread exited here =>
      exact taskOf_child before here (fun _ => rfl) fun done => ⟨rfl, done.2⟩
  | childExit exit_code unread stdoutOpen here =>
      exact taskOf_child before here (fun shut => shut) fun done => ⟨done.1, rfl⟩

/-- Steps that leave the worker where it is keep the absence of a task. -/
private theorem no_task_step {spawns : κ → Bool} {s s' : State κ} {a : Act κ}
    (move : Moves spawns s a s') (sameWorker : s'.worker = s.worker) (idle : s.task = .none) :
    s'.task = .none := by
  cases move with
  | launch d here =>
      rw [here] at sameWorker
      cases sameWorker
  | spawned d starting _ | unspawned d starting _ =>
      rw [idle] at starting
      cases starting
  | eof exited reading _ =>
      rw [idle] at reading
      cases reading
  | reap unread stdoutOpen exit_code closing _ =>
      rw [idle] at closing
      cases closing
  | ready | release => rfl
  | enqueue | dequeue | read | timer | publish | childWrite | childClose | childExit => exact idle

private theorem sane_same {spawns : κ → Bool} {s s' : State κ} {a : Act κ}
    (before : Sane spawns s) (move : Moves spawns s a s') (sameWorker : s'.worker = s.worker) :
    Sane spawns s' := by
  unfold Sane at before ⊢
  rw [sameWorker]
  split at before
  · exact taskOf_step before move sameWorker
  · exact taskOf_step before move sameWorker
  · exact no_task_step move sameWorker before
  · exact no_task_step move sameWorker before
  · exact no_task_step move sameWorker before

theorem sane_step {spawns : κ → Bool} {s s' : State κ} {a : Act κ} (before : Sane spawns s)
    (move : Moves spawns s a s') : Sane spawns s' := by
  have original := move
  cases move with
  | dequeue c rest idle next =>
      unfold Sane at before
      rw [idle] at before
      exact before
  | launch c here => exact ⟨rfl, rfl⟩
  | ready | release => exact rfl
  | timer c waiting unfinished =>
      unfold Sane at before
      rw [waiting] at before
      exact before
  | publish c r here =>
      unfold Sane at before
      rw [here] at before
      exact before
  | enqueue | spawned | unspawned | read | eof | reap | childWrite | childClose | childExit =>
      exact sane_same before original rfl

theorem sane_of_run {spawns : κ → Bool} {s : State κ}
    (run : Reaches (step spawns) anyStep State.start s) : Sane spawns s := by
  have start : Sane spawns (State.start : State κ) := rfl
  exact run.invariant start fun _ _ _ before _ move => sane_step before (moves_of_step move)

/-- The guard of runs in which the child does nothing. -/
def withoutChild (_ : State κ) : Act κ → Prop
  | .childWrite _ | .childClose | .childExit _ => False
  | _ => True

/-- Where the worker stands once it has taken what was queued next. -/
def nextTaken (queue : List κ) : Worker κ :=
  match queue with
  | [] => .loop
  | c :: _ => .launching c

/-- The worker can publish the timed-out result and take the next command
without any step of the child. -/
def GoesOn (spawns : κ → Bool) (s : State κ) (c : κ) : Prop :=
  ∃ s', Reaches (step spawns) withoutChild s s' ∧
    s'.published = s.published ++ [(c, .timedOut)] ∧ s'.worker = nextTaken s.queue

/-- No process was started for the command, or it has exited and its output is closed. -/
def ChildGone (spawns : κ → Bool) (s : State κ) (c : κ) : Prop :=
  spawns c = false ∨ ∃ child, s.child = some child ∧ child.finished

/-- The worker is stuck in the destructor of the future. -/
structure Stuck (spawns : κ → Bool) (s : State κ) (c : κ) : Prop where
  unwinding : s.worker = .unwinding c
  alive : ¬ ChildGone spawns s c
  task : TaskOf spawns s c

private theorem gone_of_finished {spawns : κ → Bool} {s : State κ} {c : κ} {exit_code : Int}
    (task : TaskOf spawns s c) (finished : s.task = .finished exit_code) :
    ChildGone spawns s c := by
  unfold TaskOf at task
  rw [finished] at task
  exact task

/-- Only the child can end this. -/
theorem stuck_step {spawns : κ → Bool} {s s' : State κ} {a : Act κ} {c : κ}
    (stuck : Stuck spawns s c) (quiet : withoutChild s a) (move : Moves spawns s a s') :
    Stuck spawns s' c ∧ s'.published = s.published := by
  obtain ⟨unwinding, alive, task⟩ := stuck
  have next : s'.worker = s.worker → TaskOf spawns s' c := taskOf_step task move
  cases move with
  | enqueue d => exact ⟨⟨unwinding, alive, next rfl⟩, rfl⟩
  | dequeue d rest idle _ =>
      rw [unwinding] at idle
      cases idle
  | launch d here =>
      rw [unwinding] at here
      cases here
  | spawned d starting spawn =>
      have running : TaskOf spawns { s with task := .reading, child := some ⟨0, true, none⟩ } c :=
        next rfl
      refine ⟨⟨unwinding, ?_, running⟩, rfl⟩
      rintro (fail | ⟨child, here, done⟩)
      · rw [running.1] at fail
        cases fail
      · cases here
        cases done.1
  | unspawned d starting fail =>
      unfold TaskOf at task
      rw [starting] at task
      obtain ⟨rfl, _⟩ := task
      exact absurd (.inl fail) alive
  | read n child reading here positive present =>
      refine ⟨⟨unwinding, ?_, next rfl⟩, rfl⟩
      rintro (fail | ⟨child', there, done⟩)
      · exact alive (.inl fail)
      · cases there
        exact alive (.inr ⟨child, here, done⟩)
  | eof exited reading here => exact ⟨⟨unwinding, alive, next rfl⟩, rfl⟩
  | reap unread stdoutOpen exit_code closing here =>
      unfold TaskOf at task
      rw [closing] at task
      obtain ⟨_, child, there, closed⟩ := task
      rw [here] at there
      cases there
      exact absurd (.inr ⟨_, here, closed, rfl⟩) alive
  | ready d exit_code waiting _ =>
      rw [unwinding] at waiting
      cases waiting
  | timer d waiting _ =>
      rw [unwinding] at waiting
      cases waiting
  | release d exit_code _ finished => exact absurd (gone_of_finished task finished) alive
  | publish d r here =>
      rw [unwinding] at here
      cases here
  | childWrite | childClose | childExit => exact quiet.elim

theorem stuck_of_run {spawns : κ → Bool} {s s' : State κ} {c : κ} (stuck : Stuck spawns s c)
    (run : Reaches (step spawns) withoutChild s s') :
    Stuck spawns s' c ∧ s'.published = s.published := by
  refine run.invariant (I := fun t => Stuck spawns t c ∧ t.published = s.published)
    ⟨stuck, rfl⟩ fun t u a before quiet move => ?_
  obtain ⟨later, same⟩ := stuck_step before.1 quiet (moves_of_step move)
  exact ⟨later, same.trans before.2⟩

private theorem child_of_gone {spawns : κ → Bool} {s : State κ} {c : κ} (spawn : spawns c = true)
    (gone : ChildGone spawns s c) :
    ∃ unread exit_code, s.child = some ⟨unread, false, some exit_code⟩ := by
  rcases gone with fail | ⟨⟨unread, stdoutOpen, exited⟩, here, shut, left⟩
  · rw [spawn] at fail
    cases fail
  · obtain rfl : stdoutOpen = false := shut
    obtain ⟨exit_code, rfl⟩ := Option.isSome_iff_exists.mp left
    exact ⟨unread, exit_code, here⟩

/-- A task whose child is gone finishes by itself. -/
private theorem task_finishes {spawns : κ → Bool} {s : State κ} {c : κ}
    (task : TaskOf spawns s c) (gone : ChildGone spawns s c) :
    ∃ exit_code child, Reaches (step spawns) withoutChild s
      { s with task := .finished exit_code, child := child } := by
  obtain ⟨queue, worker, now, child, published⟩ := s
  have closes : ∀ unread exit_code, Reaches (step spawns) withoutChild
      ⟨queue, worker, .closing, some ⟨unread, false, some exit_code⟩, published⟩
      ⟨queue, worker, .finished exit_code, some ⟨unread, false, some exit_code⟩, published⟩ :=
    fun unread exit_code => Reaches.single (a := .reap) trivial rfl
  cases now with
  | none => exact task.elim
  | starting d =>
      obtain ⟨rfl, rfl⟩ := task
      rcases gone with fail | ⟨child, here, _⟩
      · refine ⟨-1, none, Reaches.single (a := .popen) trivial ?_⟩
        simp [step, fail]
      · cases here
  | reading =>
      obtain ⟨unread, exit_code, here⟩ := child_of_gone task.1 gone
      obtain rfl : child = some ⟨unread, false, some exit_code⟩ := here
      -- what is left in the pipe is read first, then comes the end of file
      have drains : Reaches (step spawns) withoutChild
          ⟨queue, worker, .reading, some ⟨unread, false, some exit_code⟩, published⟩
          ⟨queue, worker, .reading, some ⟨0, false, some exit_code⟩, published⟩ := by
        cases unread with
        | zero => exact Relation.ReflTransGen.refl
        | succ n =>
            refine Reaches.single (a := .read (n + 1)) trivial ?_
            simp [step]
      have ends : Reaches (step spawns) withoutChild
          ⟨queue, worker, .reading, some ⟨0, false, some exit_code⟩, published⟩
          ⟨queue, worker, .closing, some ⟨0, false, some exit_code⟩, published⟩ :=
        Reaches.single (a := .eof) trivial rfl
      exact ⟨exit_code, _, drains.trans (ends.trans (closes 0 exit_code))⟩
  | closing =>
      obtain ⟨unread, exit_code, here⟩ := child_of_gone task.1 gone
      obtain rfl : child = some ⟨unread, false, some exit_code⟩ := here
      exact ⟨exit_code, _, closes unread exit_code⟩
  | finished exit_code => exact ⟨exit_code, child, Relation.ReflTransGen.refl⟩

private theorem goesOn_of_gone {spawns : κ → Bool} {s : State κ} {c : κ}
    (unwinding : s.worker = .unwinding c) (task : TaskOf spawns s c)
    (gone : ChildGone spawns s c) : GoesOn spawns s c := by
  obtain ⟨exit_code, child, finishes⟩ := task_finishes task gone
  obtain ⟨queue, worker, now, was, published⟩ := s
  obtain rfl : worker = .unwinding c := unwinding
  have releases : Reaches (step spawns) withoutChild
      ⟨queue, .unwinding c, .finished exit_code, child, published⟩
      ⟨queue, .reporting c .timedOut, .none, child, published⟩ :=
    Reaches.single (a := .release) trivial rfl
  have publishes : Reaches (step spawns) withoutChild
      ⟨queue, .reporting c .timedOut, .none, child, published⟩
      ⟨queue, .loop, .none, child, published ++ [(c, .timedOut)]⟩ :=
    Reaches.single (a := .publish) trivial rfl
  have first := finishes.trans (releases.trans publishes)
  cases queue with
  | nil => exact ⟨_, first, rfl, rfl⟩
  | cons d rest =>
      have takes : Reaches (step spawns) withoutChild
          ⟨d :: rest, .loop, .none, child, published ++ [(c, .timedOut)]⟩
          ⟨rest, .launching d, .none, child, published ++ [(c, .timedOut)]⟩ :=
        Reaches.single (a := .dequeue) trivial rfl
      exact ⟨_, first.trans takes, rfl, rfl⟩

private theorem not_goesOn_of_stuck {spawns : κ → Bool} {s : State κ} {c : κ}
    (stuck : Stuck spawns s c) : ¬ GoesOn spawns s c := by
  rintro ⟨s', run, published, _⟩
  have same := (stuck_of_run stuck run).2
  rw [published] at same
  simp at same

/-- In every reachable state in which the timeout has fired, the worker can publish
the timed-out result and take the next command by itself if and only if the child
is gone. -/
theorem goes_on_after_timeout_iff_child_gone {spawns : κ → Bool} {s : State κ} {c : κ}
    (run : Reaches (step spawns) anyStep State.start s) (fired : s.worker = .unwinding c) :
    GoesOn spawns s c ↔ ChildGone spawns s c := by
  have sane := sane_of_run run
  unfold Sane at sane
  rw [fired] at sane
  constructor
  · intro goes
    refine Classical.byContradiction fun alive => ?_
    exact not_goesOn_of_stuck ⟨fired, alive, sane⟩ goes
  · intro gone
    exact goesOn_of_gone fired sane gone

/-- A command that exits a moment after its timeout. -/
theorem goes_on_once_child_has_exited :
    ∃ s : State String, Reaches (step fun _ => true) anyStep State.start s ∧
      s.worker = .unwinding "sleep 31" ∧ GoesOn (fun _ => true) s "sleep 31" := by
  let run : List (Act String) :=
    [.enqueue "sleep 31", .dequeue, .launch, .popen, .timer, .childClose, .childExit 0]
  have reached : ∃ s, exec (step fun _ => true) State.start run = some s ∧
      s.worker = .unwinding "sleep 31" ∧ s.child = some ⟨0, false, some 0⟩ :=
    ⟨_, rfl, rfl, rfl⟩
  obtain ⟨s, replay, fired, child⟩ := reached
  have path := exec_reaches_any replay
  exact ⟨s, path, fired, (goes_on_after_timeout_iff_child_gone path fired).mpr
    (.inr ⟨_, child, rfl, rfl⟩)⟩

/-- A command that never exits blocks the one behind it: in no run without a step
of the child does the worker get past the destructor of the future. -/
theorem endless_command_blocks_the_queue :
    ∃ s : State String, Reaches (step fun _ => true) anyStep State.start s ∧
      s.worker = .unwinding "sleep infinity" ∧ s.queue = ["uptime"] ∧
      ¬ GoesOn (fun _ => true) s "sleep infinity" ∧
      ∀ s', Reaches (step fun _ => true) withoutChild s s' →
        s'.worker = .unwinding "sleep infinity" := by
  let run : List (Act String) :=
    [.enqueue "sleep infinity", .enqueue "uptime", .dequeue, .launch, .popen, .timer]
  have reached : ∃ s, exec (step fun _ => true) State.start run = some s ∧
      s.worker = .unwinding "sleep infinity" ∧ s.queue = ["uptime"] ∧ s.task = .reading ∧
      s.child = some ⟨0, true, none⟩ := ⟨_, rfl, rfl, rfl, rfl, rfl⟩
  obtain ⟨s, replay, fired, queued, reading, child⟩ := reached
  have stuck : Stuck (fun _ => true) s "sleep infinity" := by
    refine ⟨fired, ?_, ?_⟩
    · rintro (fail | ⟨other, here, done⟩)
      · cases fail
      · rw [child] at here
        cases here
        cases done.1
    · unfold TaskOf
      rw [reading, child]
      exact ⟨rfl, rfl⟩
  exact ⟨s, exec_reaches_any replay, fired, queued, not_goesOn_of_stuck stuck,
    fun s' quiet => (stuck_of_run stuck quiet).1.unwinding⟩

end OrbisAgent.Services.ShellTimeout
