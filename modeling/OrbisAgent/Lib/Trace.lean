/- OrbisAgent/Lib/Trace
   generality: G
   digest: What a computation with exceptions appends to a log, with rules for each way of
   combining computations. -/

set_option autoImplicit false
set_option relaxedAutoImplicit false

namespace OrbisAgent.Lib.Trace

universe u

variable {ε σ τ α β : Type u}

/-- Computations over a state that may throw and keep the state when they do. -/
abbrev Prog (ε σ α : Type u) := ExceptT ε (StateM σ) α

/-- Run from a state: how it ended, and the state afterwards. -/
def Prog.exec (x : Prog ε σ α) (s : σ) : Except ε α × σ := StateT.run (ExceptT.run x) s

/-- A computation outside the state, as a step of a program. -/
def lift (x : Except ε α) : Prog ε σ α := ExceptT.mk (pure x)

@[simp] theorem exec_pure (a : α) (s : σ) : (pure a : Prog ε σ α).exec s = (.ok a, s) := rfl

@[simp] theorem exec_throw (e : ε) (s : σ) : (throw e : Prog ε σ α).exec s = (.error e, s) := rfl

@[simp] theorem exec_lift (x : Except ε α) (s : σ) : (lift x : Prog ε σ α).exec s = (x, s) := rfl

@[simp] theorem exec_get (s : σ) : (get : Prog ε σ σ).exec s = (.ok s, s) := rfl

@[simp] theorem exec_modify (f : σ → σ) (s : σ) :
    (modify f : Prog ε σ PUnit).exec s = (.ok ⟨⟩, f s) := rfl

theorem exec_bind (x : Prog ε σ α) (f : α → Prog ε σ β) (s : σ) :
    (x >>= f).exec s = match x.exec s with
      | (.ok a, t) => (f a).exec t
      | (.error e, t) => (.error e, t) := by
  simp only [Prog.exec, ExceptT.run, StateT.run, bind, ExceptT.bind, ExceptT.mk, StateT.bind,
    ExceptT.bindCont]
  rcases x s with ⟨_ | _, _⟩ <;> rfl

theorem exec_tryCatch (x : Prog ε σ α) (handle : ε → Prog ε σ α) (s : σ) :
    (tryCatch x handle).exec s = match x.exec s with
      | (.ok a, t) => (.ok a, t)
      | (.error e, t) => (handle e).exec t := by
  simp only [Prog.exec, ExceptT.run, StateT.run, tryCatch, tryCatchThe, MonadExceptOf.tryCatch,
    ExceptT.tryCatch, ExceptT.mk, bind, StateT.bind]
  rcases x s with ⟨_ | _, _⟩ <;> rfl

/-- From this state, the computation returns with `ok`, or throws with `err`. -/
def After (x : Prog ε σ α) (s : σ) (ok : α → σ → Prop) (err : ε → σ → Prop) : Prop :=
  match x.exec s with
  | (.ok a, t) => ok a t
  | (.error e, t) => err e t

section After

variable {s : σ} {ok : α → σ → Prop} {err : ε → σ → Prop}

theorem After.weaken {x : Prog ε σ α} {ok' : α → σ → Prop} {err' : ε → σ → Prop}
    (after : After x s ok err) (okWeaker : ∀ a t, ok a t → ok' a t)
    (errWeaker : ∀ e t, err e t → err' e t) : After x s ok' err' := by
  unfold After at after ⊢
  split at after
  · exact okWeaker _ _ after
  · exact errWeaker _ _ after

theorem After.returns {x : Prog ε σ α} (after : After x s ok fun _ _ => False) :
    ∃ a t, x.exec s = (.ok a, t) ∧ ok a t := by
  unfold After at after
  split at after
  · exact ⟨_, _, ‹_›, after⟩
  · exact after.elim

/-- What holds however the computation ends. -/
theorem After.final {x : Prog ε σ α} (post : σ → Prop)
    (after : After x s (fun _ t => post t) fun _ t => post t) : post (x.exec s).2 := by
  unfold After at after
  split at after <;> rename_i run
  · rw [run]
    exact after
  · rw [run]
    exact after

theorem After.lift_ok {β : Type u} {x : Except ε α} {a : α} {f : α → Prog ε σ β}
    {ok' : β → σ → Prop} (returns : x = .ok a) (rest : After (f a) s ok' err) :
    After (lift x >>= f) s ok' err := by
  unfold After
  rw [exec_bind, exec_lift, returns]
  exact rest

theorem After.lift_error {β : Type u} {x : Except ε α} {e : ε} {f : α → Prog ε σ β}
    {ok' : β → σ → Prop} (throws : x = .error e) (stopped : err e s) :
    After (lift x >>= f) s ok' err := by
  unfold After
  rw [exec_bind, exec_lift, throws]
  exact stopped

theorem After.bind {β : Type u} {x : Prog ε σ α} {f : α → Prog ε σ β} {ok' : β → σ → Prop}
    (first : After x s ok err) (rest : ∀ a t, ok a t → After (f a) t ok' err) :
    After (x >>= f) s ok' err := by
  unfold After at first ⊢
  rw [exec_bind]
  rcases run : x.exec s with ⟨e | a, t⟩
  · rw [run] at first
    exact first
  · rw [run] at first
    exact rest a t first

/-- A first part that never throws. -/
theorem After.andThen {β : Type u} {x : Prog ε σ α} {f : α → Prog ε σ β} {ok' : β → σ → Prop}
    (first : After x s ok fun _ _ => False) (rest : ∀ a t, ok a t → After (f a) t ok' err) :
    After (x >>= f) s ok' err :=
  After.bind (first.weaken (fun _ _ done => done) fun _ _ impossible => impossible.elim) rest

theorem After.tryCatch {x : Prog ε σ α} {handle : ε → Prog ε σ α} {stop : ε → σ → Prop}
    (body : After x s ok stop) (handled : ∀ e t, stop e t → After (handle e) t ok err) :
    After (tryCatch x handle) s ok err := by
  unfold After at body ⊢
  rw [exec_tryCatch]
  rcases run : x.exec s with ⟨e | a, t⟩
  · rw [run] at body
    exact handled e t body
  · rw [run] at body
    exact body

end After

variable (log : σ → List τ)

/-- From every state, the computation only appends to the log: a list with `ok`
when it returns, and one with `err` when it throws. -/
def Emits (x : Prog ε σ α) (ok : α → List τ → Prop) (err : ε → List τ → Prop) : Prop :=
  ∀ s, ∃ added, log (x.exec s).2 = log s ++ added ∧
    match (x.exec s).1 with
    | .ok a => ok a added
    | .error e => err e added

variable {log}

theorem Emits.weaken {x : Prog ε σ α} {ok ok' : α → List τ → Prop} {err err' : ε → List τ → Prop}
    (emits : Emits log x ok err) (okWeaker : ∀ a l, ok a l → ok' a l)
    (errWeaker : ∀ e l, err e l → err' e l) : Emits log x ok' err' := by
  intro s
  obtain ⟨added, grown, result⟩ := emits s
  refine ⟨added, grown, ?_⟩
  split at result
  · exact okWeaker _ _ result
  · exact errWeaker _ _ result

/-- A computation that never throws. -/
theorem Emits.returns {x : Prog ε σ α} {ok : α → List τ → Prop}
    (emits : Emits log x ok fun _ _ => False) (s : σ) :
    ∃ a t added, x.exec s = (.ok a, t) ∧ log t = log s ++ added ∧ ok a added := by
  obtain ⟨added, grown, result⟩ := emits s
  rcases run : x.exec s with ⟨e | a, t⟩
  · rw [run] at result
    exact result.elim
  · rw [run] at grown result
    exact ⟨a, t, added, rfl, grown, result⟩

theorem Emits.pure {a : α} {ok : α → List τ → Prop} {err : ε → List τ → Prop}
    (nothing : ok a []) : Emits log (pure a : Prog ε σ α) ok err := fun _ =>
  ⟨[], (List.append_nil _).symm, nothing⟩

theorem Emits.lift {x : Except ε α} {ok : α → List τ → Prop} {err : ε → List τ → Prop}
    (returns : ∀ a, x = .ok a → ok a []) (throws : ∀ e, x = .error e → err e []) :
    Emits log (lift x : Prog ε σ α) ok err := by
  intro s
  refine ⟨[], (List.append_nil _).symm, ?_⟩
  cases x with
  | ok a => exact returns a rfl
  | error e => exact throws e rfl

/-- Sequencing: the second part is judged with what the first one appended in
front of it. -/
theorem Emits.bind {x : Prog ε σ α} {f : α → Prog ε σ β} {mid : α → List τ → Prop}
    {ok : β → List τ → Prop} {err stop : ε → List τ → Prop} (first : Emits log x mid stop)
    (rest : ∀ a l, mid a l →
      Emits log (f a) (fun b more => ok b (l ++ more)) fun e more => err e (l ++ more))
    (stops : ∀ e l, stop e l → err e l) : Emits log (x >>= f) ok err := by
  intro s
  obtain ⟨l, grown, result⟩ := first s
  rw [exec_bind]
  rcases run : x.exec s with ⟨_ | a, t⟩
  · rw [run] at grown result
    exact ⟨l, grown, stops _ _ result⟩
  · rw [run] at grown result
    obtain ⟨more, further, final⟩ := rest a l result t
    refine ⟨l ++ more, ?_, final⟩
    rw [further, grown, List.append_assoc]

/-- A handler is judged with what the interrupted body appended in front of it. -/
theorem Emits.tryCatch {x : Prog ε σ α} {handle : ε → Prog ε σ α} {stop : ε → List τ → Prop}
    {ok : α → List τ → Prop} {err : ε → List τ → Prop} (body : Emits log x ok stop)
    (handled : ∀ e l, stop e l →
      Emits log (handle e) (fun a more => ok a (l ++ more)) fun e more => err e (l ++ more)) :
    Emits log (tryCatch x handle) ok err := by
  intro s
  obtain ⟨l, grown, result⟩ := body s
  rw [exec_tryCatch]
  rcases run : x.exec s with ⟨e | a, t⟩
  · rw [run] at grown result
    obtain ⟨more, further, final⟩ := handled e l result t
    refine ⟨l ++ more, ?_, final⟩
    rw [further, grown, List.append_assoc]
  · rw [run] at grown result
    exact ⟨l, grown, result⟩

/-- Computations that append nothing. -/
def Silent (log : σ → List τ) (x : Prog ε σ α) : Prop :=
  Emits log x (fun _ l => l = []) fun _ l => l = []

theorem Silent.lift (x : Except ε α) : Silent log (lift x : Prog ε σ α) :=
  Emits.lift (fun _ _ => rfl) fun _ _ => rfl

theorem Silent.modify {f : σ → σ} (kept : ∀ s, log (f s) = log s) :
    Silent log (modify f : Prog ε σ PUnit) := by
  intro s
  refine ⟨[], ?_, rfl⟩
  rw [exec_modify, kept, List.append_nil]

theorem Silent.pure (a : α) : Silent log (pure a : Prog ε σ α) :=
  Emits.pure rfl

theorem Silent.bind {x : Prog ε σ α} {f : α → Prog ε σ β} (first : Silent log x)
    (rest : ∀ a, Silent log (f a)) : Silent log (x >>= f) := by
  refine Emits.bind first (fun a l empty => ?_) fun _ _ empty => empty
  subst empty
  exact rest a

/-- A silent part in front leaves what the rest appends. -/
theorem Emits.after_silent {x : Prog ε σ α} {f : α → Prog ε σ β} {ok : β → List τ → Prop}
    {err : ε → List τ → Prop} (first : Silent log x) (rest : ∀ a, Emits log (f a) ok err)
    (nothing : ∀ e, err e []) : Emits log (x >>= f) ok err := by
  refine Emits.bind first (fun a l empty => ?_) fun e l empty => ?_
  · subst empty
    exact rest a
  · subst empty
    exact nothing e

end OrbisAgent.Lib.Trace
