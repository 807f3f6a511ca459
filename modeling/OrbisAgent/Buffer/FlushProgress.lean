/- OrbisAgent/Buffer/FlushProgress
   source: LocalBuffer::flush
   digest: One flush() call alone hands over a prefix of the table. It ends, and hands no row
   over twice, as long as no batch is read behind a DELETE that failed. -/

import OrbisAgent.Buffer.LocalBuffer
import Mathlib.Data.Nat.Find

set_option autoImplicit false
set_option relaxedAutoImplicit false

namespace OrbisAgent.Buffer.FlushProgress

open OrbisAgent.Buffer.LocalBuffer
open OrbisAgent.Constants (BUFFER_FLUSH_BATCH_SIZE)
open OrbisAgent.Lib.IdTable (Row Table)
open OrbisAgent.Lib.Transition

universe u

variable {μ : Type u}

/-- What the callbacks and SQLite answer at each step of a flush. -/
abbrev Environment (μ : Type u) := Nat → Solo μ → FlushEnv

/-- A flush after `n` steps. -/
def flushing (env : Environment μ) (t : Table μ) : Nat → Solo μ :=
  follow Solo.step env (Solo.start t)

def Returned (s : Solo μ) : Prop := ∃ n, s.flusher = .done n

/-- The rows given to `flush_fn_`, one entry for each call of it. -/
def handedRows (s : Solo μ) : List (Row μ) := s.handed.map Prod.fst

/-- The row whose DELETE comes next. -/
def deleting : Flusher μ → List (Row μ)
  | .delete row _ _ => [row]
  | .select _ | .publish _ _ _ | .done _ => []

/-- The rows of the batch that `flush_fn_` has not been given yet. -/
def upcoming : Flusher μ → List (Row μ)
  | .publish row rest _ => row :: rest
  | .delete _ rest _ => rest
  | .select _ | .done _ => []

@[simp] theorem deleting_nextRow (rest : List (Row μ)) (n : Nat) :
    deleting (nextRow rest n) = [] := by
  cases rest <;> rfl

@[simp] theorem upcoming_nextRow (rest : List (Row μ)) (n : Nat) :
    upcoming (nextRow rest n) = rest := by
  cases rest <;> rfl

/-- How far a flush has come: the accepted rows are a front of the table as it was, those of
them in `kept` are still there because their DELETE failed, and `rest` is untouched. -/
structure Progress (t : Table μ) (s : Solo μ) (accepted kept rest refused : List (Row μ)) :
    Prop where
  original : t.rows = accepted ++ rest
  present : s.table.rows = kept ++ deleting s.flusher ++ rest
  ahead : upcoming s.flusher <+: rest
  keptAccepted : ∀ r ∈ kept, r ∈ accepted
  deletingAccepted : ∀ r ∈ deleting s.flusher, r ∈ accepted
  calls : s.handed = accepted.map (·, true) ++ refused.map (·, false)
  counted : s.flusher.flushed + (deleting s.flusher).length = accepted.length
  refusal : refused = [] ∨ Returned s ∧ ∃ row more, refused = [row] ∧ rest = row :: more

theorem progress_start (t : Table μ) : Progress t (Solo.start t) [] [] t.rows [] where
  original := rfl
  present := rfl
  ahead := List.nil_prefix
  keptAccepted _ mem := by cases mem
  deletingAccepted _ mem := by cases mem
  calls := rfl
  counted := rfl
  refusal := .inl rfl

variable {t : Table μ} {accepted kept rest refused : List (Row μ)}

theorem Progress.unrefused {s : Solo μ} (p : Progress t s accepted kept rest refused)
    (going : ¬ Returned s) : refused = [] := by
  rcases p.refusal with none | ⟨done, _⟩
  · exact none
  · exact absurd done going

theorem Progress.handedRows_eq {s : Solo μ} (p : Progress t s accepted kept rest refused) :
    handedRows s = accepted ++ refused := by
  unfold handedRows
  rw [p.calls, List.map_append, List.map_map, List.map_map]
  simp [Function.comp_def]

/-- The rows handed over are a front of the table, so none of them comes twice. -/
theorem Progress.handed_nodup {s : Solo μ} (p : Progress t s accepted kept rest refused) :
    (handedRows s).Nodup := by
  have front : (accepted ++ refused).Sublist t.rows := by
    rw [p.original]
    rcases p.refusal with none | ⟨_, row, more, one, next⟩
    · rw [none]
      exact List.Sublist.append_left (List.nil_sublist rest) accepted
    · rw [one, next]
      refine List.Sublist.append_left ?_ accepted
      exact List.singleton_sublist.mpr List.mem_cons_self
  rw [p.handedRows_eq]
  exact t.nodup.sublist front

theorem batch_prefix (f : SelectFault) (t : Table μ) : batch f t <+: t.rows := by
  cases f with
  | none => exact List.take_prefix _ _
  | prepare => exact List.nil_prefix
  | step k => exact (List.take_prefix _ _).trans (List.take_prefix _ _)

/-- The SELECT reads the front of what is untouched, as nothing was left behind. -/
theorem Progress.select {table : Table μ} {n : Nat} {handed : List (Row μ × Bool)}
    {fl : Flusher μ} {env : FlushEnv}
    (p : Progress t ⟨table, .select n, handed⟩ accepted kept rest [])
    (reads : fl.pending = batch env.select table) (count : fl.flushed = n)
    (noDelete : ∀ row more k, fl ≠ .delete row more k)
    (fresh : kept = [] ∨ batch env.select table = []) :
    Progress t ⟨table, fl, handed⟩ accepted kept rest [] := by
  have none : deleting fl = [] := by
    cases fl with
    | delete row more k => exact absurd rfl (noDelete row more k)
    | select k => rfl
    | publish row more k => rfl
    | done k => rfl
  have same : upcoming fl = batch env.select table := by
    rw [← reads]
    cases fl with
    | delete row more k => exact absurd rfl (noDelete row more k)
    | select k => rfl
    | publish row more k => rfl
    | done k => rfl
  have present : table.rows = kept ++ [] ++ rest := p.present
  refine ⟨p.original, ?_, ?_, p.keptAccepted, ?_, p.calls, ?_, .inl rfl⟩
  · rw [none]
    exact present
  · rw [same]
    rcases fresh with nothing | empty
    · have front := batch_prefix env.select table
      rw [present, nothing] at front
      exact front
    · rw [empty]
      exact List.nil_prefix
  · intro r mem
    rw [none] at mem
    cases mem
  · have before : n + 0 = accepted.length := p.counted
    rw [none, count]
    exact before

theorem Progress.accept {table : Table μ} {row : Row μ} {more : List (Row μ)} {n : Nat}
    {handed : List (Row μ × Bool)}
    (p : Progress t ⟨table, .publish row more n, handed⟩ accepted kept rest []) :
    ∃ later, rest = row :: later ∧
      Progress t ⟨table, .delete row more n, handed ++ [(row, true)]⟩ (accepted ++ [row]) kept
        later [] := by
  obtain ⟨beyond, split⟩ := p.ahead
  have next : rest = row :: (more ++ beyond) := split.symm
  have present : table.rows = kept ++ [] ++ rest := p.present
  have calls : handed = accepted.map (·, true) ++ [] := p.calls
  refine ⟨more ++ beyond, next, ⟨?_, ?_, List.prefix_append _ _, ?_, ?_, ?_, ?_, .inl rfl⟩⟩
  · rw [p.original, next, List.append_assoc]
    rfl
  · change table.rows = kept ++ [row] ++ (more ++ beyond)
    rw [present, next]
    simp
  · exact fun r mem => List.mem_append_left _ (p.keptAccepted r mem)
  · exact fun r mem => List.mem_append_right _ mem
  · change handed ++ [(row, true)] = (accepted ++ [row]).map (·, true) ++ []
    rw [calls]
    simp
  · have before : n + 0 = accepted.length := p.counted
    change n + 1 = (accepted ++ [row]).length
    rw [List.length_append, ← before]
    rfl

theorem Progress.refuse {table : Table μ} {row : Row μ} {more : List (Row μ)} {n : Nat}
    {handed : List (Row μ × Bool)}
    (p : Progress t ⟨table, .publish row more n, handed⟩ accepted kept rest []) :
    Progress t ⟨table, .done n, handed ++ [(row, false)]⟩ accepted kept rest [row] := by
  obtain ⟨beyond, split⟩ := p.ahead
  have calls : handed = accepted.map (·, true) ++ [] := p.calls
  refine ⟨p.original, p.present, List.nil_prefix, p.keptAccepted, ?_, ?_, p.counted, ?_⟩
  · intro r mem
    cases mem
  · change handed ++ [(row, false)] = accepted.map (·, true) ++ [(row, false)]
    rw [calls, List.append_nil]
  · exact .inr ⟨⟨n, rfl⟩, row, more ++ beyond, rfl, split.symm⟩

/-- A row whose DELETE fails joins the rows that are left behind. -/
theorem Progress.delete {table : Table μ} {row : Row μ} {more : List (Row μ)} {n : Nat}
    {handed : List (Row μ × Bool)} (fails : Bool)
    (p : Progress t ⟨table, .delete row more n, handed⟩ accepted kept rest []) :
    Progress t ⟨if fails then table else table.remove row.id, nextRow more (n + 1), handed⟩
      accepted (if fails then kept ++ [row] else kept) rest [] := by
  have present : table.rows = kept ++ [row] ++ rest := p.present
  refine ⟨p.original, ?_, ?_, ?_, ?_, p.calls, ?_, .inl rfl⟩
  · cases fails with
    | true => simpa using present
    | false =>
        have split : table.rows = kept ++ row :: rest := by simpa using present
        simpa using Table.remove_rows_of_split split
  · have ahead : more <+: rest := p.ahead
    simpa using ahead
  · intro r mem
    cases fails with
    | true =>
        rcases List.mem_append.mp mem with old | new
        · exact p.keptAccepted r old
        · exact p.deletingAccepted r new
    | false => exact p.keptAccepted r mem
  · intro r mem
    simp at mem
  · have before : n + 1 = accepted.length := p.counted
    simpa using before

/-- The step is a DELETE that fails. -/
def LeavesRow (s : Solo μ) (env : FlushEnv) : Prop :=
  deleting s.flusher ≠ [] ∧ env.deleteFails = true

/-- The step is a SELECT that is prepared and gets as far as its first row. -/
def ReadsRow (s : Solo μ) (env : FlushEnv) : Prop :=
  (∃ n, s.flusher = .select n) ∧ env.select ≠ .prepare ∧ env.select ≠ .step 0

/-- The sections that the flush has before it: three for each row not yet handed over. -/
def distance (t : Table μ) (s : Solo μ) : Nat :=
  3 * (t.count - s.handed.length) +
    match s.flusher with
    | .done _ => 0
    | .publish _ _ _ => 1
    | .select _ => 2
    | .delete _ _ _ => 3

theorem Progress.distance_eq {s : Solo μ} (p : Progress t s accepted kept rest []) :
    t.count - s.handed.length = rest.length := by
  have total : t.count = accepted.length + rest.length := by
    unfold Table.count
    rw [p.original, List.length_append]
  have calls : s.handed.length = accepted.length := by
    rw [p.calls]
    simp
  omega

/-- What one step of a flush that has not returned leads to. -/
structure Advance (t : Table μ) (env : FlushEnv) (s s' : Solo μ)
    (accepted kept accepted' kept' rest' refused' : List (Row μ)) : Prop where
  progress : Progress t s' accepted' kept' rest' refused'
  nearer : distance t s' < distance t s
  leaves : kept' ≠ [] ↔ kept ≠ [] ∨ LeavesRow s env
  answered : accepted' = accepted ∧ refused' = [] ∨
    env.answer = true ∧ accepted'.length = accepted.length + 1 ∧ refused' = [] ∨
    env.answer = false ∧ accepted' = accepted ∧ refused' ≠ []
  ends : Returned s' → refused' = [] → batch env.select s.table = []

private theorem stepsTo {s : Solo μ} {env : FlushEnv} {t' : Table μ} {fl : Flusher μ}
    (move : s.flusher.step env s.table = some (t', fl)) :
    s.step env = some ⟨t', fl, s.handed ++ s.flusher.calls env⟩ := by
  unfold Solo.step
  rw [move]
  rfl

private theorem flushing_succ {env : Environment μ} {n : Nat} {t' : Table μ} {fl : Flusher μ}
    (move : (flushing env t n).flusher.step (env n (flushing env t n)) (flushing env t n).table =
      some (t', fl)) :
    flushing env t (n + 1) = ⟨t', fl, (flushing env t n).handed ++
      (flushing env t n).flusher.calls (env n (flushing env t n))⟩ :=
  follow_succ (stepsTo move)

theorem progress_step {s : Solo μ} (p : Progress t s accepted kept rest []) {env : FlushEnv}
    (going : ¬ Returned s)
    (fresh : ∀ n, s.flusher = .select n → kept = [] ∨ batch env.select s.table = []) :
    ∃ s' accepted' kept' rest' refused', s.step env = some s' ∧
      Advance t env s s' accepted kept accepted' kept' rest' refused' := by
  have far := p.distance_eq
  obtain ⟨table, flusher, handed⟩ := s
  cases flusher with
  | select n =>
      have clean : ¬ LeavesRow (⟨table, .select n, handed⟩ : Solo μ) env := by
        rintro ⟨none, _⟩
        exact none rfl
      have same := fresh n rfl
      cases taken : batch env.select table with
      | nil =>
          have move : (Flusher.select n).step env table = some (table, .done n) := by
            simp [Flusher.step, taken]
          have next := stepsTo (s := ⟨table, .select n, handed⟩) move
          simp only [Flusher.calls, List.append_nil] at next
          refine ⟨_, accepted, kept, rest, [], next, ?_, ?_, ?_, .inl ⟨rfl, rfl⟩, fun _ _ => taken⟩
          · exact p.select taken.symm rfl (by simp) same
          · simp [distance]
          · simp [clean]
      | cons row more =>
          have move : (Flusher.select n).step env table = some (table, .publish row more n) := by
            simp [Flusher.step, taken]
          have next := stepsTo (s := ⟨table, .select n, handed⟩) move
          simp only [Flusher.calls, List.append_nil] at next
          refine ⟨_, accepted, kept, rest, [], next, ?_, ?_, ?_, .inl ⟨rfl, rfl⟩, ?_⟩
          · exact p.select taken.symm rfl (by simp) same
          · simp [distance]
          · simp [clean]
          · rintro ⟨k, done⟩ _
            cases done
  | publish row more n =>
      have clean : ¬ LeavesRow (⟨table, .publish row more n, handed⟩ : Solo μ) env := by
        rintro ⟨none, _⟩
        exact none rfl
      cases answer : env.answer with
      | true =>
          have move : (Flusher.publish row more n).step env table =
              some (table, .delete row more n) := by
            simp [Flusher.step, answer]
          have next := stepsTo (s := ⟨table, .publish row more n, handed⟩) move
          simp only [Flusher.calls, answer] at next
          obtain ⟨later, split, after⟩ := p.accept
          have nearer := after.distance_eq
          refine ⟨_, accepted ++ [row], kept, later, [], next, after, ?_, ?_, ?_, ?_⟩
          · rw [split] at far
            simp only [distance, List.length_cons] at far nearer ⊢
            omega
          · simp [clean]
          · exact .inr (.inl ⟨answer, by simp, rfl⟩)
          · rintro ⟨k, done⟩ _
            cases done
      | false =>
          have move : (Flusher.publish row more n).step env table = some (table, .done n) := by
            simp [Flusher.step, answer]
          have next := stepsTo (s := ⟨table, .publish row more n, handed⟩) move
          simp only [Flusher.calls, answer] at next
          refine ⟨_, accepted, kept, rest, [row], next, p.refuse, ?_, ?_, ?_, ?_⟩
          · simp only [distance, List.length_append, List.length_singleton]
            omega
          · simp [clean]
          · exact .inr (.inr ⟨answer, rfl, by simp⟩)
          · intro _ none
            cases none
  | delete row more n =>
      have move : (Flusher.delete row more n).step env table =
          some (if env.deleteFails then table else table.remove row.id, nextRow more (n + 1)) := rfl
      have next := stepsTo (s := ⟨table, .delete row more n, handed⟩) move
      simp only [Flusher.calls, List.append_nil] at next
      refine ⟨_, accepted, if env.deleteFails then kept ++ [row] else kept, rest, [], next,
        p.delete env.deleteFails, ?_, ?_, .inl ⟨rfl, rfl⟩, ?_⟩
      · cases more with
        | nil => simp [distance, nextRow]
        | cons row more => simp [distance, nextRow]
      · cases failing : env.deleteFails with
        | true => simp [LeavesRow, deleting, failing]
        | false => simp [LeavesRow, failing]
      · rintro ⟨k, done⟩ _
        cases more <;> cases done
  | done n => exact absurd ⟨n, rfl⟩ going

theorem returned_stays {env : Environment μ} {n : Nat} (done : Returned (flushing env t n)) :
    flushing env t (n + 1) = flushing env t n := by
  obtain ⟨k, here⟩ := done
  have stop : (flushing env t n).step (env n (flushing env t n)) = none := by
    unfold Solo.step
    rw [here]
    rfl
  change ((flushing env t n).step (env n (flushing env t n))).getD (flushing env t n) = _
  rw [stop]
  rfl

/-- The DELETE of step `n` fails. -/
def LeavesAt (env : Environment μ) (t : Table μ) (n : Nat) : Prop :=
  LeavesRow (flushing env t n) (env n (flushing env t n))

/-- Step `n` is a SELECT that reads a row. -/
def ReadsAt (env : Environment μ) (t : Table μ) (n : Nat) : Prop :=
  ReadsRow (flushing env t n) (env n (flushing env t n))

/-- Up to step `n`, no SELECT reads a row after a DELETE has failed. -/
def FreshUpTo (env : Environment μ) (t : Table μ) (n : Nat) : Prop :=
  ∀ i j, i < j → j < n → LeavesAt env t i → ¬ ReadsAt env t j

theorem batch_eq_nil_of_not_reads {s : Solo μ} {env : FlushEnv} {n : Nat}
    (here : s.flusher = .select n) (blind : ¬ ReadsRow s env) : batch env.select s.table = [] := by
  cases fault : env.select with
  | none => exact absurd ⟨⟨n, here⟩, by simp [fault], by simp [fault]⟩ blind
  | prepare => rfl
  | step k =>
      cases k with
      | zero => rfl
      | succ k => exact absurd ⟨⟨n, here⟩, by simp [fault], by simp [fault]⟩ blind

/-- A flush that is still going makes progress, unless it reads a row again. -/
private theorem advance {env : Environment μ} {n : Nat}
    (p : Progress t (flushing env t n) accepted kept rest refused)
    (left : kept ≠ [] → ∃ i < n, LeavesAt env t i) (fresh : FreshUpTo env t (n + 1))
    (going : ¬ Returned (flushing env t n)) :
    ∃ accepted' kept' rest' refused', Advance t (env n (flushing env t n)) (flushing env t n)
      (flushing env t (n + 1)) accepted kept accepted' kept' rest' refused' := by
  have none := p.unrefused going
  subst none
  have blind : ∀ k, (flushing env t n).flusher = .select k →
      kept = [] ∨ batch (env n (flushing env t n)).select (flushing env t n).table = [] := by
    intro k here
    by_cases nothing : kept = []
    · exact .inl nothing
    · obtain ⟨i, before, failed⟩ := left nothing
      have unread := fresh i n before (Nat.lt_succ_self n) failed
      exact .inr (batch_eq_nil_of_not_reads here unread)
  obtain ⟨s', accepted', kept', rest', refused', move, next⟩ := progress_step p going blind
  have same : flushing env t (n + 1) = s' := follow_succ move
  rw [same]
  exact ⟨accepted', kept', rest', refused', next⟩

/-- What one flush has done after `n` steps. A row stays behind just when a DELETE failed. -/
theorem progress_of_fresh {env : Environment μ} {n : Nat} (fresh : FreshUpTo env t n) :
    ∃ accepted kept rest refused, Progress t (flushing env t n) accepted kept rest refused ∧
      (kept ≠ [] ↔ ∃ i < n, LeavesAt env t i) := by
  induction n with
  | zero =>
      refine ⟨[], [], t.rows, [], progress_start t, ?_⟩
      simp
  | succ n ih =>
      have earlier : FreshUpTo env t n :=
        fun i j before inside => fresh i j before (Nat.lt_succ_of_lt inside)
      obtain ⟨accepted, kept, rest, refused, p, left⟩ := ih earlier
      by_cases done : Returned (flushing env t n)
      · have same := returned_stays done
        refine ⟨accepted, kept, rest, refused, same ▸ p, left.trans ?_⟩
        have idle : ¬ LeavesAt env t n := by
          obtain ⟨k, here⟩ := done
          rintro ⟨deletes, _⟩
          rw [here] at deletes
          exact deletes rfl
        simp only [Nat.exists_lt_succ_right, idle, or_false]
      · obtain ⟨accepted', kept', rest', refused', next⟩ := advance p left.mp fresh done
        refine ⟨accepted', kept', rest', refused', next.progress, next.leaves.trans ?_⟩
        rw [left, Nat.exists_lt_succ_right]
        rfl

theorem returns_of_fresh {env : Environment μ} (fresh : ∀ n, FreshUpTo env t n) :
    ∃ n, Returned (flushing env t n) := by
  apply follow_stops (distance t)
  intro n
  by_cases done : Returned (flushing env t n)
  · exact .inl done
  · obtain ⟨accepted, kept, rest, refused, p, left⟩ := progress_of_fresh (fresh n)
    obtain ⟨_, _, _, _, next⟩ := advance p left.mp (fresh (n + 1)) done
    exact .inr next.nearer

/-- A SELECT behind a failed DELETE reads a row that was handed over before. -/
private theorem hands_over_again {env : Environment μ} {n : Nat} (fresh : FreshUpTo env t n)
    (left : ∃ i < n, LeavesAt env t i) (reads : ReadsAt env t n) :
    ¬ (handedRows (flushing env t (n + 2))).Nodup := by
  obtain ⟨accepted, kept, rest, refused, p, kept_iff⟩ := progress_of_fresh fresh
  obtain ⟨old, others, behind⟩ := List.exists_cons_of_ne_nil (kept_iff.mpr left)
  obtain ⟨⟨k, here⟩, prepared, stepped⟩ := reads
  have first : (flushing env t n).table.rows = old :: (others ++ rest) := by
    rw [p.present, behind, here]
    simp [deleting]
  have taken : ∃ more, batch (env n (flushing env t n)).select (flushing env t n).table =
      old :: more := by
    cases fault : (env n (flushing env t n)).select with
    | none => exact ⟨_, by simp [batch, Table.oldest, first, BUFFER_FLUSH_BATCH_SIZE]; rfl⟩
    | prepare => exact absurd fault prepared
    | step j =>
        cases j with
        | zero => exact absurd fault stepped
        | succ j => exact ⟨_, by simp [batch, Table.oldest, first, BUFFER_FLUSH_BATCH_SIZE]; rfl⟩
  obtain ⟨more, taken⟩ := taken
  have select : (flushing env t n).flusher.step (env n (flushing env t n))
      (flushing env t n).table = some ((flushing env t n).table, .publish old more k) := by
    rw [here]
    simp [Flusher.step, taken]
  have selected : flushing env t (n + 1) =
      ⟨(flushing env t n).table, .publish old more k, (flushing env t n).handed⟩ := by
    rw [flushing_succ select, here]
    simp [Flusher.calls]
  have publish : ∃ fl, (flushing env t (n + 1)).flusher.step (env (n + 1) (flushing env t (n + 1)))
      (flushing env t (n + 1)).table = some ((flushing env t (n + 1)).table, fl) := by
    rw [selected]
    cases answer : (env (n + 1) ⟨(flushing env t n).table, .publish old more k,
        (flushing env t n).handed⟩).answer with
    | true => exact ⟨.delete old more k, by simp [Flusher.step, answer]⟩
    | false => exact ⟨.done k, by simp [Flusher.step, answer]⟩
  obtain ⟨fl, publish⟩ := publish
  have published := flushing_succ publish
  intro once
  have twice : handedRows (flushing env t (n + 2)) = accepted ++ refused ++ [old] := by
    rw [← p.handedRows_eq, published, selected]
    simp [handedRows, Flusher.calls]
  have before : old ∈ accepted := by
    apply p.keptAccepted
    rw [behind]
    exact List.mem_cons_self
  rw [twice, List.nodup_append] at once
  exact once.2.2 old (List.mem_append_left _ before) old List.mem_cons_self rfl

/-- A flush returns and hands no row over twice just when it reads no row after one of its
DELETEs has failed. -/
theorem flush_ends_iff_no_read_behind_failed_delete (env : Environment μ) (t : Table μ) :
    ((∃ n, Returned (flushing env t n)) ∧ ∀ n, (handedRows (flushing env t n)).Nodup) ↔
      ∀ i j, i < j → LeavesAt env t i → ¬ ReadsAt env t j := by
  constructor
  · rintro ⟨_, once⟩ i j before failed reads
    -- the first SELECT that reads behind a failed DELETE hands a row over again
    have some : ∃ j, (∃ i < j, LeavesAt env t i) ∧ ReadsAt env t j :=
      ⟨j, ⟨i, before, failed⟩, reads⟩
    classical
    obtain ⟨left, first⟩ := Nat.find_spec some
    have fresh : FreshUpTo env t (Nat.find some) := by
      intro a b earlier inside lost again
      exact Nat.find_min some inside ⟨⟨a, earlier, lost⟩, again⟩
    exact hands_over_again fresh left first (once _)
  · intro blind
    have fresh : ∀ n, FreshUpTo env t n := fun n i j before _ => blind i j before
    refine ⟨returns_of_fresh fresh, fun n => ?_⟩
    obtain ⟨_, _, _, _, p, _⟩ := progress_of_fresh (fresh n)
    exact p.handed_nodup

/-- Every publish is accepted and no row can be deleted, as on a full disk. -/
def undeletable : Environment μ := fun _ _ => ⟨.none, true, true⟩

/-- Without deletions a flush of one row never returns and publishes the row again. -/
theorem undeletable_row_is_flushed_forever :
    let t := Table.empty.insert (⟨"devices/d1/logs", "batch"⟩ : Message)
    (∀ n, ¬ Returned (flushing undeletable t n)) ∧
      handedRows (flushing undeletable t 5) =
        [⟨1, "devices/d1/logs", "batch"⟩, ⟨1, "devices/d1/logs", "batch"⟩] := by
  intro t
  have round : ∀ n, (flushing undeletable t n).table = t ∧
      ((∃ k, (flushing undeletable t n).flusher = .select k) ∨
        (∃ row k, (flushing undeletable t n).flusher = .publish row [] k) ∨
        ∃ row k, (flushing undeletable t n).flusher = .delete row [] k) := by
    intro n
    induction n with
    | zero => exact ⟨rfl, .inl ⟨0, rfl⟩⟩
    | succ n ih =>
        obtain ⟨same, ⟨k, here⟩ | ⟨row, k, here⟩ | ⟨row, k, here⟩⟩ := ih
        · have move : (flushing undeletable t n).flusher.step ⟨.none, true, true⟩
              (flushing undeletable t n).table =
              some (t, .publish ⟨1, "devices/d1/logs", "batch"⟩ [] k) := by
            rw [here, same]
            rfl
          rw [flushing_succ move]
          exact ⟨rfl, .inr (.inl ⟨_, k, rfl⟩)⟩
        · have move : (flushing undeletable t n).flusher.step ⟨.none, true, true⟩
              (flushing undeletable t n).table = some (t, .delete row [] k) := by
            rw [here, same]
            rfl
          rw [flushing_succ move]
          exact ⟨rfl, .inr (.inr ⟨row, k, rfl⟩)⟩
        · have move : (flushing undeletable t n).flusher.step ⟨.none, true, true⟩
              (flushing undeletable t n).table = some (t, .select (k + 1)) := by
            rw [here, same]
            rfl
          rw [flushing_succ move]
          exact ⟨rfl, .inl ⟨k + 1, rfl⟩⟩
  refine ⟨fun n => ?_, rfl⟩
  rintro ⟨m, done⟩
  obtain ⟨_, ⟨k, here⟩ | ⟨row, k, here⟩ | ⟨row, k, here⟩⟩ := round n <;>
  · rw [here] at done
    cases done

/-- Every SQLite statement succeeds, and `answers` lists what `flush_fn_` returns. -/
def answering (answers : Nat → Bool) : Environment μ :=
  fun _ s => ⟨.none, answers s.handed.length, false⟩

/-- With working statements, a flush stops before a row because that row was refused or
because there is none. -/
theorem accepted_of_answering (answers : Nat → Bool) (t : Table μ) (n : Nat) :
    ∃ accepted rest refused,
      Progress t (flushing (answering answers) t n) accepted [] rest refused ∧
      (∀ i < accepted.length, answers i = true) ∧
      (refused ≠ [] → answers accepted.length = false) ∧
      (Returned (flushing (answering answers) t n) → refused = [] → rest = []) := by
  have deletes : ∀ i, ¬ LeavesAt (answering answers) t i := by
    rintro i ⟨_, fails⟩
    cases fails
  have fresh : ∀ m, FreshUpTo (answering answers) t m :=
    fun m i j _ _ failed => absurd failed (deletes i)
  induction n with
  | zero =>
      refine ⟨[], t.rows, [], progress_start t, ?_, ?_, ?_⟩
      · intro i inside
        cases inside
      · intro some
        exact absurd rfl some
      · rintro ⟨k, done⟩
        cases done
  | succ n ih =>
      obtain ⟨accepted, rest, refused, p, all, no, whole⟩ := ih
      by_cases done : Returned (flushing (answering answers) t n)
      · rw [returned_stays done]
        exact ⟨accepted, rest, refused, p, all, no, whole⟩
      · have none := p.unrefused done
        subst none
        obtain ⟨accepted', kept', rest', refused', next⟩ :=
          advance p (fun some => absurd rfl some) (fresh (n + 1)) done
        have nothing : kept' = [] := by
          by_contra some
          rcases next.leaves.mp some with old | failed
          · exact old rfl
          · exact deletes n failed
        subst nothing
        have asked : (answering answers n (flushing (answering answers) t n)).answer =
            answers accepted.length := by
          have calls : (flushing (answering answers) t n).handed.length = accepted.length := by
            rw [p.calls]
            simp
          change answers _ = _
          rw [calls]
        refine ⟨accepted', rest', refused', next.progress, ?_, ?_, ?_⟩
        · rcases next.answered with ⟨same, _⟩ | ⟨yes, longer, _⟩ | ⟨_, same, _⟩
          · rw [same]
            exact all
          · intro i inside
            by_cases last : i = accepted.length
            · rw [last, ← asked, yes]
            · exact all i (by omega)
          · rw [same]
            exact all
        · intro some
          rcases next.answered with ⟨_, none⟩ | ⟨_, _, none⟩ | ⟨answer, same, _⟩
          · exact absurd none some
          · exact absurd none some
          · rw [same, ← asked, answer]
        · intro returned none
          have empty : (flushing (answering answers) t n).table.oldest
              BUFFER_FLUSH_BATCH_SIZE = [] := next.ends returned none
          have rows : (flushing (answering answers) t n).table.rows = [] := by
            simpa [Table.oldest, BUFFER_FLUSH_BATCH_SIZE] using empty
          have total : accepted'.length + rest'.length = accepted.length := by
            have before := p.present
            rw [rows] at before
            have nothing : rest = [] := (List.append_eq_nil_iff.mp before.symm).2
            have after := next.progress.original
            rw [p.original, nothing, List.append_nil] at after
            rw [after, List.length_append]
          apply List.eq_nil_of_length_eq_zero
          rcases next.answered with ⟨same, _⟩ | ⟨_, longer, _⟩ | ⟨_, same, _⟩
          · rw [same] at total
            omega
          · omega
          · rw [same] at total
            omega

/-- One flush with working statements hands over the front of the table up to the first
refused row, each row once and in order, deletes what was accepted and counts it. -/
theorem flush_hands_over_a_prefix (t : Table μ) (answers : Nat → Bool) :
    ∃ n k, k ≤ t.count ∧ (∀ i < k, answers i = true) ∧ (k < t.count → answers k = false) ∧
      (flushing (answering answers) t n).flusher = .done k ∧
      (flushing (answering answers) t n).handed =
        (t.rows.take k).map (·, true) ++ ((t.rows.drop k).take 1).map (·, false) ∧
      (flushing (answering answers) t n).table.rows = t.rows.drop k ∧
      (handedRows (flushing (answering answers) t n)).Nodup ∧
      ((∀ i < t.count, answers i = true) → (flushing (answering answers) t n).table.rows = []) := by
  have fresh : ∀ m, FreshUpTo (answering answers) t m := by
    rintro m i j _ _ ⟨_, fails⟩
    cases fails
  obtain ⟨n, done⟩ := returns_of_fresh fresh
  obtain ⟨accepted, rest, refused, p, all, no, whole⟩ := accepted_of_answering answers t n
  obtain ⟨k, here⟩ := id done
  have counted : k = accepted.length := by
    have total := p.counted
    rw [here] at total
    exact total
  subst counted
  have take : t.rows.take accepted.length = accepted := by
    rw [p.original]
    exact List.take_left
  have drop : t.rows.drop accepted.length = rest := by
    rw [p.original]
    exact List.drop_left
  have count : t.count = accepted.length + rest.length := by
    unfold Table.count
    rw [p.original, List.length_append]
  have last : refused = rest.take 1 := by
    rcases p.refusal with none | ⟨_, row, more, one, next⟩
    · rw [none, whole done none]
      rfl
    · rw [one, next]
      rfl
  have present : (flushing (answering answers) t n).table.rows = rest := by
    rw [p.present, here]
    rfl
  refine ⟨n, accepted.length, by omega, all, ?_, here, ?_, ?_, p.handed_nodup, ?_⟩
  · intro short
    apply no
    intro none
    rw [whole done none] at count
    simp only [List.length_nil] at count
    omega
  · rw [take, drop, p.calls, last]
  · rw [drop, present]
  · intro yes
    rw [present]
    by_contra some
    have short : accepted.length < t.count := by
      have positive := List.length_pos_iff.mpr some
      omega
    have refusedSome : refused ≠ [] := fun none => some (whole done none)
    have answer := no refusedSome
    rw [yes accepted.length short] at answer
    cases answer

end OrbisAgent.Buffer.FlushProgress
