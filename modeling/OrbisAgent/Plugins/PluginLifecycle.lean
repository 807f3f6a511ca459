/- OrbisAgent/Plugins/PluginLifecycle
   source: PluginLoader::loadAll, collectAll, unloadAll, ~PluginLoader
   digest: Over any run each loaded plugin is collected from, cleaned up and closed, once and in
   this order, and a round removes exactly the plugins whose turn failed. -/

import OrbisAgent.Plugins.PluginLoader
import Mathlib.Data.List.Nodup

set_option autoImplicit false
set_option relaxedAutoImplicit false

namespace OrbisAgent.Plugins.PluginLifecycle

open OrbisAgent.Constants (Platform)
open OrbisAgent.Lib.Json
open OrbisAgent.Plugins.PluginLoader

/-- The calls of an owner; every round has its own plugin behaviour and callback. -/
inductive Call
  | loadAll (dir : Option (List DirEntry))
  | collectAll (collect : Nat → Outcome) (throws : Passed → Bool)
  | unloadAll

def call (platform : Platform) (codec : Codec) (l : Loader) : Call → Loader
  | .loadAll dir => loadAll platform dir l
  | .collectAll collect throws => (collectAll codec collect throws l).2
  | .unloadAll => unloadAll l

def run (platform : Platform) (codec : Codec) (calls : List Call) : Loader :=
  calls.foldl (call platform codec) .new

/-- The destructor. -/
def destroy (l : Loader) : Loader := unloadAll l

/-- The part of a record that concerns one load. -/
def eventsOf (lib : Nat) (events : List Event) : List Event :=
  events.filter fun e => e.lib == lib

/-- Any number of collections, then the cleanup and the close. -/
def Finished (lib : Nat) (events : List Event) : Prop :=
  ∃ n, eventsOf lib events = List.replicate n (.collect lib) ++ [.cleanup lib, .close lib]

def InUse (lib : Nat) (events : List Event) : Prop :=
  ∃ n, eventsOf lib events = List.replicate n (.collect lib)

/-- The vector holds each load once, with its handle, and only loads that are in use; every
other load that was in it is finished. -/
structure Ledger (l : Loader) : Prop where
  handles : ∀ p ∈ l.plugins, p.handle = some p.lib
  distinct : (l.plugins.map LoadedPlugin.lib).Nodup
  given : ∀ p ∈ l.plugins, p.lib < l.opened
  recorded : ∀ lib ∈ l.loaded, lib < l.opened
  fresh : ∀ e ∈ l.events, e.lib < l.opened
  inUse : ∀ p ∈ l.plugins, InUse p.lib l.events
  finished : ∀ lib ∈ l.loaded, (∀ p ∈ l.plugins, p.lib ≠ lib) → Finished lib l.events

theorem ledger_new : Ledger .new := by
  constructor <;> simp [Loader.new]

@[simp] theorem eventsOf_append (lib : Nat) (first second : List Event) :
    eventsOf lib (first ++ second) = eventsOf lib first ++ eventsOf lib second :=
  List.filter_append ..

theorem eventsOf_eq_nil {lib : Nat} {events : List Event} (apart : ∀ e ∈ events, e.lib ≠ lib) :
    eventsOf lib events = [] := by
  unfold eventsOf
  rw [List.filter_eq_nil_iff]
  intro e mem
  simpa using apart e mem

/-- A load is unaffected by the events of others. -/
theorem finished_append {lib : Nat} {events more : List Event} (before : Finished lib events)
    (apart : ∀ e ∈ more, e.lib ≠ lib) : Finished lib (events ++ more) := by
  obtain ⟨n, same⟩ := before
  refine ⟨n, ?_⟩
  rw [eventsOf_append, eventsOf_eq_nil apart, List.append_nil]
  exact same

theorem inUse_append {lib : Nat} {events more : List Event} (before : InUse lib events)
    (apart : ∀ e ∈ more, e.lib ≠ lib) : InUse lib (events ++ more) := by
  obtain ⟨n, same⟩ := before
  refine ⟨n, ?_⟩
  rw [eventsOf_append, eventsOf_eq_nil apart, List.append_nil]
  exact same

theorem ledger_loadPlugin {l : Loader} (before : Ledger l) (library : Library) :
    Ledger (loadPlugin library l).2 := by
  have later : ∀ {lib : Nat}, lib < l.opened → lib < l.opened + 1 := fun h => by omega
  cases library with
  | unloadable => exact before
  | unnamed =>
      exact ⟨before.handles, before.distinct, fun p mem => later (before.given p mem),
        fun lib mem => later (before.recorded lib mem),
        fun e mem => later (before.fresh e mem), before.inUse, before.finished⟩
  | incomplete =>
      have apart : ∀ {lib : Nat}, lib < l.opened →
          ∀ e ∈ [Event.close l.opened], e.lib ≠ lib := by
        intro lib below e mem
        obtain rfl := List.mem_singleton.mp mem
        exact Nat.ne_of_gt below
      refine ⟨before.handles, before.distinct, fun p mem => later (before.given p mem),
        fun lib mem => later (before.recorded lib mem), fun e mem => ?_, fun p mem => ?_,
        fun lib mem gone => ?_⟩
      · rcases List.mem_append.mp mem with old | new
        · exact later (before.fresh e old)
        · obtain rfl := List.mem_singleton.mp new
          exact Nat.lt_succ_self l.opened
      · exact inUse_append (before.inUse p mem) (apart (before.given p mem))
      · exact finished_append (before.finished lib mem gone) (apart (before.recorded lib mem))
  | complete name version =>
      refine ⟨fun p mem => ?_, ?_, fun p mem => ?_, fun lib mem => ?_,
        fun e mem => later (before.fresh e mem), fun p mem => ?_, fun lib mem gone => ?_⟩
      · rcases List.mem_append.mp mem with old | new
        · exact before.handles p old
        · obtain rfl := List.mem_singleton.mp new
          rfl
      · change ((l.plugins ++ [_]).map LoadedPlugin.lib).Nodup
        rw [List.map_append, List.nodup_append]
        refine ⟨before.distinct, List.nodup_singleton _, fun lib old lib' new => ?_⟩
        obtain ⟨p, mem, rfl⟩ := List.mem_map.mp old
        obtain rfl := List.mem_singleton.mp new
        exact Nat.ne_of_lt (before.given p mem)
      · rcases List.mem_append.mp mem with old | new
        · exact later (before.given p old)
        · obtain rfl := List.mem_singleton.mp new
          exact Nat.lt_succ_self l.opened
      · rcases List.mem_append.mp mem with old | new
        · exact later (before.recorded lib old)
        · obtain rfl := List.mem_singleton.mp new
          exact Nat.lt_succ_self l.opened
      · rcases List.mem_append.mp mem with old | new
        · exact before.inUse p old
        · obtain rfl := List.mem_singleton.mp new
          exact ⟨0, eventsOf_eq_nil fun e seen => Nat.ne_of_lt (before.fresh e seen)⟩
      · rcases List.mem_append.mp mem with old | new
        · exact before.finished lib old fun p here => gone p (List.mem_append_left _ here)
        · obtain rfl := List.mem_singleton.mp new
          exact absurd rfl (gone _ (List.mem_append_right _ List.mem_cons_self))

theorem ledger_loadAll {l : Loader} (before : Ledger l) (platform : Platform)
    (dir : Option (List DirEntry)) : Ledger (loadAll platform dir l) := by
  cases dir with
  | none => exact before
  | some entries =>
      unfold loadAll
      dsimp only
      induction entries generalizing l with
      | nil => exact before
      | cons e rest ih =>
          unfold loadEntries
          split
          · exact ih before
          · split
            · exact ih before
            · dsimp only
              split
              · exact ih (ledger_loadPlugin before e.library)
              · exact ledger_loadPlugin before e.library

/-- One plugin leaves the vector, with its cleanup and its close. -/
theorem ledger_unload {l : Loader} (before : Ledger l) {front back : List LoadedPlugin}
    {p : LoadedPlugin} (here : l.plugins = front ++ p :: back) :
    Ledger { l with plugins := front ++ back, events := l.events ++ (unloadPlugin p).1 } := by
  have mem : p ∈ l.plugins := by
    rw [here]
    exact List.mem_append_right _ List.mem_cons_self
  have still : ∀ q ∈ front ++ back, q ∈ l.plugins := by
    intro q kept
    rw [here]
    rcases List.mem_append.mp kept with left | right
    · exact List.mem_append_left _ left
    · exact List.mem_append_right _ (List.mem_cons_of_mem p right)
  have calls : (unloadPlugin p).1 = [.cleanup p.lib, .close p.lib] := by
    unfold unloadPlugin
    rw [before.handles p mem]
  have distinct := before.distinct
  rw [here, List.map_append, List.map_cons] at distinct
  have middle := List.nodup_cons.mp (List.nodup_middle.mp distinct)
  rw [← List.map_append] at middle
  have others : ∀ q ∈ front ++ back, p.lib ≠ q.lib := fun q kept same =>
    middle.1 (same ▸ List.mem_map_of_mem kept)
  have apart : ∀ {lib : Nat}, p.lib ≠ lib → ∀ e ∈ (unloadPlugin p).1, e.lib ≠ lib := by
    intro lib other e called
    rw [calls] at called
    simp only [List.mem_cons, List.not_mem_nil, or_false] at called
    rcases called with rfl | rfl <;> exact other
  refine ⟨fun q kept => before.handles q (still q kept), middle.2,
    fun q kept => before.given q (still q kept), before.recorded, fun e called => ?_,
    fun q kept => inUse_append (before.inUse q (still q kept)) (apart (others q kept)),
    fun lib known gone => ?_⟩
  · rcases List.mem_append.mp called with old | new
    · exact before.fresh e old
    · rw [calls] at new
      simp only [List.mem_cons, List.not_mem_nil, or_false] at new
      rcases new with rfl | rfl <;> exact before.given p mem
  · by_cases same : p.lib = lib
    · subst same
      obtain ⟨n, used⟩ := before.inUse p mem
      refine ⟨n, ?_⟩
      rw [eventsOf_append, used, calls]
      simp [eventsOf, Event.lib]
    · refine finished_append (before.finished lib known fun q old => ?_) (apart same)
      rw [here] at old
      rcases List.mem_append.mp old with left | right
      · exact gone q (List.mem_append_left _ left)
      · rcases List.mem_cons.mp right with rfl | later
        · exact same
        · exact gone q (List.mem_append_right _ later)

theorem ledger_unloadAll {l : Loader} (before : Ledger l) : Ledger (unloadAll l) := by
  obtain ⟨plugins, opened, loaded, events⟩ := l
  induction plugins generalizing events with
  | nil => simpa [unloadAll] using before
  | cons p rest ih =>
      have here : p :: rest = [] ++ p :: rest := rfl
      have first := ledger_unload before here
      simpa [unloadAll, List.append_assoc] using ih (events ++ (unloadPlugin p).1) first

theorem ledger_removeAt {l : Loader} (before : Ledger l) (i : Nat) : Ledger (removeAt l i) := by
  cases item : l.plugins[i]? with
  | none =>
      unfold removeAt
      rw [item]
      exact before
  | some p =>
      obtain ⟨inside, here⟩ := List.getElem?_eq_some_iff.mp item
      have split : l.plugins = l.plugins.take i ++ p :: l.plugins.drop (i + 1) := by
        rw [← here, List.getElem_cons_drop, List.take_append_drop]
      have size : (l.plugins.take i).length = i := List.length_take_of_le (Nat.le_of_lt inside)
      have removed := removeAt_split _ _ p l split
      rw [size] at removed
      rw [removed]
      exact ledger_unload before split

/-- A round calls `collect` of the plugins in the vector only. -/
theorem ledger_collects {l : Loader} (before : Ledger l) :
    Ledger { l with events := l.events ++ l.plugins.map fun p => .collect p.lib } := by
  refine ⟨before.handles, before.distinct, before.given, before.recorded, fun e called => ?_,
    fun p mem => ?_, fun lib known gone => ?_⟩
  · rcases List.mem_append.mp called with old | new
    · exact before.fresh e old
    · obtain ⟨p, mem, rfl⟩ := List.mem_map.mp new
      exact before.given p mem
  · obtain ⟨n, used⟩ := before.inUse p mem
    have more : ∀ e ∈ eventsOf p.lib (l.plugins.map fun p => .collect p.lib),
        e = .collect p.lib := by
      intro e called
      obtain ⟨inside, same⟩ := List.mem_filter.mp called
      obtain ⟨q, _, rfl⟩ := List.mem_map.mp inside
      rw [← eq_of_beq same]
      rfl
    refine ⟨n + (eventsOf p.lib (l.plugins.map fun p => .collect p.lib)).length, ?_⟩
    rw [eventsOf_append, used, ← List.replicate_append_replicate,
      ← List.eq_replicate_of_mem more]
  · refine finished_append (before.finished lib known gone) fun e called => ?_
    obtain ⟨p, mem, rfl⟩ := List.mem_map.mp called
    exact gone p mem

theorem ledger_call {l : Loader} (before : Ledger l) (platform : Platform) (codec : Codec)
    (c : Call) : Ledger (call platform codec l c) := by
  cases c with
  | loadAll dir => exact ledger_loadAll before platform dir
  | unloadAll => exact ledger_unloadAll before
  | collectAll collect throws =>
      change Ledger ((collectLoop codec collect throws 0 l.plugins []).1.reverse.foldl removeAt
        { l with events := l.events ++ l.plugins.map fun p => .collect p.lib })
      generalize (collectLoop codec collect throws 0 l.plugins []).1.reverse = to_remove
      have start := ledger_collects before
      generalize ({ l with events := l.events ++ l.plugins.map fun p => Event.collect p.lib } :
        Loader) = l' at start ⊢
      induction to_remove generalizing l' with
      | nil => exact start
      | cons i rest ih => exact ih _ (ledger_removeAt start i)

theorem ledger_run (platform : Platform) (codec : Codec) (calls : List Call) :
    Ledger (run platform codec calls) := by
  unfold run
  have start := ledger_new
  generalize Loader.new = l at start ⊢
  induction calls generalizing l with
  | nil => exact start
  | cons c rest ih => exact ih _ (ledger_call start platform codec c)

end OrbisAgent.Plugins.PluginLifecycle
