import Mathlib.Data.List.Basic
import Mathlib.Algebra.Order.Floor.Semiring
import Mathlib.Data.List.Nodup
import Mathlib.Logic.Relation

/-! A list cut into consecutive slices of one size. -/
namespace Smo.Slices

variable {α : Type}

/-- The `k`-th slice, `items[k * size : (k + 1) * size]`. -/
def slice (size : Nat) (items : List α) (k : Nat) : List α := (items.drop (k * size)).take size

theorem flatMap_slice (size n : Nat) (items : List α) :
    (List.range n).flatMap (slice size items) = items.take (n * size) := by
  induction n with
  | zero => simp
  | succ n ih =>
    rw [List.range_succ, List.flatMap_append, ih, Nat.succ_mul, List.take_add]
    simp [slice]

theorem flatMap_slice_cover {size n : Nat} {items : List α} (cover : items.length ≤ n * size) :
    (List.range n).flatMap (slice size items) = items := by
  rw [flatMap_slice, List.take_of_length_le cover]

end Smo.Slices

/-! Staged rollouts over an arbitrary type of items. The stages are consecutive slices
of the items; a stage is one task an item, started when the stage before it has ended. A rollout
may be undone: one undo task for each task that was done, all at once or the last
stage first, retried when an undo failed. Nothing here names a program. -/
namespace Smo.Staged

inductive Outcome where
  | running | done | failed
  deriving DecidableEq, Repr

/-- A task of a stage, or the undoing of an earlier task. -/
structure Task (ε : Type) where
  item : ε
  stage : Nat
  outcome : Outcome
  undoes : Option Nat
  deriving DecidableEq, Repr

/-- `halted true`: halted at the end of a stage, with its outcome already decided on. -/
inductive Phase where
  | running | halted (answered : Bool) | completed | aborted | rollingBack | rolledBack
  | rollbackFailed
  deriving DecidableEq, Repr

namespace Phase

def undoing : Phase → Bool
  | .rollingBack | .rolledBack | .rollbackFailed => true
  | _ => false

/-- The phases in which every task of the plan has ended. -/
def settled : Phase → Bool
  | .halted answered => answered
  | .completed | .rollingBack | .rolledBack | .rollbackFailed => true
  | .running | .aborted => false

/-- The phases from which no stage is started any more. -/
def closed : Phase → Bool
  | .completed | .aborted | .rollingBack | .rolledBack | .rollbackFailed => true
  | .running | .halted _ => false

end Phase

structure Rollout (ε : Type) where
  items : List ε
  size : Nat
  count : Nat
  lastFirst : Bool
  current : Nat
  phase : Phase
  tasks : List (Task ε)

variable {ε : Type}

namespace Rollout

/-- The stages, in the order they are started. -/
def plan (r : Rollout ε) : List (List ε) := (List.range r.count).map (Slices.slice r.size r.items)

/-- The tasks of the plan, without those that undo. -/
def forward (r : Rollout ε) : List (Task ε) := r.tasks.filter (·.undoes.isNone)

def AllEnded (r : Rollout ε) : Prop :=
  ∀ (i : Nat) t, r.tasks[i]? = some t → t.undoes = none → t.outcome ≠ .running

def NoUndoRunning (r : Rollout ε) : Prop :=
  ∀ (i : Nat) t, r.tasks[i]? = some t → t.undoes ≠ none → t.outcome ≠ .running

/-- Task `o` of the plan was done. -/
def Done (r : Rollout ε) (o : Nat) (f : Task ε) : Prop :=
  r.tasks[o]? = some f ∧ f.undoes = none ∧ f.outcome = .done

/-- An undo of task `o` with that outcome exists. -/
def Undo (r : Rollout ε) (o : Nat) (outcome : Outcome) : Prop :=
  ∃ (i : Nat) (t : Task ε), r.tasks[i]? = some t ∧ t.undoes = some o ∧ t.outcome = outcome

/-- Task `o` was done and is neither undone nor being undone. -/
def Target (r : Rollout ε) (o : Nat) (f : Task ε) : Prop :=
  r.Done o f ∧ ¬r.Undo o .done ∧ ¬r.Undo o .running

/-- The tasks a step of the undoing takes up. -/
structure Batch (r : Rollout ε) (batch : List Nat) : Prop where
  nodup : batch.Nodup
  targets : ∀ o ∈ batch, ∃ f, r.Target o f
  all : r.lastFirst = false → ∀ o f, r.Target o f → o ∈ batch
  last : r.lastFirst = true → ∀ o ∈ batch, ∀ f, r.Target o f → ∀ o' f', r.Target o' f' →
    f'.stage ≤ f.stage

/-- The items of the first `n` stages, each with its stage, counted from 1. -/
def firstStages (plan : List (List ε)) (n : Nat) : List (Nat × ε) :=
  (List.range n).flatMap fun k => (plan.getD k []).map fun item => (k + 1, item)

def stageTasks (stage : Nat) (items : List ε) : List (Task ε) :=
  items.map fun item => ⟨item, stage, .running, none⟩

def undoTasks (r : Rollout ε) (batch : List Nat) : List (Task ε) :=
  batch.filterMap fun o => r.tasks[o]?.map fun t => ⟨t.item, t.stage, .running, some o⟩

end Rollout

open Rollout

/-- What one step of a rollout can do. -/
inductive Move : Rollout ε → Rollout ε → Prop
  | report (i : Nat) (t : Task ε) (outcome : Outcome) (found : r.tasks[i]? = some t)
      (running : t.outcome = .running) :
      Move r { r with tasks := r.tasks.set i { t with outcome := outcome } }
  | halt (answered : Bool) (running : r.phase = .running)
      (ended : answered = true → r.AllEnded) : Move r { r with phase := .halted answered }
  | hold (halted : r.phase = .halted answered) : Move r { r with phase := .halted false }
  | resume (halted : r.phase = .halted answered) : Move r { r with phase := .running }
  | startStage (items : List ε) (running : r.phase = .running) (ended : r.AllEnded)
      (planned : r.plan[r.current]? = some items) :
      Move r { r with
        current := r.current + 1
        tasks := r.tasks ++ stageTasks (r.current + 1) items }
  | finish (running : r.phase = .running) (ended : r.AllEnded)
      (last : r.plan.length ≤ r.current) : Move r { r with phase := .completed }
  | abort (halted : r.phase = .halted answered) : Move r { r with phase := .aborted }
  | rollback (batch : List Nat) (ended : r.AllEnded) (idle : r.NoUndoRunning)
      (taken : r.Batch batch) :
      Move r { r with phase := .rollingBack, tasks := r.tasks ++ r.undoTasks batch }
  | undoNext (batch : List Nat) (undoing : r.phase = .rollingBack) (reverse : r.lastFirst = true)
      (idle : r.NoUndoRunning) (taken : r.Batch batch) :
      Move r { r with tasks := r.tasks ++ r.undoTasks batch }
  | rollbackFailed (o : Nat) (undoing : r.phase = .rollingBack) (idle : r.NoUndoRunning)
      (failed : r.Undo o .failed) : Move r { r with phase := .rollbackFailed }
  | rollbackDone (undoing : r.phase = .rollingBack) (idle : r.NoUndoRunning)
      (undone : ∀ o outcome, r.Undo o outcome → r.Undo o .done)
      (nothingLeft : r.lastFirst = true → ∀ o f, ¬r.Target o f) :
      Move r { r with phase := .rolledBack }

abbrev Moves (r r' : Rollout ε) : Prop := Relation.ReflTransGen Move r r'

/-- The plan is followed stage by stage. -/
structure Inv (r : Rollout ε) : Prop where
  current_le : r.current ≤ r.plan.length
  started : r.forward.map (fun t => (t.stage, t.item)) = firstStages r.plan r.current
  earlier : ∀ (i : Nat) t, r.tasks[i]? = some t → t.undoes = none → t.stage < r.current →
    t.outcome ≠ .running
  settled : r.phase.settled = true → r.AllEnded
  last : r.phase = .completed → r.current = r.plan.length

/-- The undoing is complete and undoes nothing twice. -/
structure UndoInv (r : Rollout ε) : Prop where
  phase : ∀ (i : Nat) t, r.tasks[i]? = some t → t.undoes ≠ none → r.phase.undoing = true
  running : ∀ (i : Nat) t, r.tasks[i]? = some t → t.undoes ≠ none → t.outcome = .running →
    r.phase = .rollingBack
  target : ∀ (i : Nat) t o, r.tasks[i]? = some t → t.undoes = some o →
    ∃ f, r.Done o f ∧ f.stage = t.stage
  serial : ∀ (i j : Nat) t u o, i < j → r.tasks[i]? = some t → r.tasks[j]? = some u →
    t.undoes = some o → u.undoes = some o → t.outcome = .failed
  covered : r.lastFirst = false → r.phase.undoing = true → ∀ o f, r.Done o f →
    ∃ outcome, r.Undo o outcome
  order : r.lastFirst = true → ∀ (i : Nat) t, r.tasks[i]? = some t → t.undoes ≠ none →
    ∀ o f, r.Done o f → t.stage < f.stage → r.Undo o .done
  rolledBack : r.phase = .rolledBack → ∀ o f, r.Done o f → r.Undo o .done
  rollbackFailed : r.phase = .rollbackFailed → ∃ o, r.Undo o .failed

variable {r r' : Rollout ε} {i j o : Nat} {t u : Task ε} {outcome : Outcome}

section Lookup

variable {tasks : List (Task ε)}

theorem getElem?_append_some {α : Type} {items more : List α} {item : α} :
    (items ++ more)[i]? = some item ↔
      items[i]? = some item ∨ (items.length ≤ i ∧ more[i - items.length]? = some item) := by
  rcases Nat.lt_or_ge i items.length with within | beyond
  · simp [List.getElem?_append_left within, Nat.not_le.mpr within]
  · simp [List.getElem?_append_right beyond, beyond]

theorem getElem?_set_some (found : tasks[i]? = some t) :
    (tasks.set i u)[j]? = some t' ↔ (j = i ∧ t' = u) ∨ (j ≠ i ∧ tasks[j]? = some t') := by
  obtain ⟨within, -⟩ := List.getElem?_eq_some_iff.mp found
  by_cases same : i = j
  · subst same
    simp [List.getElem?_set_self within, eq_comm]
  · simp [List.getElem?_set_ne same, Ne.symm same]

theorem stageTasks_forward {stage : Nat} {items : List ε} (mem : t ∈ stageTasks stage items) :
    t.undoes = none ∧ t.stage = stage := by
  obtain ⟨item, -, rfl⟩ := List.mem_map.mp mem
  exact ⟨rfl, rfl⟩

theorem undoTasks_spec {batch : List Nat} (mem : t ∈ r.undoTasks batch) :
    ∃ o ∈ batch, ∃ f, r.tasks[o]? = some f ∧ t = ⟨f.item, f.stage, .running, some o⟩ := by
  obtain ⟨o, inBatch, h⟩ := List.mem_filterMap.mp mem
  cases found : r.tasks[o]? with
  | none => simp [found] at h
  | some f =>
    simp only [found, Option.map_some, Option.some.injEq] at h
    exact ⟨o, inBatch, f, found, h.symm⟩

theorem undoTasks_undoes {batch : List Nat} (mem : t ∈ r.undoTasks batch) : t.undoes ≠ none := by
  obtain ⟨o, -, f, -, rfl⟩ := undoTasks_spec mem
  simp

theorem forward_undoTasks (batch : List Nat) :
    (r.undoTasks batch).filter (·.undoes.isNone) = [] := by
  rw [List.filter_eq_nil_iff]
  intro t mem
  simpa using undoTasks_undoes mem

theorem undoTasks_nodup {batch : List Nat} (nodup : batch.Nodup)
    (first : (r.undoTasks batch)[i]? = some t) (second : (r.undoTasks batch)[j]? = some u)
    (undoes : t.undoes = some o) (undoes' : u.undoes = some o) : i = j := by
  have numbers : ((r.undoTasks batch).map (·.undoes)).Nodup := by
    have listed : ((r.undoTasks batch).map (·.undoes)).Sublist (batch.map some) := by
      clear first second nodup
      induction batch with
      | nil => simp [undoTasks]
      | cons o rest ih =>
        cases found : r.tasks[o]? with
        | none =>
          simp only [undoTasks, List.filterMap_cons, found, Option.map_none]
          exact ih.trans (List.sublist_cons_self _ _)
        | some f =>
          simp only [undoTasks, List.filterMap_cons, found, Option.map_some, List.map_cons]
          exact ih.cons_cons _
    exact (nodup.map (fun _ _ same => Option.some.inj same)).sublist listed
  obtain ⟨within, -⟩ := List.getElem?_eq_some_iff.mp first
  refine (List.getElem?_inj (by simpa using within) numbers).mp ?_
  rw [List.getElem?_map, List.getElem?_map, first, second, Option.map_some, Option.map_some,
    undoes, undoes']

end Lookup

section Plan

theorem forward_set {tasks : List (Task ε)} (found : tasks[i]? = some t) (outcome : Outcome) :
    ((tasks.set i { t with outcome := outcome }).filter (·.undoes.isNone)).map
        (fun t => (t.stage, t.item)) =
      (tasks.filter (·.undoes.isNone)).map fun t => (t.stage, t.item) := by
  induction tasks generalizing i with
  | nil => simp at found
  | cons first rest ih =>
    cases i with
    | zero =>
      simp only [List.getElem?_cons_zero, Option.some.injEq] at found
      subst found
      simp only [List.set_cons_zero, List.filter_cons]
      split <;> rfl
    | succ i =>
      have later := ih found
      simp only [List.set_cons_succ, List.filter_cons]
      split
      · simp only [List.map_cons, later]
      · exact later

@[simp] theorem length_plan : r.plan.length = r.count := by
  simp [Rollout.plan]

theorem firstStages_succ {plan : List (List ε)} {n : Nat} {items : List ε}
    (planned : plan[n]? = some items) :
    firstStages plan (n + 1) = firstStages plan n ++ items.map fun item => (n + 1, item) := by
  have listed : plan.getD n [] = items := by
    simp [List.getD_eq_getElem?_getD, planned]
  rw [firstStages, List.range_succ, List.flatMap_append, List.flatMap_singleton, listed]
  rfl

theorem Inv.stage_le (h : Inv r) (found : r.tasks[i]? = some t) (forward : t.undoes = none) :
    t.stage ≤ r.current := by
  have mem : (t.stage, t.item) ∈ r.forward.map (fun t => (t.stage, t.item)) :=
    List.mem_map_of_mem (List.mem_filter.mpr ⟨List.mem_of_getElem? found, by simp [forward]⟩)
  rw [h.started] at mem
  obtain ⟨k, before, mem⟩ := List.mem_flatMap.mp mem
  obtain ⟨item, -, same⟩ := List.mem_map.mp mem
  have stage : k + 1 = t.stage := congrArg Prod.fst same
  have before := List.mem_range.mp before
  omega

theorem Inv.allEnded (h : Inv r) (ended : ∀ (i : Nat) t, r.tasks[i]? = some t → t.undoes = none →
    t.stage = r.current → t.outcome ≠ .running) : r.AllEnded := by
  intro i t found forward
  rcases Nat.lt_or_eq_of_le (h.stage_le found forward) with before | current
  · exact h.earlier i t found forward before
  · exact ended i t found forward current

theorem Inv.with_phase (h : Inv r) (phase : Phase) (settled : phase.settled = true → r.AllEnded)
    (last : phase = .completed → r.current = r.plan.length) :
    Inv { r with phase := phase } where
  current_le := h.current_le
  started := h.started
  earlier := h.earlier
  settled := settled
  last := last

theorem Rollout.AllEnded.append_undos {batch : List Nat} (ended : r.AllEnded) (phase : Phase) :
    AllEnded { r with phase := phase, tasks := r.tasks ++ r.undoTasks batch } := by
  intro i t found forward
  rcases getElem?_append_some.mp found with found | ⟨-, found⟩
  · exact ended i t found forward
  · exact absurd forward (undoTasks_undoes (List.mem_of_getElem? found))

theorem Inv.append_undos (h : Inv r) (ended : r.AllEnded) (batch : List Nat) (phase : Phase)
    (open_ : phase ≠ .completed) :
    Inv { r with phase := phase, tasks := r.tasks ++ r.undoTasks batch } where
  current_le := h.current_le
  started := by
    refine Eq.trans ?_ h.started
    rw [forward, List.filter_append, forward_undoTasks, List.append_nil]
    rfl
  earlier := fun i t found forward _ => ended.append_undos phase i t found forward
  settled := fun _ => ended.append_undos phase
  last := fun same => absurd same open_

theorem Inv.startStage (h : Inv r) {items : List ε} (running : r.phase = .running)
    (ended : r.AllEnded) (planned : r.plan[r.current]? = some items) :
    Inv { r with
      current := r.current + 1
      tasks := r.tasks ++ stageTasks (r.current + 1) items } where
  current_le := (List.getElem?_eq_some_iff.mp planned).1
  started := by
    have all : (stageTasks (r.current + 1) items).filter (·.undoes.isNone) =
        stageTasks (r.current + 1) items := by
      rw [List.filter_eq_self]
      intro t mem
      simp [(stageTasks_forward mem).1]
    refine Eq.trans ?_ (firstStages_succ planned).symm
    rw [← h.started, forward, List.filter_append, List.map_append, all]
    simp [forward, stageTasks, Function.comp_def]
  earlier := by
    intro i t found forward before
    rcases getElem?_append_some.mp found with found | ⟨-, found⟩
    · exact ended i t found forward
    · have stage := (stageTasks_forward (List.mem_of_getElem? found)).2
      have before : t.stage < r.current + 1 := before
      omega
  settled := fun closed => by simp [running, Phase.settled] at closed
  last := fun same => by simp [running] at same

theorem Inv.report (h : Inv r) (outcome : Outcome) (found : r.tasks[i]? = some t)
    (running : t.outcome = .running) :
    Inv { r with tasks := r.tasks.set i { t with outcome := outcome } } where
  current_le := h.current_le
  started := (forward_set found outcome).trans h.started
  earlier := by
    intro j u hu forward before
    rcases (getElem?_set_some found).mp hu with ⟨rfl, rfl⟩ | ⟨-, hu⟩
    · exact absurd running (h.earlier j t found forward before)
    · exact h.earlier j u hu forward before
  settled := by
    intro closed j u hu forward
    rcases (getElem?_set_some found).mp hu with ⟨rfl, rfl⟩ | ⟨-, hu⟩
    · exact absurd running (h.settled closed j t found forward)
    · exact h.settled closed j u hu forward
  last := h.last

theorem Inv.move (h : Inv r) (move : Move r r') : Inv r' := by
  cases move with
  | report i t outcome found running => exact h.report outcome found running
  | halt answered running ended =>
    exact h.with_phase _ (fun settled => ended settled) (fun same => by cases same)
  | hold halted => exact h.with_phase _ (fun settled => by cases settled) (fun same => by cases same)
  | resume halted => exact h.with_phase _ (fun settled => by cases settled) (fun same => by cases same)
  | startStage items running ended planned => exact h.startStage running ended planned
  | finish running ended last =>
    exact h.with_phase _ (fun _ => ended) (fun _ => Nat.le_antisymm h.current_le last)
  | abort halted => exact h.with_phase _ (fun settled => by cases settled) (fun same => by cases same)
  | rollback batch ended idle taken => exact h.append_undos ended batch _ (by simp)
  | undoNext batch undoing reverse idle taken =>
    have ended := h.settled (by rw [undoing]; rfl)
    exact h.append_undos ended batch r.phase (by simp [undoing])
  | rollbackFailed o undoing idle failed =>
    exact h.with_phase _ (fun _ => h.settled (by rw [undoing]; rfl)) (fun same => by cases same)
  | rollbackDone undoing idle undone nothingLeft =>
    exact h.with_phase _ (fun _ => h.settled (by rw [undoing]; rfl)) (fun same => by cases same)

theorem move_keeps (move : Move r r') :
    r'.items = r.items ∧ r'.size = r.size ∧ r'.count = r.count ∧ r'.lastFirst = r.lastFirst := by
  cases move <;> exact ⟨rfl, rfl, rfl, rfl⟩

theorem moves_keep (moves : Moves r r') :
    r'.items = r.items ∧ r'.size = r.size ∧ r'.count = r.count ∧ r'.lastFirst = r.lastFirst := by
  induction moves with
  | refl => exact ⟨rfl, rfl, rfl, rfl⟩
  | tail _ move ih =>
    obtain ⟨items, size, count, lastFirst⟩ := move_keeps move
    exact ⟨items.trans ih.1, size.trans ih.2.1, count.trans ih.2.2.1, lastFirst.trans ih.2.2.2⟩

theorem Inv.fresh (first : r.current = 0) (no_tasks : r.tasks = []) (running : r.phase = .running) :
    Inv r where
  current_le := by omega
  started := by simp [forward, no_tasks, first, firstStages]
  earlier := fun i t found => by simp [no_tasks] at found
  settled := fun settled => by simp [running, Phase.settled] at settled
  last := fun same => by simp [running] at same

theorem Inv.moves (h : Inv r) (moves : Moves r r') : Inv r' := by
  induction moves with
  | refl => exact h
  | tail _ move ih => exact ih.move move

theorem closed_move (closed : r.phase.closed = true) (move : Move r r') :
    r'.phase.closed = true ∧ r'.forward.map (fun t => (t.stage, t.item)) =
      r.forward.map fun t => (t.stage, t.item) := by
  cases move with
  | report i t outcome found running => exact ⟨closed, forward_set found outcome⟩
  | halt answered running ended => simp [running, Phase.closed] at closed
  | hold halted => simp [halted, Phase.closed] at closed
  | resume halted => simp [halted, Phase.closed] at closed
  | startStage items running ended planned => simp [running, Phase.closed] at closed
  | finish running ended last => simp [running, Phase.closed] at closed
  | abort halted => simp [halted, Phase.closed] at closed
  | rollback batch ended idle taken =>
    exact ⟨rfl, by simp [forward, List.filter_append, forward_undoTasks]⟩
  | undoNext batch undoing reverse idle taken =>
    exact ⟨closed, by simp [forward, List.filter_append, forward_undoTasks]⟩
  | rollbackFailed o undoing idle failed => exact ⟨rfl, rfl⟩
  | rollbackDone undoing idle undone nothingLeft => exact ⟨rfl, rfl⟩

theorem closed_moves (closed : r.phase.closed = true) (moves : Moves r r') :
    r'.phase.closed = true ∧ r'.forward.map (fun t => (t.stage, t.item)) =
      r.forward.map fun t => (t.stage, t.item) := by
  induction moves with
  | refl => exact ⟨closed, rfl⟩
  | tail _ move ih =>
    obtain ⟨closed', same⟩ := ih
    obtain ⟨closed'', same'⟩ := closed_move closed' move
    exact ⟨closed'', same'.trans same⟩

end Plan

section Undoing

theorem UndoInv.fresh (no_tasks : r.tasks = []) (running : r.phase = .running) : UndoInv r where
  phase := fun i t found => by simp [no_tasks] at found
  running := fun i t found => by simp [no_tasks] at found
  target := fun i t o found => by simp [no_tasks] at found
  serial := fun i j t u o _ found => by simp [no_tasks] at found
  covered := fun _ undoing => by simp [running, Phase.undoing] at undoing
  order := fun _ i t found => by simp [no_tasks] at found
  rolledBack := fun same => by simp [running] at same
  rollbackFailed := fun same => by simp [running] at same

theorem UndoInv.no_undo (h : UndoInv r) (notUndoing : r.phase.undoing = false)
    (found : r.tasks[i]? = some t) : t.undoes = none := by
  by_contra undo
  have undoing := h.phase i t found undo
  simp [notUndoing] at undoing

theorem UndoInv.of_no_undo (none_undo : ∀ (i : Nat) t, r.tasks[i]? = some t → t.undoes = none)
    (notUndoing : r.phase.undoing = false) : UndoInv r where
  phase := fun i t found undo => absurd (none_undo i t found) undo
  running := fun i t found undo => absurd (none_undo i t found) undo
  target := fun i t o found undoes => by simp [none_undo i t found] at undoes
  serial := fun i j t u o _ found _ undoes => by simp [none_undo i t found] at undoes
  covered := fun _ undoing => by simp [notUndoing] at undoing
  order := fun _ i t found undo => absurd (none_undo i t found) undo
  rolledBack := fun same => by simp [same, Phase.undoing] at notUndoing
  rollbackFailed := fun same => by simp [same, Phase.undoing] at notUndoing

theorem UndoInv.with_phase (h : UndoInv r) (notUndoing : r.phase.undoing = false) (phase : Phase)
    (notUndoing' : phase.undoing = false) : UndoInv { r with phase := phase } :=
  of_no_undo (fun _ _ found => h.no_undo notUndoing found) notUndoing'

theorem UndoInv.startStage (h : UndoInv r) (items : List ε) (running : r.phase = .running) :
    UndoInv { r with
      current := r.current + 1
      tasks := r.tasks ++ stageTasks (r.current + 1) items } := by
  refine of_no_undo ?_ (by simp [running, Phase.undoing])
  intro i t found
  rcases getElem?_append_some.mp found with found | ⟨-, found⟩
  · exact h.no_undo (by simp [running, Phase.undoing]) found
  · exact (stageTasks_forward (List.mem_of_getElem? found)).1

theorem Rollout.Batch.undoTask {batch : List Nat} (taken : r.Batch batch)
    (found : (r.undoTasks batch)[i]? = some t) :
    ∃ o f, o ∈ batch ∧ r.Target o f ∧ t = ⟨f.item, f.stage, .running, some o⟩ := by
  obtain ⟨o, inBatch, f, hf, rfl⟩ := undoTasks_spec (List.mem_of_getElem? found)
  obtain ⟨f', target⟩ := taken.targets o inBatch
  obtain rfl : f = f' := Option.some.inj (hf.symm.trans target.1.1)
  exact ⟨o, f, inBatch, target, rfl⟩

theorem Rollout.Undo.append {tasks : List (Task ε)} (h : r.Undo o outcome) (phase : Phase) :
    Undo { r with phase := phase, tasks := r.tasks ++ tasks } o outcome := by
  obtain ⟨i, t, found, undoes, same⟩ := h
  exact ⟨i, t, getElem?_append_some.mpr (Or.inl found), undoes, same⟩

theorem Rollout.Done.of_append {batch : List Nat} {phase : Phase} {f : Task ε}
    (h : Done { r with phase := phase, tasks := r.tasks ++ r.undoTasks batch } o f) :
    r.Done o f := by
  obtain ⟨found, forward, done⟩ := h
  rcases getElem?_append_some.mp found with found | ⟨-, found⟩
  · exact ⟨found, forward, done⟩
  · exact absurd forward (undoTasks_undoes (List.mem_of_getElem? found))

theorem undo_done_of_not_target (idle : r.NoUndoRunning) {f : Task ε} (done : r.Done o f)
    (notTarget : ¬r.Target o f) : r.Undo o .done := by
  by_contra notDone
  refine notTarget ⟨done, notDone, ?_⟩
  rintro ⟨i, t, found, undoes, running⟩
  exact idle i t found (by simp [undoes]) running

theorem UndoInv.append_undos (h : UndoInv r) (idle : r.NoUndoRunning) {batch : List Nat}
    (taken : r.Batch batch) :
    UndoInv { r with phase := .rollingBack, tasks := r.tasks ++ r.undoTasks batch } where
  phase := fun _ _ _ _ => rfl
  running := fun _ _ _ _ _ => rfl
  target := by
    intro i t o found undoes
    rcases getElem?_append_some.mp found with found | ⟨-, found⟩
    · obtain ⟨f, done, stage⟩ := h.target i t o found undoes
      exact ⟨f, ⟨getElem?_append_some.mpr (Or.inl done.1), done.2⟩, stage⟩
    · obtain ⟨o', f, -, target, rfl⟩ := taken.undoTask found
      cases undoes
      exact ⟨f, ⟨getElem?_append_some.mpr (Or.inl target.1.1), target.1.2⟩, rfl⟩
  serial := by
    intro i j t u o before found found' undoes undoes'
    rcases getElem?_append_some.mp found with found | ⟨beyond, found⟩
    · rcases getElem?_append_some.mp found' with found' | ⟨-, found'⟩
      · exact h.serial i j t u o before found found' undoes undoes'
      · -- a target has no undo that is done or running
        obtain ⟨o', f, -, target, rfl⟩ := taken.undoTask found'
        cases undoes'
        cases outcome : t.outcome with
        | failed => rfl
        | done => exact absurd ⟨i, t, found, undoes, outcome⟩ target.2.1
        | running => exact absurd ⟨i, t, found, undoes, outcome⟩ target.2.2
    · rcases getElem?_append_some.mp found' with found' | ⟨-, found'⟩
      · obtain ⟨within, -⟩ := List.getElem?_eq_some_iff.mp found'
        omega
      · have same := undoTasks_nodup taken.nodup found found' undoes undoes'
        omega
  covered := by
    intro all _ o f done
    have done := Done.of_append done
    by_cases target : r.Target o f
    · have inBatch := taken.all all o f target
      have mem : ⟨f.item, f.stage, .running, some o⟩ ∈ r.undoTasks batch :=
        List.mem_filterMap.mpr ⟨o, inBatch, by rw [done.1, Option.map_some]⟩
      obtain ⟨i, found⟩ := List.getElem?_of_mem mem
      exact ⟨.running, r.tasks.length + i, _,
        getElem?_append_some.mpr (Or.inr ⟨by omega, by simpa using found⟩), rfl, rfl⟩
    · exact ⟨.done, (undo_done_of_not_target idle done target).append _⟩
  order := by
    intro reverse i t found undo o f done later
    have done := Done.of_append done
    rcases getElem?_append_some.mp found with found | ⟨-, found⟩
    · exact (h.order reverse i t found undo o f done later).append _
    · obtain ⟨o', f', inBatch, target, rfl⟩ := taken.undoTask found
      refine (undo_done_of_not_target idle done fun target' => ?_).append _
      exact absurd later (Nat.not_lt.mpr (taken.last reverse o' inBatch f' target o f target'))
  rolledBack := fun same => by cases same
  rollbackFailed := fun same => by cases same

theorem UndoInv.report (h : UndoInv r) (plan : Inv r) (outcome : Outcome)
    (found : r.tasks[i]? = some t) (running : t.outcome = .running) :
    UndoInv { r with tasks := r.tasks.set i { t with outcome := outcome } } := by
  by_cases forward : t.undoes = none
  · have notUndoing : r.phase.undoing = false := by
      cases undoing : r.phase.undoing with
      | false => rfl
      | true =>
        have settled : r.phase.settled = true := by
          revert undoing
          cases r.phase <;> simp [Phase.undoing, Phase.settled]
        exact absurd running (plan.settled settled i t found forward)
    refine of_no_undo ?_ notUndoing
    intro j u hu
    rcases (getElem?_set_some found).mp hu with ⟨rfl, rfl⟩ | ⟨-, hu⟩
    · exact forward
    · exact h.no_undo notUndoing hu
  · have rolling := h.running i t found forward running
    have undo_done {o : Nat} (undone : r.Undo o .done) :
        Undo { r with tasks := r.tasks.set i { t with outcome := outcome } } o .done := by
      obtain ⟨j, u, hu, undoes, done⟩ := undone
      refine ⟨j, u, (getElem?_set_some found).mpr (Or.inr ⟨?_, hu⟩), undoes, done⟩
      rintro rfl
      simp [Option.some.inj (found.symm.trans hu), done] at running
    have done_same {o : Nat} {f : Task ε} :
        Done { r with tasks := r.tasks.set i { t with outcome := outcome } } o f ↔ r.Done o f := by
      constructor
      · rintro ⟨hf, none_undo, done⟩
        rcases (getElem?_set_some found).mp hf with ⟨rfl, rfl⟩ | ⟨-, hf⟩
        · exact absurd none_undo forward
        · exact ⟨hf, none_undo, done⟩
      · rintro ⟨hf, none_undo, done⟩
        refine ⟨(getElem?_set_some found).mpr (Or.inr ⟨?_, hf⟩), none_undo, done⟩
        rintro rfl
        exact forward (by rw [Option.some.inj (found.symm.trans hf)]; exact none_undo)
    -- a task of the new list is one of the old list but for its outcome
    have old {j : Nat} {u : Task ε}
        (hu : (r.tasks.set i { t with outcome := outcome })[j]? = some u) :
        ∃ u', r.tasks[j]? = some u' ∧ u'.undoes = u.undoes ∧ u'.stage = u.stage ∧
          (u = u' ∨ u'.outcome = .running) := by
      rcases (getElem?_set_some found).mp hu with ⟨rfl, rfl⟩ | ⟨-, hu⟩
      · exact ⟨t, found, rfl, rfl, Or.inr running⟩
      · exact ⟨u, hu, rfl, rfl, Or.inl rfl⟩
    refine ⟨?_, ?_, ?_, ?_, ?_, ?_, ?_, ?_⟩
    · exact fun _ _ _ _ => by simp [rolling, Phase.undoing]
    · exact fun _ _ _ _ _ => rolling
    · intro j u o hu undoes
      obtain ⟨u', hu', same, stage, -⟩ := old hu
      obtain ⟨f, done, stage'⟩ := h.target j u' o hu' (same.trans undoes)
      exact ⟨f, done_same.mpr done, stage'.trans stage⟩
    · intro j k u v o before hu hv undoes undoes'
      obtain ⟨u', hu', same, -, unchanged⟩ := old hu
      obtain ⟨v', hv', same', -, -⟩ := old hv
      have failed := h.serial j k u' v' o before hu' hv' (same.trans undoes) (same'.trans undoes')
      rcases unchanged with rfl | running'
      · exact failed
      · simp [running'] at failed
    · intro all undoing o f done
      obtain ⟨outcome', j, u, hu, undoes, -⟩ := h.covered all undoing o f (done_same.mp done)
      by_cases same : j = i
      · subst same
        obtain rfl := Option.some.inj (found.symm.trans hu)
        exact ⟨outcome, j, _, (getElem?_set_some found).mpr (Or.inl ⟨rfl, rfl⟩), undoes, rfl⟩
      · exact ⟨_, j, u, (getElem?_set_some found).mpr (Or.inr ⟨same, hu⟩), undoes, rfl⟩
    · intro reverse j u hu undo o f done later
      obtain ⟨u', hu', same, stage, -⟩ := old hu
      exact undo_done (h.order reverse j u' hu' (same ▸ undo) o f (done_same.mp done)
        (stage ▸ later))
    · exact fun same => by simp [rolling] at same
    · exact fun same => by simp [rolling] at same

theorem UndoInv.rolledBack_of (h : UndoInv r) (undoing : r.phase = .rollingBack)
    (idle : r.NoUndoRunning) (undone : ∀ o outcome, r.Undo o outcome → r.Undo o .done)
    (nothingLeft : r.lastFirst = true → ∀ o f, ¬r.Target o f) :
    UndoInv { r with phase := .rolledBack } where
  phase := fun _ _ _ _ => rfl
  running := fun i t found undo running => absurd running (idle i t found undo)
  target := h.target
  serial := h.serial
  covered := fun all _ => h.covered all (by rw [undoing]; rfl)
  order := h.order
  rolledBack := by
    intro _ o f done
    cases direction : r.lastFirst with
    | true => exact undo_done_of_not_target idle done (nothingLeft direction o f)
    | false =>
      obtain ⟨outcome, undo⟩ := h.covered direction (by rw [undoing]; rfl) o f done
      exact undone o outcome undo
  rollbackFailed := fun same => by cases same

theorem UndoInv.rollbackFailed_of (h : UndoInv r) (undoing : r.phase = .rollingBack)
    (idle : r.NoUndoRunning) (failed : r.Undo o .failed) :
    UndoInv { r with phase := .rollbackFailed } where
  phase := fun _ _ _ _ => rfl
  running := fun i t found undo running => absurd running (idle i t found undo)
  target := h.target
  serial := h.serial
  covered := fun all _ => h.covered all (by rw [undoing]; rfl)
  order := h.order
  rolledBack := fun same => by cases same
  rollbackFailed := fun _ => ⟨o, failed⟩

theorem UndoInv.move (h : UndoInv r) (plan : Inv r) (move : Move r r') : UndoInv r' := by
  cases move with
  | report i t outcome found running => exact h.report plan outcome found running
  | halt answered running ended => exact h.with_phase (by rw [running]; rfl) _ rfl
  | hold halted => exact h.with_phase (by rw [halted]; rfl) _ rfl
  | resume halted => exact h.with_phase (by rw [halted]; rfl) _ rfl
  | startStage items running ended planned => exact h.startStage items running
  | finish running ended last => exact h.with_phase (by rw [running]; rfl) _ rfl
  | abort halted => exact h.with_phase (by rw [halted]; rfl) _ rfl
  | rollback batch ended idle taken => exact h.append_undos idle taken
  | undoNext batch undoing reverse idle taken =>
    have next := h.append_undos idle taken
    rwa [← undoing] at next
  | rollbackFailed o undoing idle failed => exact h.rollbackFailed_of undoing idle failed
  | rollbackDone undoing idle undone nothingLeft =>
    exact h.rolledBack_of undoing idle undone nothingLeft

theorem UndoInv.moves (h : UndoInv r) (plan : Inv r) (moves : Moves r r') : UndoInv r' := by
  induction moves with
  | refl => exact h
  | tail earlier move ih => exact ih.move (plan.moves earlier) move

end Undoing

end Smo.Staged
