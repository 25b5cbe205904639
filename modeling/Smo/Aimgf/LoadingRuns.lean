import Smo.Aimgf.EndOfLife
import Smo.Aimgf.Loading

/-! What becomes of the models that a load has finished, in any interleaving of loads with each
other and with the requests for the same lifecycle rows. -/
namespace Smo.Aimgf

open Versioned (Row)

section Rows

variable {row next : ModelLifecycle} {m : ModelId} {deployment : Nat}

theorem ModelLifecycle.loadRuntime_active (settled : Settled row)
    (loads : row.loadRuntime m deployment = .ok next) : next.runtimeLifecycleState = .active := by
  unfold loadRuntime at loads
  split at loads
  · cases loads
  split at loads
  · cases loads
  next ends =>
    obtain ⟨deployed, first, second⟩ := bind_ok loads
    have up : deployed.runtimeLifecycleState = .deployed ∨
        deployed.runtimeLifecycleState = .active := by
      split at first
      · unfold deployRuntime at first
        split at first
        · cases first
        · obtain ⟨requested, -, completed⟩ := bind_ok first
          obtain ⟨-, rfl⟩ := fireRuntime_ok completed
          exact .inl rfl
      · next other =>
        cases first
        have rests := settled.rests
        simp only [List.mem_cons, List.not_mem_nil, or_false] at rests
        simpa [other, not_or.mp ends] using rests
    split at second
    · obtain ⟨-, -, rest⟩ := bind_ok second
      obtain ⟨activating, -, completed⟩ := bind_ok rest
      obtain ⟨-, rfl⟩ := fireRuntime_ok completed
      rfl
    · next other =>
      cases second
      exact up.resolve_left other

end Rows

namespace Serving

variable {s s' : State} {r : Request} {i : Nat} {m : ModelId}

def HeldSettled (s : State) : Prop :=
  ∀ (i : Nat) (r : Request), s.request i = some r →
    ∀ (m : ModelId) (row : Row ModelLifecycle), r.held m = some row → Settled row.value

structure Continues (s s' : State) : Prop where
  length : s.requests.length ≤ s'.requests.length
  calls : ∀ i r', i < s.requests.length → s'.request i = some r' →
    ∃ r, s.request i = some r ∧ r'.call = r.call

theorem Continues.set {request : Option Request}
    (same : ∀ r', request = some r' → ∃ r, s.request i = some r ∧ r'.call = r.call) :
    Continues s (s.setRequest i request) := by
  refine ⟨by simp [State.setRequest], fun j r' _ is => ?_⟩
  have found := Option.join_eq_some_iff.mp is
  rcases Table.set_cases found with ⟨rfl, its⟩ | ⟨-, was⟩
  · exact same r' its.symm
  · exact ⟨r', Option.join_eq_some_iff.mpr was, rfl⟩

theorem Continues.closed (i : Nat) : Continues s (s.setRequest i none) :=
  .set fun _ is => by cases is

theorem Continues.act {act : Act} (step : State.Step s act s') : Continues s s' := by
  cases act with
  | arrive outside call =>
    cases step
    refine ⟨by simp, fun j r' within is => ⟨r', ?_, rfl⟩⟩
    unfold State.request at is ⊢
    rwa [List.getElem?_append_left within] at is
  | read i modelId =>
    obtain ⟨r, is, reads⟩ := Option.bind_eq_some_iff.mp step
    split at reads <;> cases reads
    refine .set fun r' new => ⟨r, is, ?_⟩
    cases new
    rfl
  | dies i =>
    cases step
    exact .closed i
  | commit i =>
    obtain ⟨r, is, commits⟩ := Option.bind_eq_some_iff.mp step
    split at commits <;> cases commits
    unfold State.finish
    split
    · exact ⟨(Continues.closed (s := s) i).length, (Continues.closed (s := s) i).calls⟩
    · exact .closed i

theorem HeldSettled.set {request : Option Request} (held : HeldSettled s)
    (new : ∀ r, request = some r → ∀ m row, r.held m = some row → Settled row.value) :
    HeldSettled (s.setRequest i request) := by
  intro j r is
  rcases request_set is with its | was
  · exact new r its
  · exact held j r was

theorem HeldSettled.act {act : Act} (held : HeldSettled s) (sound : Sound s)
    (step : State.Step s act s') : HeldSettled s' := by
  cases act with
  | arrive outside call =>
    cases step
    intro j r is
    rcases Table.append_cases (Option.join_eq_some_iff.mp is) with ⟨-, new⟩ | was
    · cases new
      exact fun _ _ none => by cases none
    · exact held j r (Option.join_eq_some_iff.mpr was)
  | read i modelId =>
    obtain ⟨r, is, reads⟩ := Option.bind_eq_some_iff.mp step
    split at reads <;> cases reads
    refine held.set fun r' new m row holds => ?_
    cases new
    dsimp only at holds
    split at holds
    · cases holds
      exact sound.settled _
    · exact held i r is m row holds
  | dies i =>
    cases step
    exact held.set fun _ none => by cases none
  | commit i =>
    obtain ⟨r, is, commits⟩ := Option.bind_eq_some_iff.mp step
    split at commits <;> cases commits
    have closed : HeldSettled (s.setRequest i none) := held.set fun _ none => by cases none
    unfold State.finish
    split
    · exact closed
    · exact closed

end Serving

namespace Loading

open Serving (Request)

section Turns

variable {refs modelIds : List ModelId} {process : MLModelLoadingProcess} {count : Nat}

theorem mem_turns {m : ModelId} : m ∈ (modelIds.foldl (turn count) (refs, process)).1 ↔
    m ∈ refs ∨ m ∈ modelIds := by
  induction modelIds generalizing refs process with
  | nil => simp
  | cons first rest ih =>
    rw [List.foldl_cons, turn, ih, List.mem_cons, ← or_assoc]
    refine or_congr_left ?_
    split
    · next known => exact ⟨.inl, fun is => is.elim id fun same => same ▸ known⟩
    · rw [List.mem_append, List.mem_singleton]

theorem nodup_turns (nodup : refs.Nodup) :
    (modelIds.foldl (turn count) (refs, process)).1.Nodup := by
  induction modelIds generalizing refs process with
  | nil => exact nodup
  | cons first rest ih =>
    rw [List.foldl_cons, turn]
    refine ih ?_
    split
    · exact nodup
    · next fresh =>
      rw [← List.concat_eq_append]
      exact nodup.concat fresh

theorem turns_known (known : ∀ m ∈ modelIds, m ∈ refs) :
    (modelIds.foldl (turn count) (refs, process)).1 = refs := by
  induction modelIds generalizing process with
  | nil => rfl
  | cons first rest ih =>
    rw [List.foldl_cons, turn, if_pos (known first List.mem_cons_self)]
    exact ih fun m mem => known m (List.mem_cons_of_mem _ mem)

theorem loaded_turns : (modelIds.foldl (turn count) (refs, process)).2.loadedMlModelRefs =
    process.loadedMlModelRefs ++ modelIds := by
  induction modelIds generalizing refs process with
  | nil => simp
  | cons first rest ih =>
    rw [List.foldl_cons, turn, ih, List.append_assoc, List.singleton_append]

end Turns

variable {s s' : State} {load : Load} {r : Request} {i : Nat} {m : ModelId}

theorem mapError_ok {ε ε' α : Type} {change : ε → ε'} {result : Except ε α} {value : α}
    (ok : result.mapError change = .ok value) : result = .ok value := by
  cases result with
  | error _ => cases ok
  | ok value' =>
    cases ok
    rfl

structure Committed (s : State) (load : Load) (r : Request) (s' : State) : Prop where
  alive : s.function ≠ none
  fresh : s.serving.fresh r = true
  passed : ∃ rows, turns r = .ok rows
  serving : s'.serving = s.serving.apply r
  loads : s'.loads = s.loads
  function : s'.function = s.function ∧ (∀ m ∈ load.modelIds, m ∈ load.refs.getD []) ∨
    ∃ loaded, s'.function = some loaded ∧ (∃ m ∈ load.modelIds, m ∉ load.refs.getD []) ∧
      (∀ m, m ∈ loaded ↔ m ∈ load.refs.getD [] ∨ m ∈ load.modelIds) ∧
      ((load.refs.getD []).Nodup → loaded.Nodup)
  processes : ∃ process, s'.processes = s.processes ++ [process] ∧ process.status = .finished ∧
    process.loadedMlModelRefs = load.modelIds

theorem commitLoading_ok {requestRefs policyRefs : List Nat} (passed : ∃ rows, turns r = .ok rows)
    (ok : s.commitLoading load r requestRefs policyRefs = .ok s') :
    Committed s load r s' ∧ s'.requests = s.requests := by
  unfold State.commitLoading runLoading at ok
  dsimp only at ok
  split at ok
  · cases ok
  next alive =>
    split at ok
    · cases ok
    next fresh =>
      cases ok
      refine ⟨⟨alive, by simpa using fresh, passed, rfl, rfl, ?_, _, rfl, rfl, loaded_turns⟩, rfl⟩
      dsimp only
      split
      · next same =>
        refine .inl ⟨rfl, fun m mem => ?_⟩
        rw [← same]
        exact mem_turns.mpr (.inr mem)
      · next differs =>
        refine .inr ⟨_, rfl, ?_, fun m => mem_turns, nodup_turns⟩
        by_contra all
        push Not at all
        exact differs (turns_known all)

inductive Recorded (s : State) (load : Load) : List (Option MLModelLoadingRequest) → Prop
  | same : Recorded s load s.requests
  | added (row : MLModelLoadingRequest) (names : row.mlModelToLoadRefs = load.modelIds)
      (finished : row.requestStatus = .finished → load.start.runs = true) :
      Recorded s load (s.requests ++ [some row])
  | written (i : Nat) (read : MLModelLoadingRequest) (flags : RequestFlags)
      (current row : MLModelLoadingRequest) (is : load.start = .modify i read flags)
      (was : s.request i = some current)
      (names : row.mlModelToLoadRefs = current.mlModelToLoadRefs)
      (finished : row.requestStatus = .finished →
        current.requestStatus = .finished ∨ flags.resumes read = true) :
      Recorded s load (s.requests.set i (some row))

theorem writeRequest_ok {start : State} {read next : MLModelLoadingRequest} {flags : RequestFlags}
    (is : load.start = .modify i read flags) (same : s.requests = start.requests)
    (finished : next.requestStatus = .finished → flags.resumes read = true)
    (ok : s.writeRequest i read next = .ok s') :
    ∃ requests, s' = { s with requests } ∧ Recorded start load requests := by
  unfold State.writeRequest at ok
  split at ok
  · split at ok <;> cases ok
    exact ⟨_, rfl, same ▸ .same⟩
  · next current was =>
    cases ok
    refine ⟨_, rfl, ?_⟩
    rw [same]
    refine .written i read flags current _ is (by unfold State.request at was ⊢; rwa [← same]) rfl
      fun ends => ?_
    dsimp only at ends
    split at ends
    · exact .inl ends
    · exact .inr (finished ends)

theorem addRequest_ok (start : State) {row : MLModelLoadingRequest}
    (same : s.requests = start.requests) (names : row.mlModelToLoadRefs = load.modelIds)
    (finished : row.requestStatus = .finished → load.start.runs = true)
    (ok : s.addRequest row = .ok s') :
    ∃ requests, s' = { s with requests } ∧ Recorded start load requests := by
  unfold State.addRequest at ok
  split at ok <;> cases ok
  refine ⟨_, rfl, ?_⟩
  rw [same]
  exact .added row names finished

theorem transaction_ok (ok : s.transaction load r = .ok s') :
    ∃ requests, Recorded s load requests ∧
      (load.start.runs = false ∧ s' = { s with requests } ∨
       load.start.runs = true ∧ ∃ loaded, Committed s load r loaded ∧
        s' = { loaded with requests }) := by
  unfold State.transaction at ok
  split at ok
  · next policy is =>
    unfold State.triggerPolicy at ok
    obtain ⟨rows, passed, ran⟩ := bind_ok ok
    obtain ⟨committed, same⟩ := commitLoading_ok ⟨rows, passed⟩ ran
    exact ⟨s.requests, .same, .inr ⟨by rw [is]; rfl, s', committed, by rw [← same]⟩⟩
  · next cancelRequest suspendRequest is =>
    unfold State.createRequest at ok
    obtain ⟨rows, passed, rest⟩ := bind_ok ok
    split at rest
    · next cancels =>
      obtain ⟨requests, rfl, recorded⟩ := addRequest_ok s rfl rfl (by simp) rest
      exact ⟨requests, recorded, .inl ⟨by simp [is, Start.runs, cancels], rfl⟩⟩
    split at rest
    · next suspends =>
      obtain ⟨requests, rfl, recorded⟩ := addRequest_ok s rfl rfl (by simp) rest
      exact ⟨requests, recorded, .inl ⟨by simp [is, Start.runs, suspends], rfl⟩⟩
    · next proceeds waits =>
      have runs : load.start.runs = true := by simp [is, Start.runs, proceeds, waits]
      obtain ⟨loaded, ran, added⟩ := bind_ok rest
      obtain ⟨committed, same⟩ := commitLoading_ok ⟨rows, passed⟩ ran
      obtain ⟨requests, rfl, recorded⟩ := addRequest_ok s same rfl (fun _ => runs) added
      exact ⟨requests, recorded, .inr ⟨runs, loaded, committed, rfl⟩⟩
  · next i row flags is =>
    unfold State.modifyRequest at ok
    split at ok
    · cases ok
    split at ok
    · next cancels =>
      obtain ⟨requests, rfl, recorded⟩ := writeRequest_ok is rfl (by simp) ok
      have rests : load.start.runs = false := by simp [is, Start.runs, RequestFlags.resumes, cancels]
      exact ⟨requests, recorded, .inl ⟨rests, rfl⟩⟩
    next proceeds =>
    split at ok
    · next resumes =>
      have runs : flags.resumes row = true := by
        simpa [RequestFlags.resumes] using ⟨proceeds, resumes⟩
      obtain ⟨rows, passed, rest⟩ := bind_ok ok
      obtain ⟨loaded, ran, writes⟩ := bind_ok rest
      obtain ⟨committed, same⟩ := commitLoading_ok ⟨rows, passed⟩ ran
      obtain ⟨requests, rfl, recorded⟩ := writeRequest_ok is same (fun _ => runs) writes
      exact ⟨requests, recorded, .inr ⟨by rw [is]; exact runs, loaded, committed, rfl⟩⟩
    next waits =>
    have rests : load.start.runs = false := by
      rw [is]
      simpa [Start.runs, RequestFlags.resumes] using fun _ resumes => fun is => waits ⟨resumes, is⟩
    split at ok
    · obtain ⟨requests, rfl, recorded⟩ := writeRequest_ok is rfl (by simp) ok
      exact ⟨requests, recorded, .inl ⟨rests, rfl⟩⟩
    · cases ok
      exact ⟨s.requests, .same, .inl ⟨rests, rfl⟩⟩

def State.names (s : State) (m : ModelId) : Prop :=
  (∃ process ∈ s.processes, process.status = .finished ∧ m ∈ process.loadedMlModelRefs) ∨
    ∃ i row, s.request i = some row ∧ row.requestStatus = .finished ∧ m ∈ row.mlModelToLoadRefs

/-- The list of the function and the rows of the requests only grow, but for what goes with the
function. -/
structure Grew (s s' : State) : Prop where
  continues : Serving.Continues s.serving s'.serving
  function : ∀ now', s'.function = some now' → ∃ now, s.function = some now ∧ ∀ m ∈ now, m ∈ now'
  requests : ∀ (i : Nat) (entry : Option MLModelLoadingRequest), s.requests[i]? = some entry →
    ∃ entry', s'.requests[i]? = some entry' ∧ ∀ row', entry' = some row' →
      ∃ row, entry = some row ∧ row'.mlModelToLoadRefs = row.mlModelToLoadRefs

structure Knows (s : State) (i : Nat) (load : Load) : Prop where
  within : i < s.serving.requests.length
  call : ∀ r, s.serving.request i = some r → r.call = .load load.modelIds
  nodup : (load.refs.getD []).Nodup
  refs : ∀ now, s.function = some now → ∀ m ∈ load.refs.getD [], m ∈ now
  row : ∀ request row flags, load.start = .modify request row flags →
    (∃ entry, s.requests[request]? = some entry ∧ ∀ current, entry = some current →
      current.mlModelToLoadRefs = row.mlModelToLoadRefs) ∧
    (flags.resumes row = true → load.modelIds = row.mlModelToLoadRefs)

structure Sound (s : State) : Prop where
  serving : Serving.Sound s.serving
  held : Serving.HeldSettled s.serving
  nodup : ∀ now, s.function = some now → now.Nodup
  knows : ∀ i load, s.loads i = some load → Knows s i load
  listed : ∀ m, s.names m → ∃ now, s.function = some now ∧ m ∈ now

theorem Knows.grew (knows : Knows s i load) (grew : Grew s s') : Knows s' i load where
  within := Nat.lt_of_lt_of_le knows.within grew.continues.length
  call r' is' := by
    obtain ⟨r, is, same⟩ := grew.continues.calls i r' knows.within is'
    rw [same]
    exact knows.call r is
  nodup := knows.nodup
  refs now' is' m mem := by
    obtain ⟨now, is, more⟩ := grew.function now' is'
    exact more m (knows.refs now is m mem)
  row request row flags is := by
    obtain ⟨⟨entry, found, same⟩, resumes⟩ := knows.row request row flags is
    obtain ⟨entry', found', names⟩ := grew.requests request entry found
    refine ⟨⟨entry', found', fun current is' => ?_⟩, resumes⟩
    obtain ⟨before, was, kept⟩ := names current is'
    exact kept.trans (same before was)

theorem Grew.same (continues : Serving.Continues s.serving s'.serving)
    (function : s'.function = s.function) (requests : s'.requests = s.requests) : Grew s s' where
  continues := continues
  function now is := ⟨now, function ▸ is, fun _ mem => mem⟩
  requests _ entry found := ⟨entry, requests ▸ found, fun row is => ⟨row, is, rfl⟩⟩

theorem Recorded.grew {requests : List (Option MLModelLoadingRequest)}
    (recorded : Recorded s load requests) (i : Nat) (entry : Option MLModelLoadingRequest)
    (found : s.requests[i]? = some entry) : ∃ entry', requests[i]? = some entry' ∧
      ∀ row', entry' = some row' →
        ∃ row, entry = some row ∧ row'.mlModelToLoadRefs = row.mlModelToLoadRefs := by
  cases recorded with
  | same => exact ⟨entry, found, fun row is => ⟨row, is, rfl⟩⟩
  | added row names finished =>
    have within := (List.getElem?_eq_some_iff.mp found).1
    exact ⟨entry, by rw [List.getElem?_append_left within, found], fun row is => ⟨row, is, rfl⟩⟩
  | written j read flags current row is was names finished =>
    by_cases same : j = i
    · subst same
      have entryIs : entry = some current := by
        simpa [State.request, found] using was
      have within := (List.getElem?_eq_some_iff.mp found).1
      refine ⟨some row, List.getElem?_set_self within, fun row' is' => ?_⟩
      cases is'
      exact ⟨current, entryIs, names⟩
    · exact ⟨entry, by rw [List.getElem?_set_ne same, found], fun row is => ⟨row, is, rfl⟩⟩

theorem Recorded.finished {requests : List (Option MLModelLoadingRequest)} (knows : Knows s i load)
    (recorded : Recorded s load requests) {j : Nat} {row : MLModelLoadingRequest}
    (is : requests[j]?.join = some row) (ends : row.requestStatus = .finished) :
    (∃ before, s.request j = some before ∧ before.requestStatus = .finished ∧
      row.mlModelToLoadRefs = before.mlModelToLoadRefs) ∨
    load.start.runs = true ∧ row.mlModelToLoadRefs = load.modelIds := by
  have found := Option.join_eq_some_iff.mp is
  cases recorded with
  | same => exact .inl ⟨row, is, ends, rfl⟩
  | added new names finished =>
    rcases Table.append_cases found with ⟨-, its⟩ | was
    · cases its
      exact .inr ⟨finished ends, names⟩
    · exact .inl ⟨row, Option.join_eq_some_iff.mpr was, ends, rfl⟩
  | written k read flags current new modifies was names finished =>
    rcases Table.set_cases found with ⟨rfl, its⟩ | ⟨-, same⟩
    · cases its
      rcases finished ends with before | resumes
      · exact .inl ⟨current, was, before, names⟩
      · obtain ⟨⟨entry, has, kept⟩, asks⟩ := knows.row j read flags modifies
        have entryIs : entry = some current := by simpa [State.request, has] using was
        refine .inr ⟨by rw [modifies]; exact resumes, ?_⟩
        rw [names, kept current entryIs, asks resumes]
    · exact .inl ⟨row, Option.join_eq_some_iff.mpr same, ends, rfl⟩

/-- The commit would take from the function's list a model that another load has added to it. -/
def State.clobbers (s : State) (load : Load) : Bool :=
  load.modelIds.any (· ∉ load.refs.getD []) && s.function.any fun now =>
    now.any fun m => m ∉ load.refs.getD [] && m ∉ load.modelIds

def State.lost (s : State) (load : Load) (r : Request) : Bool := load.modelIds.any fun m =>
  (r.held m).any (·.value.runtimeLifecycleState = .active) && s.serving.runtime m ≠ .active

def State.overtaken (s : State) : Act → Bool
  | .commit i => (s.loads i).any fun load => (s.serving.request i).any fun r =>
    load.start.runs && r.accepted && s.serving.fresh r && (s.clobbers load || s.lost load r)
  | _ => false

theorem accepted_of_turns {rows : List ModelLifecycle} (passed : turns r = .ok rows) :
    r.accepted = true := by
  have each := mapError_ok passed
  refine List.all_eq_true.mpr fun m mem => ?_
  obtain ⟨next, -, moves⟩ := mapM_ok_mem each mem
  cases held : r.held m with
  | none => rfl
  | some row =>
    rw [held] at moves
    simpa [Except.isOk, Except.toBool] using congrArg Except.toBool moves

namespace Committed

variable {loaded : State} (committed : Committed s load r loaded)

include committed

theorem step (is : s.serving.request i = some r) (ready : r.ready = true) :
    Serving.State.Step s.serving (.commit i) (loaded.serving.setRequest i none) := by
  obtain ⟨rows, passed⟩ := committed.passed
  unfold Serving.State.Step Serving.State.act Serving.State.finish
  simp [is, ready, accepted_of_turns passed, committed.fresh, committed.serving]

theorem overtaken (is : s.serving.request i = some r) (of : s.loads i = some load)
    (runs : load.start.runs = true) (sure : s.overtaken (.commit i) = false) :
    s.clobbers load = false ∧ s.lost load r = false := by
  obtain ⟨rows, passed⟩ := committed.passed
  simpa [State.overtaken, of, is, runs, accepted_of_turns passed, committed.fresh] using sure

theorem list (knows : Knows s i load) (sure : s.clobbers load = false)
    (nodup : ∀ now, s.function = some now → now.Nodup) :
    ∃ now now', s.function = some now ∧ loaded.function = some now' ∧ now'.Nodup ∧
      (∀ m ∈ now, m ∈ now') ∧ ∀ m ∈ load.modelIds, m ∈ now' := by
  obtain ⟨now, is⟩ := Option.ne_none_iff_exists'.mp committed.alive
  rcases committed.function with ⟨same, known⟩ | ⟨now', is', ⟨m, asked, unknown⟩, mem, each⟩
  · exact ⟨now, now, is, same.trans is, nodup now is, fun _ => id,
      fun m asked => knows.refs now is m (known m asked)⟩
  · refine ⟨now, now', is, is', each knows.nodup, fun other its => (mem other).mpr ?_,
      fun other asked => (mem other).mpr (.inr asked)⟩
    have grows : load.modelIds.any (· ∉ load.refs.getD []) = true :=
      List.any_eq_true.mpr ⟨m, asked, decide_eq_true unknown⟩
    unfold State.clobbers at sure
    rw [grows, is, Bool.true_and, Option.any_some] at sure
    have here := List.any_eq_false.mp sure other its
    by_contra neither
    rw [not_or] at neither
    exact here (by simpa using neither)

theorem processes_cases (runs : load.start.runs = true) :
    ∀ process ∈ loaded.processes, process ∈ s.processes ∨
      load.start.runs = true ∧ process.loadedMlModelRefs = load.modelIds := by
  obtain ⟨added, same, -, all⟩ := committed.processes
  intro process mem
  rw [same, List.mem_append, List.mem_singleton] at mem
  rcases mem with before | rfl
  · exact .inl before
  · exact .inr ⟨runs, all⟩

theorem active (knows : Knows s i load) (held : Serving.HeldSettled s.serving)
    (is : s.serving.request i = some r) (ready : r.ready = true) (sure : s.lost load r = false)
    (asked : m ∈ load.modelIds) : loaded.serving.runtime m = .active := by
  have call := knows.call r is
  have its : m ∈ r.call.models := by
    rw [call]
    exact asked
  obtain ⟨rows, passed⟩ := committed.passed
  obtain ⟨next, -, moves⟩ := mapM_ok_mem (mapError_ok passed) its
  obtain ⟨row, has⟩ := Option.isSome_iff_exists.mp (List.all_eq_true.mp ready m its)
  simp only [has, Option.map_some, Option.getD_some] at moves
  have up : next.runtimeLifecycleState = .active := by
    rw [call] at moves
    obtain ⟨-, -, loads⟩ := bind_ok moves
    exact ModelLifecycle.loadRuntime_active (held i r is m row has) loads
  rw [committed.serving]
  by_cases same : next = row.value
  · have other : r.call.writesOther = false := by
      rw [call]
      rfl
    have unwritten : r.written m = none := by
      simp [Request.written, has, moves, same, other, Except.toOption]
    have here := List.any_eq_false.mp sure m asked
    have still : (s.serving.apply r).runtime m = s.serving.runtime m := by
      simp [Serving.State.runtime, Serving.State.lifecycle, Serving.State.apply, unwritten]
    rw [still]
    by_contra idle
    rw [same] at up
    exact here (by simp [has, up, idle])
  · have written : r.written m = some next := by
      simp [Request.written, has, moves, same, its, Except.toOption]
    simpa [Serving.State.runtime, Serving.State.lifecycle, Serving.State.apply, written] using up

end Committed

theorem finish_cases (load : Load) (r : Request) :
    ((∃ refusal, s.transaction load r = .error refusal) ∧ s.finish i load r = s.close i) ∨
    ∃ requests, Recorded s load requests ∧
      (load.start.runs = false ∧ s.finish i load r = State.close { s with requests } i ∨
       load.start.runs = true ∧ ∃ loaded, Committed s load r loaded ∧
        s.finish i load r = State.close { loaded with requests } i) := by
  unfold State.finish
  cases ends : s.transaction load r with
  | error refusal => exact .inl ⟨⟨refusal, rfl⟩, rfl⟩
  | ok committed =>
    obtain ⟨requests, recorded, either⟩ := transaction_ok ends
    rcases either with ⟨rests, rfl⟩ | ⟨runs, loaded, committed, rfl⟩
    · exact .inr ⟨requests, recorded, .inl ⟨rests, rfl⟩⟩
    · exact .inr ⟨requests, recorded, .inr ⟨runs, loaded, committed, rfl⟩⟩

theorem Sound.of (sound : Sound s) (grew : Grew s s') (serving : Serving.Sound s'.serving)
    (held : Serving.HeldSettled s'.serving) (nodup : ∀ now, s'.function = some now → now.Nodup)
    (loads : s'.loads = s.loads)
    (listed : ∀ m, s'.names m → ∃ now, s'.function = some now ∧ m ∈ now) : Sound s' where
  serving := serving
  held := held
  nodup := nodup
  knows i load is := (sound.knows i load (loads ▸ is)).grew grew
  listed := listed

theorem names_recorded {requests : List (Option MLModelLoadingRequest)} (loaded : State)
    (knows : Knows s i load) (recorded : Recorded s load requests)
    (processes : ∀ process ∈ loaded.processes, process ∈ s.processes ∨
      load.start.runs = true ∧ process.loadedMlModelRefs = load.modelIds)
    (names : State.names { loaded with requests } m) :
    s.names m ∨ load.start.runs = true ∧ m ∈ load.modelIds := by
  rcases names with ⟨process, mem, ends, its⟩ | ⟨j, row, is, ends, its⟩
  · rcases processes process mem with before | ⟨runs, all⟩
    · exact .inl (.inl ⟨process, before, ends, its⟩)
    · exact .inr ⟨runs, all ▸ its⟩
  · rcases recorded.finished knows is ends with ⟨row', was, ended, same⟩ | ⟨runs, all⟩
    · exact .inl (.inr ⟨j, row', was, ended, same ▸ its⟩)
    · exact .inr ⟨runs, all ▸ its⟩

theorem Sound.finish (sound : Sound s) (of : s.loads i = some load)
    (is : s.serving.request i = some r) (ready : r.ready = true)
    (sure : s.overtaken (.commit i) = false) : Sound (s.finish i load r) := by
  have knows := sound.knows i load of
  have dies : Serving.State.Step s.serving (.dies i) (s.serving.setRequest i none) := rfl
  rcases finish_cases load r with
    ⟨-, refused⟩ | ⟨requests, recorded, ⟨rests, ends⟩ | ⟨runs, loaded, committed, ends⟩⟩
  · rw [refused]
    exact sound.of (.same (.act dies) rfl rfl) (sound.serving.act dies)
      (sound.held.act sound.serving dies) sound.nodup rfl sound.listed
  · rw [ends]
    refine sound.of ⟨.act dies, fun now is => ⟨now, is, fun _ => id⟩, recorded.grew⟩
      (sound.serving.act dies) (sound.held.act sound.serving dies) sound.nodup rfl fun m names => ?_
    rcases names_recorded s knows recorded (fun _ mem => .inl mem) names with
      before | ⟨runs, -⟩
    · exact sound.listed m before
    · cases rests.symm.trans runs
  · rw [ends]
    obtain ⟨unclobbered, -⟩ := committed.overtaken is of runs sure
    obtain ⟨now, now', was, becomes, nodup, kept, added⟩ :=
      committed.list knows unclobbered sound.nodup
    have step := committed.step is ready
    have one : ∀ now'', loaded.function = some now'' → now'' = now' :=
      fun _ is' => Option.some.inj (is'.symm.trans becomes)
    refine sound.of ⟨.act step, fun now'' is' => ⟨now, was, one now'' is' ▸ kept⟩, recorded.grew⟩
      (sound.serving.act step) (sound.held.act sound.serving step)
      (fun now'' is' => one now'' is' ▸ nodup) committed.loads fun m names => ⟨now', becomes, ?_⟩
    rcases names_recorded loaded knows recorded
      (committed.processes_cases runs) names with before | ⟨-, asked⟩
    · obtain ⟨now'', is', mem⟩ := sound.listed m before
      obtain rfl := Option.some.inj (was.symm.trans is')
      exact kept m mem
    · exact added m asked

theorem Sound.start : Sound {} where
  serving := .start
  held i r is := by simp [Serving.State.request] at is
  nodup now is := by
    cases is
    exact List.nodup_nil
  knows i load is := by cases is
  listed m names := by
    rcases names with ⟨process, mem, -⟩ | ⟨i, row, is, -⟩
    · cases mem
    · simp [State.request] at is

theorem Sound.begin {start : Start} {modelIds : List ModelId} (outside : Outside) (sound : Sound s)
    (row : ∀ request row flags, start = .modify request row flags → s.request request = some row ∧
      (flags.resumes row = true → modelIds = row.mlModelToLoadRefs)) :
    Sound (s.begin outside start modelIds) := by
  have step : Serving.State.Step s.serving (.arrive outside (.load modelIds))
      (s.begin outside start modelIds).serving := rfl
  have grew : Grew s (s.begin outside start modelIds) := .same (.act step) rfl rfl
  refine ⟨sound.serving.act step, sound.held.act sound.serving step, sound.nodup,
    fun i load is => ?_, sound.listed⟩
  by_cases new : i = s.serving.requests.length
  · subst new
    obtain rfl : Load.mk start modelIds none = load := by simpa [State.begin] using is
    refine ⟨by simp [State.begin], fun r is => ?_, List.nodup_nil, fun _ _ _ mem => ?_,
      fun request read flags modifies => ?_⟩
    · obtain rfl : Request.mk outside (.load modelIds) (fun _ => none) = r := by
        simpa [State.begin, Serving.State.request] using is
      rfl
    · cases mem
    · obtain ⟨was, resumes⟩ := row request read flags modifies
      refine ⟨⟨some read, Option.join_eq_some_iff.mp was, fun current is => ?_⟩, resumes⟩
      cases is
      rfl
  · have before : s.loads i = some load := by simpa [State.begin, new] using is
    exact (sound.knows i load before).grew grew

theorem Sound.act {act : Act} (sound : Sound s) (sure : s.overtaken act = false)
    (step : State.Step s act s') : Sound s' := by
  cases act with
  | serve act =>
    obtain ⟨serving, serves, rest⟩ := Option.bind_eq_some_iff.mp step
    split at rest <;> cases rest
    exact sound.of (.same (.act serves) rfl rfl) (sound.serving.act serves)
      (sound.held.act sound.serving serves) sound.nodup rfl sound.listed
  | trigger outside policy modelIds =>
    cases step
    exact sound.begin outside fun _ _ _ is => by cases is
  | create outside modelIds cancelRequest suspendRequest =>
    cases step
    exact sound.begin outside fun _ _ _ is => by cases is
  | modify outside i flags =>
    obtain ⟨row, is, begins⟩ := Option.bind_eq_some_iff.mp step
    cases begins
    refine sound.begin outside fun _ _ _ modifies => ?_
    cases modifies
    exact ⟨is, fun resumes => if_pos resumes⟩
  | readFunction i =>
    obtain ⟨load, is, rest⟩ := Option.bind_eq_some_iff.mp step
    obtain ⟨refs, now, reads⟩ := Option.bind_eq_some_iff.mp rest
    split at reads <;> cases reads
    refine ⟨sound.serving, sound.held, sound.nodup, fun j load' is' => ?_, sound.listed⟩
    by_cases its : j = i
    · subst its
      obtain rfl : { load with refs := some refs } = load' := by simpa using is'
      have knows := sound.knows j load is
      refine ⟨knows.within, knows.call, sound.nodup refs now, fun now' is' m mem => ?_, knows.row⟩
      obtain rfl := Option.some.inj (now.symm.trans is')
      exact mem
    · have before : s.loads j = some load' := by simpa [its] using is'
      have knows := sound.knows j load' before
      exact ⟨knows.within, knows.call, knows.nodup, knows.refs, knows.row⟩
  | commit i =>
    obtain ⟨load, of, rest⟩ := Option.bind_eq_some_iff.mp step
    obtain ⟨r, is, commits⟩ := Option.bind_eq_some_iff.mp rest
    split at commits <;> cases commits
    next ready => exact sound.finish of is (Bool.and_eq_true_iff.mp ready).1 sure
  | deleteFunction =>
    cases step
    have grew : Grew s { s with
        function := none, processes := [], requests := s.requests.map fun _ => none } := by
      refine ⟨⟨Nat.le_refl _, fun i r _ is => ⟨r, is, rfl⟩⟩, fun _ gone => ?_,
        fun i entry found => ⟨none, by rw [List.getElem?_map, found, Option.map_some],
          fun _ gone => ?_⟩⟩ <;> cases gone
    refine sound.of grew sound.serving sound.held (fun _ gone => ?_) rfl fun m names => ?_
    · cases gone
    rcases names with ⟨process, mem, -⟩ | ⟨i, row, is, -⟩
    · cases mem
    · have found := List.getElem?_map ▸ Option.join_eq_some_iff.mp is
      obtain ⟨_, -, gone⟩ := Option.map_eq_some_iff.mp found
      cases gone

/-- A transaction that does not commit what it works on: it is refused, it finds that a row it
writes has changed, or it dies. -/
def State.refuses (s : State) : Act → Prop
  | .serve (.dies _) => True
  | .commit i => ∀ load r, s.loads i = some load → s.serving.request i = some r →
      ∃ refusal, s.transaction load r = .error refusal
  | _ => False

/-- What a step may do: the models of a load that it finishes are served, those of the loads
finished so far are in the list once, and a load that is refused changes neither. -/
structure Loads (t : Runs.Step State Act) : Prop where
  process : ∀ (j : Nat) (process : MLModelLoadingProcess), t.after.processes[j]? = some process →
    t.before.processes[j]? = none →
    process.status = .finished ∧
      ∀ m ∈ process.loadedMlModelRefs, t.after.serving.runtime m = .active
  request : ∀ (j : Nat) (row : MLModelLoadingRequest), t.after.request j = some row →
    row.requestStatus = .finished →
    (∃ before, t.before.request j = some before ∧ before.requestStatus = .finished) ∨
      ∀ m ∈ row.mlModelToLoadRefs, t.after.serving.runtime m = .active
  asked : ∀ i load r, t.label = .commit i → t.before.loads i = some load →
    t.before.serving.request i = some r → load.start.runs = true → t.before.refuses t.label ∨
      ∃ process, t.after.processes = t.before.processes ++ [process] ∧
        process.loadedMlModelRefs = load.modelIds
  listed : ∀ m, t.after.names m → ∃ now, t.after.function = some now ∧ now.count m = 1
  refused : t.before.refuses t.label → t.after.function = t.before.function ∧
    ∀ m, t.after.serving.runtime m = t.before.serving.runtime m

theorem Loads.of_same {act : Act} (after : Sound s') (function : s'.function = s.function)
    (processes : s'.processes = s.processes) (requests : s'.requests = s.requests)
    (commits : ∀ i, act ≠ .commit i)
    (rows : s.refuses act → ∀ m, s'.serving.runtime m = s.serving.runtime m) :
    Loads ⟨s, act, s'⟩ where
  process j process is new := by
    have is : s'.processes[j]? = some process := is
    rw [processes] at is
    cases is.symm.trans new
  request j row is ends := by
    refine .inl ⟨row, ?_, ends⟩
    have is : s'.request j = some row := is
    unfold State.request at is ⊢
    rwa [requests] at is
  asked i _ _ label := absurd label (commits i)
  listed m names := by
    obtain ⟨now, is, mem⟩ := after.listed m names
    exact ⟨now, is, List.count_eq_one_of_mem (after.nodup now is) mem⟩
  refused refuses := ⟨function, rows refuses⟩

theorem loads_commit (sound : Sound s) (after : Sound (s.finish i load r))
    (of : s.loads i = some load) (is : s.serving.request i = some r) (ready : r.ready = true)
    (sure : s.overtaken (.commit i) = false) : Loads ⟨s, .commit i, s.finish i load r⟩ := by
  have knows := sound.knows i load of
  have listed : ∀ m, (s.finish i load r).names m →
      ∃ now, (s.finish i load r).function = some now ∧ now.count m = 1 := by
    intro m names
    obtain ⟨now, its, mem⟩ := after.listed m names
    exact ⟨now, its, List.count_eq_one_of_mem (after.nodup now its) mem⟩
  have refused : s.refuses (.commit i) → s.finish i load r = s.close i := by
    intro refuses
    obtain ⟨refusal, fails⟩ := refuses load r of is
    unfold State.finish
    rw [fails]
  have unchanged : s.refuses (.commit i) → (s.finish i load r).function = s.function ∧
      ∀ m, (s.finish i load r).serving.runtime m = s.serving.runtime m := by
    intro refuses
    rw [refused refuses]
    exact ⟨rfl, fun m => rfl⟩
  rcases finish_cases load r with
    ⟨⟨refusal, fails⟩, same⟩ | ⟨requests, recorded, ⟨rests, ends⟩ | ⟨runs, loaded, committed, ends⟩⟩
  · refine ⟨fun j process its new => ?_, fun j row its closed => ?_,
      fun j load' r' label of' is' _ => .inl ?_, listed, unchanged⟩
    · have its : (s.finish i load r).processes[j]? = some process := its
      rw [same] at its
      cases its.symm.trans new
    · have its : (s.finish i load r).request j = some row := its
      rw [same] at its
      exact .inl ⟨row, its, closed⟩
    · cases label
      intro load'' r'' of'' is''
      obtain rfl := Option.some.inj (of.symm.trans of'')
      obtain rfl := Option.some.inj (is.symm.trans is'')
      exact ⟨refusal, fails⟩
  · refine ⟨fun j process its new => ?_, fun j row its closed => ?_,
      fun j load' r' label of' is' runs => ?_, listed, unchanged⟩
    · have its : (s.finish i load r).processes[j]? = some process := its
      rw [ends] at its
      cases its.symm.trans new
    · have its : (s.finish i load r).request j = some row := its
      rw [ends] at its
      rcases recorded.finished knows its closed with ⟨before, was, ended, -⟩ | ⟨runs, -⟩
      · exact .inl ⟨before, was, ended⟩
      · cases rests.symm.trans runs
    · cases label
      obtain rfl := Option.some.inj (of.symm.trans of')
      cases rests.symm.trans runs
  · obtain ⟨-, kept⟩ := committed.overtaken is of runs sure
    have active : ∀ m ∈ load.modelIds, (s.finish i load r).serving.runtime m = .active := by
      rw [ends]
      exact fun m asked => committed.active knows sound.held is ready kept asked
    obtain ⟨new, processes, closed, names⟩ := committed.processes
    have all : (s.finish i load r).processes = s.processes ++ [new] := by
      rw [ends]
      exact processes
    refine ⟨fun j process its fresh => ?_, fun j row its closed => ?_,
      fun j load' r' label of' is' _ => .inr ⟨new, all, ?_⟩, listed, unchanged⟩
    · have its : (s.finish i load r).processes[j]? = some process := its
      rw [all] at its
      rcases Table.append_cases its with ⟨-, rfl⟩ | was
      · exact ⟨closed, fun m mem => active m (names ▸ mem)⟩
      · cases was.symm.trans fresh
    · have its : (s.finish i load r).request j = some row := its
      rw [ends] at its
      rcases recorded.finished knows its closed with ⟨before, was, ended, -⟩ | ⟨-, asked⟩
      · exact .inl ⟨before, was, ended⟩
      · exact .inr fun m mem => active m (asked ▸ mem)
    · cases label
      obtain rfl := Option.some.inj (of.symm.trans of')
      exact names

theorem loads_act {act : Act} (sound : Sound s) (sure : s.overtaken act = false)
    (step : State.Step s act s') : Loads ⟨s, act, s'⟩ := by
  have after := sound.act sure step
  cases act with
  | serve act =>
    obtain ⟨serving, serves, rest⟩ := Option.bind_eq_some_iff.mp step
    split at rest <;> cases rest
    refine .of_same after rfl rfl rfl (fun _ => by simp) fun refuses m => ?_
    cases act with
    | dies i =>
      cases serves
      rfl
    | arrive _ _ => cases refuses
    | read _ _ => cases refuses
    | commit _ => cases refuses
  | trigger outside policy modelIds =>
    cases step
    exact .of_same after rfl rfl rfl (fun _ => by simp) fun refuses => by cases refuses
  | create outside modelIds cancelRequest suspendRequest =>
    cases step
    exact .of_same after rfl rfl rfl (fun _ => by simp) fun refuses => by cases refuses
  | modify outside i flags =>
    obtain ⟨row, is, begins⟩ := Option.bind_eq_some_iff.mp step
    cases begins
    exact .of_same after rfl rfl rfl (fun _ => by simp) fun refuses => by cases refuses
  | readFunction i =>
    obtain ⟨load, is, rest⟩ := Option.bind_eq_some_iff.mp step
    obtain ⟨refs, now, reads⟩ := Option.bind_eq_some_iff.mp rest
    split at reads <;> cases reads
    exact .of_same after rfl rfl rfl (fun _ => by simp) fun refuses => by cases refuses
  | commit i =>
    obtain ⟨load, of, rest⟩ := Option.bind_eq_some_iff.mp step
    obtain ⟨r, is, commits⟩ := Option.bind_eq_some_iff.mp rest
    split at commits <;> cases commits
    next ready => exact loads_commit sound after of is (Bool.and_eq_true_iff.mp ready).1 sure
  | deleteFunction =>
    cases step
    refine ⟨fun j process is => ?_, fun j row is _ => ?_, fun i _ _ label => ?_, fun m names => ?_,
      fun refuses => ?_⟩
    · cases is
    · have found := List.getElem?_map ▸ Option.join_eq_some_iff.mp is
      obtain ⟨_, -, gone⟩ := Option.map_eq_some_iff.mp found
      cases gone
    · cases label
    · obtain ⟨now, is, -⟩ := after.listed m names
      cases is
    · cases refuses

/-- In a run no load of which commits on grounds that are gone, a finished load is whole and none
is lost. -/
theorem loads_kept {trace : List (Runs.Step State Act)} (run : Runs.Run State.Step {} trace s)
    (sure : ∀ t ∈ trace, t.before.overtaken t.label = false) : ∀ t ∈ trace, Loads t :=
  run.transitions_of_guarded Sound (·.overtaken · = false) .start
    (fun _ _ _ sound sure step => sound.act sure step) Loads
    (fun _ _ _ sound sure step => loads_act sound sure step) sure

def outside : Outside := { now := 0, known := fun _ => true, deployment := id, timeout := 5 }

def served (i : Nat) (m : ModelId) (call : Serving.Call) : List Act :=
  [.serve (.arrive outside call), .serve (.read i m), .serve (.commit i)]

def decided (i : Nat) (m : ModelId) (event : ModelLifecycleEvent) : List Act :=
  served i m (.advance false m event (some []))

def certifies (i : Nat) (m : ModelId) : List Act :=
  served i m (.runs [⟨m, .createTraining, some 0, .refl false⟩, ⟨m, .trainingComplete, none, .refl false⟩]) ++
  decided (i + 1) m .approveTraining ++
  served (i + 2) m
    (.runs [⟨m, .createValidation, none, .refl false⟩, ⟨m, .validationComplete, none, .refl false⟩]) ++
  decided (i + 3) m .approveValidation ++
  served (i + 4) m
    (.runs [⟨m, .createEmulation, none, .refl false⟩, ⟨m, .emulationComplete, none, .refl false⟩]) ++
  decided (i + 5) m .submitForApproval ++ decided (i + 6) m .approve ++ decided (i + 7) m .certify

def loading (i : Nat) (m : ModelId) : List Act :=
  [.create outside [m] false false, .readFunction i, .serve (.read i m)]

/-- A load after the other, the second of a model that is there already and of one that is not. -/
def loadsBoth : List Act :=
  certifies 0 0 ++ certifies 8 1 ++ loading 16 0 ++ [.commit 16] ++
    [.trigger outside 0 [0, 1, 0], .readFunction 17, .serve (.read 17 0), .serve (.read 17 1),
      .commit 17]

theorem both_loaded : (∀ t ∈ Runs.stepsOf (Runs.nextOf State.act) {} loadsBoth, Loads t) ∧
    (loadsBoth.foldl (Runs.nextOf State.act) {}).function = some [0, 1] :=
  ⟨loads_kept (Runs.run_enabled (by decide +kernel)) (by decide +kernel), by decide +kernel⟩

def loadsAtOnce : List Act :=
  certifies 0 0 ++ certifies 8 1 ++ loading 16 0 ++ loading 17 1 ++ [.commit 16, .commit 17]

theorem load_lost : ¬ ∀ (trace : List (Runs.Step State Act)) (s : State),
    Runs.Run State.Step {} trace s → ∀ t ∈ trace, Loads t := by
  intro always
  have run : Runs.Run State.Step {} (Runs.stepsOf (Runs.nextOf State.act) {} loadsAtOnce)
      (loadsAtOnce.foldl (Runs.nextOf State.act) {}) := Runs.run_enabled (by decide +kernel)
  have last : ∃ t ∈ Runs.stepsOf (Runs.nextOf State.act) {} loadsAtOnce,
      t.after.function = some [1] ∧ (∃ process ∈ t.after.processes, process.status = .finished ∧
        0 ∈ process.loadedMlModelRefs) := by
    decide +kernel
  obtain ⟨t, mem, function, named⟩ := last
  obtain ⟨now, is, once⟩ := (always _ _ run t mem).listed 0 (.inl named)
  cases function.symm.trans is
  cases once

end Loading

end Smo.Aimgf
