import Smo.RanNfOam.ConfigJobs.StillThere

/-! When the undo of a job with replaces restores the objects it replaced, and the guard
against later changes finds none. -/
namespace Smo.RanNfOam.ConfigObjects

open EditConfig ConfigJobs

section Applied

variable {site : Site}

def entriesAt (entries : List Applied) (target : Target) : List Applied :=
  entries.filter (·.sub.target = target)

theorem applied_of_sent {exchange : Exchange site} {data data' : Datastore}
    (ok : editEach data exchange.changes = .ok data') (target : Target) :
    ∃ subs : List SubChange, entriesAt (exchange.applied data) target =
        subs.map (fun sub => ⟨sub, data target⟩) ∧
      Becomes (data target) (entriesAt (exchange.applied data) target) (data' target) := by
  have same : entriesAt (exchange.applied data) target =
      (exchange.subs.filter (·.target = target)).map fun sub => ⟨sub, data target⟩ := by
    unfold entriesAt Exchange.applied
    rw [ok, List.filter_map]
    refine List.map_congr_left fun sub mem => ?_
    have here : sub.target = target := by simpa using (List.mem_filter.mp mem).2
    rw [here]
  refine ⟨_, same, ?_⟩
  have goes := editEach_at ok target
  unfold Exchange.changes at goes
  rw [List.filter_map] at goes
  unfold Becomes
  rw [same, List.map_map]
  have filters : (exchange.subs.filter ((fun change => decide (placeOf change = target)) ∘
      fun sub => sub.row.change)) = exchange.subs.filter (·.target = target) :=
    List.filter_congr fun sub _ => by simp
  rw [filters] at goes
  exact goes

theorem applied_becomes (exchanges : List (Exchange site)) (data : Datastore) (target : Target) :
    Becomes (data target) (entriesAt (applied data exchanges) target)
      ((perform data exchanges).1 target) := by
  induction exchanges generalizing data with
  | nil => rfl
  | cons exchange rest ih =>
    unfold entriesAt applied
    rw [List.filter_append]
    refine becomes_append.mpr ⟨(exchange.send data).1 target, ?_, ih (exchange.send data).1⟩
    cases sent : editEach data exchange.changes with
    | ok data' =>
      obtain ⟨_, _, becomes⟩ := applied_of_sent sent target
      have is : (exchange.send data).1 = data' := by simp [Exchange.send, sent]
      rw [is]
      exact becomes
    | error tag =>
      have is : (exchange.send data).1 = data := by simp [Exchange.send, sent]
      have nothing : exchange.applied data = [] := by simp [Exchange.applied, sent]
      rw [is, nothing]
      rfl

theorem applied_reads (exchanges : List (Exchange site)) (data : Datastore) (target : Target) :
    ReadBefore (data target) (entriesAt (applied data exchanges) target) := by
  induction exchanges generalizing data with
  | nil => exact fun _ _ found => by cases found
  | cons exchange rest ih =>
    intro name entry found
    unfold entriesAt applied at found
    rw [List.filter_append, List.find?_append] at found
    cases sent : editEach data exchange.changes with
    | ok data' =>
      obtain ⟨subs, same, becomes⟩ := applied_of_sent sent target
      have is : (exchange.send data).1 = data' := by simp [Exchange.send, sent]
      rcases Option.or_eq_some_iff.mp found with here | ⟨before, later⟩
      · have mem := List.mem_of_find?_eq_some here
        rw [show (exchange.applied data).filter _ = _ from same] at mem
        obtain ⟨sub, _, rfl⟩ := List.mem_map.mp mem
        exact .inr rfl
      · have kept := becomes_unsettled becomes before
        rcases ih (exchange.send data).1 name entry later with none_ | read
        · exact .inl none_
        · rw [read, is, kept]
          split
          · exact .inl rfl
          · exact .inr rfl
    | error tag =>
      have is : (exchange.send data).1 = data := by simp [Exchange.send, sent]
      have nothing : exchange.applied data = [] := by simp [Exchange.applied, sent]
      rw [is, nothing] at found
      exact ih data name entry found

theorem applied_registered (exchanges : List (Exchange site)) (data : Datastore) {entry : Applied}
    (mem : entry ∈ applied data exchanges) : ∃ me endpoint,
      site.registry.get? entry.sub.target.1 = some me ∧ me.endpoint = some endpoint ∧
        o1Client me.o1Protocol ≠ none ∧ me.o1Protocol = protocolOf site entry.sub.target := by
  induction exchanges generalizing data with
  | nil => exact absurd mem List.not_mem_nil
  | cons exchange rest ih =>
    rcases List.mem_append.mp mem with here | later
    · unfold Exchange.applied at here
      split at here
      · obtain ⟨sub, subs, rfl⟩ := List.mem_map.mp here
        exact ⟨exchange.me, exchange.endpoint, exchange.registered sub subs, exchange.adaptor,
          exchange.spoken, (exchange.protocol subs).symm⟩
      · exact absurd here List.not_mem_nil
    · exact ih _ later

theorem mem_expect (expected : Expected) (written_ target : Target)
    (values want : Option Attributes) :
    (target, want) ∈ expect expected written_ values ↔
      (target = written_ ∧ want = values) ∨ (target ≠ written_ ∧ (target, want) ∈ expected) := by
  unfold expect
  cases known : expected.lookup written_ with
  | none =>
    have absent (values : Option Attributes) : (written_, values) ∉ expected := fun mem => by
      have other := List.lookup_eq_none_iff.mp known _ mem
      simp at other
    by_cases same : target = written_
    · subst same
      simp [absent]
    · simp [same]
  | some old =>
    obtain ⟨front, back, split, _⟩ := List.lookup_eq_some_iff.mp known
    simp only [Option.isSome_some, if_true, List.mem_map, Prod.mk.injEq]
    constructor
    · rintro ⟨⟨known, old⟩, mem, rfl, is⟩
      by_cases same : known = written_
      · exact .inl ⟨same, by simpa [same] using is.symm⟩
      · have kept : old = want := by simpa [same] using is
        rw [kept] at mem
        exact .inr ⟨same, mem⟩
    · rintro (⟨rfl, rfl⟩ | ⟨other, mem⟩)
      · exact ⟨(target, old), by rw [split]; simp, rfl, by simp⟩
      · exact ⟨(target, want), mem, rfl, by simp [other]⟩

theorem entriesAt_append (entries : List Applied) (entry : Applied) (target : Target) :
    entriesAt (entries ++ [entry]) target =
      if entry.sub.target = target then entriesAt entries target ++ [entry]
      else entriesAt entries target := by
  unfold entriesAt
  rw [List.filter_append]
  by_cases here : entry.sub.target = target
  · simp [here]
  · simp [here]

theorem mem_expected (entries : List Applied) (target : Target) (want : Option Attributes) :
    (target, want) ∈ entries.foldl (fun expected entry => entry.expects expected) [] ↔
      entriesAt entries target ≠ [] ∧ want = wanted (entriesAt entries target) := by
  induction entries using List.reverseRecOn generalizing target want with
  | nil => simp [entriesAt]
  | append_singleton entries entry ih =>
    have before : ((entries.foldl (fun expected entry => entry.expects expected) []).lookup
        entry.sub.target).getD none = wanted (entriesAt entries entry.sub.target) := by
      cases known : (entries.foldl (fun expected entry => entry.expects expected) []).lookup
          entry.sub.target with
      | none =>
        have nothing : entriesAt entries entry.sub.target = [] := by
          refine Classical.byContradiction fun some_ => ?_
          have other := List.lookup_eq_none_iff.mp known _ ((ih _ _).mpr ⟨some_, rfl⟩)
          simp at other
        rw [nothing]
        rfl
      | some old =>
        obtain ⟨front, back, split, _⟩ := List.lookup_eq_some_iff.mp known
        have mem : (entry.sub.target, old) ∈
            entries.foldl (fun expected entry => entry.expects expected) [] := by
          rw [split]
          simp
        exact ((ih _ _).mp mem).2
    rw [List.foldl_append, List.foldl_cons, List.foldl_nil, Applied.expects, mem_expect, ih,
      entriesAt_append]
    by_cases here : entry.sub.target = target
    · subst here
      unfold laidOver
      rw [before]
      simp [wanted_append, Applied.wants]
    · simp [here, Ne.symm here]

end Applied

namespace ObjectJob

variable {site : Site} (job : ObjectJob site) (data : Datastore)

def entries : List Applied := applied data job.exchanges

/-- The undo is reported as impossible, or it can be applied, restores the objects that were
replaced, and the guard finds no change when there was none. -/
def Undoes : Prop :=
  let plan := rollbackPlan (job.ended data)
  plan.problems ≠ [] ∨
    (∃ after, editEach (job.leaves data) plan.undo = .ok after ∧
      ∀ entry ∈ job.entries data, entry.operation = .replace →
        SameObject (after entry.sub.target) (data entry.sub.target)) ∧
    changedSince objectClients site (job.leaves data) plan.expected = []

structure Keeps : Prop where
  recreated : ∀ target, Recreated (entriesAt (job.entries data) target)
  putBack : ∀ entry ∈ job.entries data, entry.operation = .replace →
    PutBack site (data entry.sub.target) (entriesAt (job.entries data) entry.sub.target)
  stillThere : ∀ entry ∈ job.entries data,
    StillThere (protocolOf site entry.sub.target) (entriesAt (job.entries data) entry.sub.target)

variable {job : ObjectJob site} {data : Datastore}

theorem plan_eq (snapshots : site.cmSnapshots = true) (some_ : job.entries data ≠ []) :
    rollbackPlan (job.ended data) = undoAll site {} (job.entries data) := by
  unfold rollbackPlan
  rw [undoable_ended snapshots]
  obtain ⟨first, rest, cons⟩ := List.exists_cons_of_ne_nil some_
  unfold entries at cons
  unfold undoAll entries
  rw [cons, List.map_cons]
  show List.foldl _ _ (_ :: _) = _
  rw [List.foldl_cons, List.foldl_map, List.foldl_cons]

theorem undone_at (target : Target) :
    ((((job.entries data).map (·.undo site)).reverse).filter
        (placeOf · = target)).foldlM editObject (job.leaves data target) =
      undone site (entriesAt (job.entries data) target) (job.leaves data target) := by
  have place (entry : Applied) : placeOf (entry.undo site) = entry.sub.target := by
    have here := entry.sub.place_change
    unfold Applied.undo
    have again : placeOf ⟨entry.sub.row.managedElementRef,
        entry.sub.row.managedFunctionRef.filter (· ≠ ""), [], ""⟩ = placeOf entry.sub.row.change := by
      simp [placeOf, WriteConfigSubChange.change, Option.filter_filter]
    rw [← here, ← again]
    cases entry.operation <;> rfl
  unfold undone entriesAt
  rw [List.filter_reverse, List.filter_map]
  congr 3
  exact List.filter_congr fun entry _ => by simp [place]

theorem undo_accepted : (∃ after, editEach (job.leaves data)
      ((job.entries data).map (·.undo site)).reverse = .ok after) ↔
    ∀ target, Recreated (entriesAt (job.entries data) target) := by
  rw [editEach_iff]
  refine forall_congr' fun target => ?_
  rw [undone_at]
  exact undone_accepted (applied_becomes job.exchanges data target)

theorem becomes_at (target : Target) :
    Becomes (data target) (entriesAt (job.entries data) target) (job.leaves data target) :=
  applied_becomes job.exchanges data target

theorem entriesAt_self {entry : Applied} (mem : entry ∈ job.entries data) :
    entriesAt (job.entries data) entry.sub.target ≠ [] :=
  List.ne_nil_of_mem (List.mem_filter.mpr ⟨mem, by simp⟩)

theorem unchanged_iff : changedSince objectClients site (job.leaves data)
      ((job.entries data).foldl (fun expected entry => entry.expects expected) []) = [] ↔
    ∀ entry ∈ job.entries data,
      StillThere (protocolOf site entry.sub.target)
        (entriesAt (job.entries data) entry.sub.target) := by
  have each {entry : Applied} (mem : entry ∈ job.entries data) :
      differences objectClients site (job.leaves data) entry.sub.target
          (wanted (entriesAt (job.entries data) entry.sub.target)) = [] ↔
        StillThere (protocolOf site entry.sub.target)
          (entriesAt (job.entries data) entry.sub.target) := by
    obtain ⟨me, endpoint, registered, adaptor, spoken, protocol⟩ :=
      applied_registered job.exchanges data mem
    rw [← protocol]
    exact differences_nil registered adaptor spoken entry.sub.named (entriesAt_self mem)
      (becomes_at entry.sub.target)
  unfold changedSince
  rw [List.flatMap_eq_nil_iff]
  constructor
  · intro none_ entry mem
    exact (each mem).mp (none_ (entry.sub.target, _) ((mem_expected _ _ _).mpr ⟨entriesAt_self mem, rfl⟩))
  · rintro stands ⟨target, want⟩ mem
    obtain ⟨some_, rfl⟩ := (mem_expected _ _ _).mp mem
    obtain ⟨entry, here⟩ := List.exists_mem_of_ne_nil _ some_
    obtain ⟨there, is⟩ := List.mem_filter.mp here
    have target_ : entry.sub.target = target := by simpa using is
    subst target_
    exact (each there).mpr (stands entry there)

theorem restores_iff (recorded : ∀ entry ∈ job.entries data, ¬entry.Unrecorded site) :
    (∃ after, editEach (job.leaves data) ((job.entries data).map (·.undo site)).reverse = .ok after ∧
      ∀ entry ∈ job.entries data, entry.operation = .replace →
        SameObject (after entry.sub.target) (data entry.sub.target)) ↔
    (∀ target, Recreated (entriesAt (job.entries data) target)) ∧
      ∀ entry ∈ job.entries data, entry.operation = .replace →
        PutBack site (data entry.sub.target) (entriesAt (job.entries data) entry.sub.target) := by
  have same {after : Datastore} (ok : editEach (job.leaves data)
        ((job.entries data).map (·.undo site)).reverse = .ok after) (target : Target) :
      SameObject (after target) (data target) ↔
        PutBack site (data target) (entriesAt (job.entries data) target) := by
    have goes := editEach_at ok target
    rw [undone_at] at goes
    exact put_back (becomes_at target) (applied_reads job.exchanges data target)
      (fun entry mem => recorded entry (List.mem_filter.mp mem).1) goes
  rw [← undo_accepted]
  constructor
  · rintro ⟨after, ok, restored⟩
    exact ⟨⟨after, ok⟩, fun entry mem replaced => (same ok _).mp (restored entry mem replaced)⟩
  · rintro ⟨⟨after, ok⟩, back⟩
    exact ⟨after, ok, fun entry mem replaced => (same ok _).mpr (back entry mem replaced)⟩

end ObjectJob

section Lost

def cell : ManagedEntity where
  managedElementRef := "gnb-1"
  entityType := "GNB"
  endpoint := some { adaptorUri := "http://gnb-1" }

def labSite : Site where
  registry := { rows := [cell] }

def replaceOne : ObjectJob labSite where
  job := { jobId := 0, requestedBy := "operator", scope := "cells", msacRole := none,
           rollbackOf := none, rollbackForced := false, waveSize := none, wavePauseSeconds := 0,
           waveCount := 1, gateMaxNewAlarms := 0, onGateFailure := .halt, invokerId := none,
           createdAt := 0, kpiGuard := none, scheduledAt := none, windowEnd := none }
  exchanges := [{
    me := cell
    endpoint := { adaptorUri := "http://gnb-1" }
    subs := [{
      row := { managedElementRef := "gnb-1", managedFunctionRef := none,
               attributeChanges := [("txPower", .text "40")], operation := "replace",
               position := 0, wave := 0 }
      operation := .replace
      asked := rfl
      named := nofun
      keyed := by decide
      unsettled := rfl }]
    registered := by decide
    adaptor := rfl
    spoken := by decide }]
  inWaves := by decide

def twoAttributes : Datastore :=
  fun target => if target = ("gnb-1", none) then some [("txPower", "43"), ("tilt", "4")] else none

end Lost

end Smo.RanNfOam.ConfigObjects
