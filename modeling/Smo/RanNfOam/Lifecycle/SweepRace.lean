import Smo.RanNfOam.Lifecycle.Invariant
import Smo.RanNfOam.Lifecycle.Sessions

/-! Sweeps against requests on the same campaigns. A sweep does not look at a campaign
again before it resumes it: its later campaigns, loaded anew after each commit, are resumed
whatever has become of them. As long as it finds them halted as it left them, no
interleaving restarts a campaign that has ended or undoes an operator's halt. -/
namespace Smo.RanNfOam.Lifecycle

open Staged (Rollout Move Moves)
open Versioned (Row Holds Later)
open Runs (Run)
open CampaignStore (Follows)

def mayResume (c : SoftwareCampaign) : Bool :=
  c.status = .halted && c.haltedReason ≠ some .operatorHalt

namespace Race

/-- What a sweep loads anew in order to resume it is still halted, and not by an operator. -/
def stillHalted (s : Race) : Act → Bool
  | .take i =>
    match s.sessions[i]? with
    | some (.resuming (⟨id, none⟩ :: _) _) => (s.current id).all fun row => mayResume row.value
    | _ => true
  | _ => true

def Held (current : Nat → Option (Row SoftwareCampaign)) : Session → Prop
  | .request id copy _ => Holds current id copy
  | .resuming due last =>
    (∀ taken ∈ due, ∀ copy, taken.copy = some copy →
      Holds current taken.id copy ∧ mayResume copy.value = true) ∧
    ∀ taken copy, last = some taken → taken.copy = some copy → Holds current taken.id copy
  | .catchingUp running => ∀ taken ∈ running, ∀ copy, taken.copy = some copy →
      Holds current taken.id copy
  | .ended => True

structure Inv (s : Race) : Prop where
  good : ∀ (id : Nat) rows, s.store.campaigns[id]? = some rows → Good rows
  held : ∀ session ∈ s.sessions, Held s.current session

/-- The step leads to rows that follow the earlier ones, and to held copies that do. -/
structure Next (s s' : Race) : Prop where
  follows : Follows s.store s'.store
  later : Later s.current s'.current

variable {s s' : Race} {id i : Nat} {copy : Row SoftwareCampaign} {rows : CampaignRows}
  {session : Session}

theorem Held.later {current current' : Nat → Option (Row SoftwareCampaign)}
    (h : Held current session) (later : Later current current') : Held current' session := by
  cases session with
  | request id copy request => exact Holds.later h later
  | resuming due last =>
    constructor
    · intro taken mem copy found
      obtain ⟨holds, halted⟩ := h.1 taken mem copy found
      exact ⟨holds.later later, halted⟩
    · intro taken copy same found
      exact (h.2 taken copy same found).later later
  | catchingUp running =>
    intro taken mem copy found
    exact (h taken mem copy found).later later
  | ended => trivial

theorem Next.refl (inv : Inv s) : Next s s := ⟨.refl inv.good, .refl⟩

theorem current_some (found : s.current id = some copy) :
    ∃ rows, s.store.campaigns[id]? = some rows ∧ copy = ⟨rows.c, s.version id⟩ := by
  rw [current, Option.map_eq_some_iff] at found
  obtain ⟨rows, hrows, rfl⟩ := found
  exact ⟨rows, hrows, rfl⟩

theorem rows_current {held : CampaignRows} (found : s.store.campaigns[id]? = some held)
    (holds : Holds s.current id copy) (version : s.version id = copy.version) :
    s.rows id copy = held := by
  have now : s.current id = some ⟨held.c, s.version id⟩ := by rw [current, found]; rfl
  have same := holds.fresh now version
  rw [Race.rows, ← same, found]
  rfl

theorem commit_next (inv : Inv s) (holds : Holds s.current id copy)
    (moves : ∀ held, s.store.campaigns[id]? = some held → s.rows id copy = held →
      Moves (rolloutOf held) (rolloutOf rows))
    (h : s.commit id copy rows = some s') : Next s s' ∧ s'.sessions = s.sessions := by
  unfold commit at h
  split at h
  · cases h
    exact ⟨.refl inv, rfl⟩
  · split at h
    next version =>
      have ⟨row, found, _⟩ := holds
      obtain ⟨held, hheld, rfl⟩ := current_some found
      cases h
      have same := rows_current hheld holds version
      refine ⟨⟨(Follows.refl inv.good).put hheld (moves held hheld same), ?_⟩, rfl⟩
      intro other row hrow
      by_cases equal : other = id
      · subst equal
        obtain ⟨held', hheld', rfl⟩ := current_some hrow
        refine ⟨⟨rows.c, copy.version + 1⟩, ?_, Or.inr ?_⟩
        · simp [current, CampaignStore.put_campaign hheld]
        · simp [version]
      · refine ⟨row, ?_, Or.inl rfl⟩
        simpa [current, CampaignStore.put_other equal, equal] using hrow
    · cases h

theorem Inv.setSession (inv : Inv s) (held : Held s.current session) :
    Inv (s.setSession i session) where
  good := inv.good
  held := by
    intro other mem
    rcases List.mem_or_eq_of_mem_set mem with earlier | rfl
    · exact inv.held other earlier
    · exact held

theorem Inv.addSession (inv : Inv s) (held : Held s.current session) :
    Inv { s with sessions := s.sessions ++ [session] } where
  good := inv.good
  held := by
    intro other mem
    rcases List.mem_append.mp mem with earlier | last
    · exact inv.held other earlier
    · obtain rfl := List.mem_singleton.mp last
      exact held

theorem Inv.next (inv : Inv s) (next : Next s s') (same : s'.sessions = s.sessions) : Inv s' where
  good := next.follows.good
  held := by
    intro session mem
    exact (inv.held session (same ▸ mem)).later next.later

theorem holds_load (taken : Taken)
    (held : ∀ copy, taken.copy = some copy → Holds s.current taken.id copy) :
    ∀ copy, (s.load taken).copy = some copy → Holds s.current taken.id copy := by
  intro copy found
  cases loaded : taken.copy with
  | some copy' =>
    simp only [load, loaded, Option.some_or, Option.some.injEq] at found
    exact found ▸ held copy' loaded
  | none =>
    simp only [load, loaded, Option.none_or] at found
    exact Versioned.holds_loaded found

theorem expired_held {rest : List Taken} {current : Nat → Option (Row SoftwareCampaign)} :
    ∀ taken ∈ rest.map Taken.expire, ∀ copy, taken.copy = some copy →
      Holds current taken.id copy ∧ mayResume copy.value = true := by
  intro taken mem copy found
  obtain ⟨earlier, -, rfl⟩ := List.mem_map.mp mem
  cases found

section Steps

variable {scope : Option Scope} {body : CampaignRequest} {job : Nat} {succeeded : Bool}
  {request : Request}

theorem Request.run_moves {held : CampaignRows} {w : Surroundings} (good : Good held)
    (h : request.run w id held = .ok rows) : Moves (rolloutOf held) (rolloutOf rows) := by
  cases request with
  | continue_ body => exact continueCampaign_moves good.sound h
  | halt body => exact haltCampaign_moves h
  | abort body => exact abortCampaign_moves h
  | rollback body => exact rollbackCampaign_moves good.sound h
  | progress => exact progress_moves good.sound h

theorem next_of_store {store : CampaignStore} (follows : Follows s.store store)
    (same : ∀ (id : Nat) rows, s.store.campaigns[id]? = some rows →
      ∃ rows', store.campaigns[id]? = some rows' ∧ rows'.c = rows.c) :
    Next s { s with store := store } := by
  refine ⟨follows, ?_⟩
  intro id row found
  obtain ⟨rows, hrows, rfl⟩ := current_some found
  obtain ⟨rows', hrows', c⟩ := same id rows hrows
  refine ⟨⟨rows.c, s.version id⟩, ?_, Or.inl rfl⟩
  simp [current, hrows', c]

theorem create_next (inv : Inv s) (valid : body.Valid) :
    Next s { s with store := (s.store.createSoftwareCampaign scope body).toOption.getD s.store } := by
  cases created : s.store.createSoftwareCampaign scope body with
  | error exc => exact .refl inv
  | ok store =>
    have follows := CampaignStore.createSoftwareCampaign_follows inv.good valid created
    refine next_of_store follows ?_
    intro id rows found
    obtain rfl | ⟨s, -, rfl⟩ := CampaignStore.createSoftwareCampaign_ok valid created
    · exact ⟨rows, found, rfl⟩
    · exact ⟨rows, Staged.getElem?_append_some.mpr (Or.inl found), rfl⟩

theorem reported_next (inv : Inv s) :
    Next s (s.reported id job succeeded) ∧ (s.reported id job succeeded).sessions = s.sessions := by
  unfold reported
  split
  · exact ⟨.refl inv, rfl⟩
  next rows found =>
    split
    next rows' reported =>
      refine ⟨next_of_store ((Follows.refl inv.good).put found (reportJob_move reported)) ?_, rfl⟩
      intro other held hheld
      by_cases equal : other = id
      · subst equal
        obtain rfl := Option.some.inj (found.symm.trans hheld)
        exact ⟨rows', CampaignStore.put_campaign found, reportJob_campaign reported⟩
      · exact ⟨held, (CampaignStore.put_other equal).trans hheld, rfl⟩
    · exact ⟨.refl inv, rfl⟩

theorem Inv.committed (inv : Inv s) (next : Next s s') (same : s'.sessions = s.sessions)
    (held : Held s'.current session) : Inv (s'.setSession i session) ∧ Next s (s'.setSession i session) :=
  ⟨(inv.next next same).setSession held, ⟨next.follows, next.later⟩⟩

theorem finishRequest_inv (inv : Inv s) : Inv (s.finishRequest i) ∧ Next s (s.finishRequest i) := by
  unfold finishRequest
  split
  next id copy request found =>
    have holds : Holds s.current id copy := inv.held _ (List.mem_of_getElem? found)
    split
    next rows done =>
      cases committed : s.commit id copy rows with
      | none => exact inv.committed (.refl inv) rfl trivial
      | some s' =>
        obtain ⟨next, same⟩ := commit_next inv holds
          (fun held hheld same => Request.run_moves (inv.good id held hheld) (same ▸ done)) committed
        exact inv.committed next same trivial
    · exact inv.committed (.refl inv) rfl trivial
  · exact ⟨inv, .refl inv⟩

theorem beginSweep_inv (inv : Inv s) : Inv s.beginSweep ∧ Next s s.beginSweep := by
  refine ⟨inv.addSession ⟨?_, ?_⟩, ⟨.refl inv.good, .refl⟩⟩
  · intro taken mem copy found
    obtain ⟨id, due, rfl⟩ := List.mem_map.mp mem
    have loaded : s.current id = some copy := by simpa [load] using found
    refine ⟨Versioned.holds_loaded loaded, ?_⟩
    obtain ⟨rows, hrows, rfl⟩ := current_some loaded
    obtain ⟨halted, reason⟩ := CampaignStore.due_halted (CampaignStore.due_of_mem due hrows)
    simp [mayResume, halted, reason]
  · intro taken copy none
    cases none

theorem takeNext_inv (inv : Inv s) (halted : s.stillHalted (.take i) = true) :
    Inv (s.takeNext i) ∧ Next s (s.takeNext i) := by
  unfold takeNext
  split
  next first rest last found =>
    obtain ⟨due, answered⟩ := inv.held _ (List.mem_of_getElem? found)
    refine inv.committed (.refl inv) rfl ⟨?_, answered⟩
    intro taken mem copy hcopy
    rcases List.mem_cons.mp mem with rfl | later
    · refine ⟨holds_load first (fun copy h => (due first List.mem_cons_self copy h).1) copy hcopy, ?_⟩
      obtain ⟨id, held⟩ := first
      cases held with
      | some copy' =>
        cases hcopy
        exact (due _ List.mem_cons_self copy rfl).2
      | none =>
        have loaded : s.current id = some copy := by simpa [load] using hcopy
        simpa [stillHalted, found, loaded] using halted
    · exact due taken (List.mem_cons_of_mem _ later) copy hcopy
  next first rest found =>
    have running := inv.held _ (List.mem_of_getElem? found)
    refine inv.committed (.refl inv) rfl ?_
    intro taken mem copy hcopy
    rcases List.mem_cons.mp mem with rfl | later
    · exact holds_load first (running first List.mem_cons_self) copy hcopy
    · exact running taken (List.mem_cons_of_mem _ later) copy hcopy
  · exact ⟨inv, .refl inv⟩

theorem resumeNext_inv (inv : Inv s) : Inv (s.resumeNext i) ∧ Next s (s.resumeNext i) := by
  unfold resumeNext
  split
  next id copy rest last found =>
    obtain ⟨due, -⟩ := inv.held _ (List.mem_of_getElem? found)
    obtain ⟨holds, halted⟩ := due _ List.mem_cons_self copy rfl
    split
    · exact inv.committed (.refl inv) rfl trivial
    next rows resumed =>
      split
      · exact inv.committed (.refl inv) rfl trivial
      next s' committed =>
        have status : copy.value.status = .halted := by
          simp only [mayResume, Bool.and_eq_true, decide_eq_true_eq] at halted
          exact halted.1
        obtain ⟨next, same⟩ := commit_next inv holds (fun held hheld same => by
          refine resume_moves (inv.good id held hheld).sound ?_ (same ▸ resumed)
          rw [← same]
          exact status) committed
        refine inv.committed next same ⟨expired_held, ?_⟩
        intro taken copy last found
        cases last
        cases found
  · exact ⟨inv, .refl inv⟩

theorem summariseLast_inv (inv : Inv s) : Inv (s.summariseLast i) ∧ Next s (s.summariseLast i) := by
  unfold summariseLast
  split
  next due last found =>
    obtain ⟨resumable, answered⟩ := inv.held _ (List.mem_of_getElem? found)
    refine inv.committed (.refl inv) rfl ⟨resumable, ?_⟩
    intro taken copy same hcopy
    cases same
    exact holds_load last (fun copy h => answered last copy rfl h) copy hcopy
  · exact ⟨inv, .refl inv⟩

theorem turnToRunning_inv (inv : Inv s) : Inv (s.turnToRunning i) ∧ Next s (s.turnToRunning i) := by
  unfold turnToRunning
  split
  next last found =>
    obtain ⟨-, answered⟩ := inv.held _ (List.mem_of_getElem? found)
    refine inv.committed (.refl inv) rfl ?_
    intro taken mem copy hcopy
    obtain ⟨id, -, rfl⟩ := List.mem_map.mp mem
    refine holds_load ⟨id, (last.filter (·.id = id)).bind (·.copy)⟩ ?_ copy hcopy
    intro held hheld
    obtain ⟨entry, same, hcopy'⟩ := Option.bind_eq_some_iff.mp hheld
    obtain ⟨hlast, hid⟩ := Option.filter_eq_some_iff.mp same
    have sameId : entry.id = id := by simpa using hid
    exact sameId ▸ answered entry held hlast hcopy'
  · exact ⟨inv, .refl inv⟩

theorem catchUpNext_inv (inv : Inv s) : Inv (s.catchUpNext i) ∧ Next s (s.catchUpNext i) := by
  unfold catchUpNext
  split
  next id copy rest found =>
    have running := inv.held _ (List.mem_of_getElem? found)
    have holds : Holds s.current id copy := running _ List.mem_cons_self copy rfl
    split
    · exact inv.committed (.refl inv) rfl trivial
    next rows progressed =>
      split
      · cases committed : s.commit id copy rows with
        | none => exact inv.committed (.refl inv) rfl fun t mem c hc => (expired_held t mem c hc).1
        | some s' =>
          obtain ⟨next, same⟩ := commit_next inv holds (fun held hheld same =>
            expireAndProgress_moves (inv.good id held hheld).sound (same ▸ progressed)) committed
          exact inv.committed next same fun t mem c hc => (expired_held t mem c hc).1
      · refine inv.committed (.refl inv) rfl fun taken mem => ?_
        exact running taken (List.mem_cons_of_mem _ mem)
  · exact ⟨inv, .refl inv⟩

end Steps

theorem step_inv {act : Act} (inv : Inv s) (halted : s.stillHalted act = true)
    (h : Step s act s') : Inv s' ∧ Next s s' := by
  obtain ⟨valid, rfl⟩ := h
  cases act with
  | create scope body =>
    have next : Next s (s.act (.create scope body)) := create_next inv (valid scope body rfl)
    exact ⟨inv.next next rfl, next⟩
  | report campaign job succeeded =>
    obtain ⟨next, same⟩ : Next s (s.reported campaign job succeeded) ∧ _ := reported_next inv
    exact ⟨inv.next next same, next⟩
  | surroundings registry busyElsewhere alarms now =>
    have next : Next s (s.act (.surroundings registry busyElsewhere alarms now)) :=
      next_of_store ⟨inv.good, fun _ s found => ⟨s, found, .refl⟩⟩
        fun id rows found => ⟨rows, found, rfl⟩
    exact ⟨inv.next next rfl, next⟩
  | request campaign request =>
    simp only [act, beginRequest]
    split
    · exact ⟨inv, .refl inv⟩
    next copy found =>
      exact ⟨inv.addSession (Versioned.holds_loaded found), ⟨.refl inv.good, .refl⟩⟩
  | finish session => exact finishRequest_inv inv
  | sweep => exact beginSweep_inv inv
  | take session => exact takeNext_inv inv halted
  | resume session => exact resumeNext_inv inv
  | summarise session => exact summariseLast_inv inv
  | turn session => exact turnToRunning_inv inv
  | catchUp session => exact catchUpNext_inv inv
  | crash session => exact inv.committed (.refl inv) rfl trivial

def bySweep : Act → Bool
  | .sweep | .take _ | .resume _ | .summarise _ | .turn _ | .catchUp _ => true
  | _ => false

theorem expireAndProgress_halted {w : Surroundings} (halted : rows.c.status = .halted) :
    CampaignStore.expireAndProgress w rows = .ok rows := by
  have expired : expireJobs w rows = .ok rows := by
    unfold expireJobs
    split
    · simp [halted]
    · rfl
  simp [CampaignStore.expireAndProgress, expired, progress, halted, bind, Except.bind]

theorem commit_changes {other : Nat} {held : CampaignRows} (holds : Holds s.current id copy)
    (found : s.store.campaigns[other]? = some held) (h : s.commit id copy rows = some s') :
    s'.store.campaigns[other]? = some held ∨ (id = other ∧ s.rows id copy = held) := by
  unfold commit at h
  split at h
  · cases h
    exact Or.inl found
  · split at h
    next version =>
      cases h
      by_cases equal : other = id
      · subst equal
        exact Or.inr ⟨rfl, rows_current found holds version⟩
      · exact Or.inl ((CampaignStore.put_other equal).trans found)
    · cases h

theorem sweep_keeps {act : Act} (inv : Inv s) (by_sweep : bySweep act = true) {held : CampaignRows}
    (found : s.store.campaigns[id]? = some held) (halted : held.c.status = .halted)
    (operator : held.c.haltedReason = some .operatorHalt) :
    (s.act act).store.campaigns[id]? = some held := by
  cases act with
  | sweep => exact found
  | take session =>
    simp only [Race.act, takeNext]
    split <;> exact found
  | resume session =>
    simp only [Race.act, resumeNext]
    split
    next other copy rest last hsession =>
      obtain ⟨due, -⟩ := inv.held _ (List.mem_of_getElem? hsession)
      obtain ⟨holds, resumable⟩ := due _ List.mem_cons_self copy rfl
      split
      · exact found
      · split
        · exact found
        next s' committed =>
          rcases commit_changes holds found committed with same | ⟨-, rows⟩
          · exact same
          · simp [mayResume, ← rows, Race.rows] at resumable operator
            exact absurd operator resumable.2
    · exact found
  | summarise session =>
    simp only [Race.act, summariseLast]
    split <;> exact found
  | turn session =>
    simp only [Race.act, turnToRunning]
    split <;> exact found
  | catchUp session =>
    simp only [Race.act, catchUpNext]
    split
    next other copy rest hsession =>
      have running := inv.held _ (List.mem_of_getElem? hsession)
      have holds : Holds s.current other copy := running _ List.mem_cons_self copy rfl
      split
      · exact found
      next rows progressed =>
        split
        next hmoved =>
          cases committed : s.commit other copy rows with
          | none => exact found
          | some s' =>
            rcases commit_changes holds found committed with same | ⟨rfl, same⟩
            · exact same
            · rw [same, expireAndProgress_halted halted] at progressed
              cases progressed
              simp [CampaignStore.moved, ← same, Race.rows] at hmoved
        · exact found
    · exact found
  | create | report | surroundings | request | finish | crash => simp [bySweep] at by_sweep

theorem inv_fresh {store : CampaignStore} (fresh : store.campaigns = []) : Inv { store := store } where
  good := by
    intro id rows found
    simp [fresh] at found
  held := by
    intro session mem
    cases mem

/-- Sessions that interleave in any way, so long as every sweep finds the campaigns it
resumes halted as it listed them: a campaign that has ended starts no wave any more, and
no sweep touches a campaign an operator has halted. -/
theorem sweeps_leave_ended_campaigns {store : CampaignStore} {ended final : Race}
    {earlier later : List (Runs.Step Race Act)} (fresh : store.campaigns = [])
    (run : Run Step { store := store } earlier ended) (goesOn : Run Step ended later final)
    (halted : ∀ t ∈ earlier ++ later, t.before.stillHalted t.label = true) :
    (∀ (id : Nat) rows, ended.store.campaigns[id]? = some rows →
      rows.c.status ∈ [.aborted, .completed, .rolledBack] →
      ∃ rows', final.store.campaigns[id]? = some rows' ∧ startedJobs rows' = startedJobs rows) ∧
    ∀ t ∈ earlier ++ later, bySweep t.label = true → ∀ (id : Nat) rows,
      t.before.store.campaigns[id]? = some rows → rows.c.status = .halted →
      rows.c.haltedReason = some .operatorHalt → t.after.store.campaigns[id]? = some rows := by
  have init : Inv { store := store } := inv_fresh fresh
  have keeps : ∀ s act s', Inv s → s.stillHalted act = true → Step s act s' → Inv s' :=
    fun s act s' inv guard taken => (step_inv inv guard taken).1
  constructor
  · intro id rows found status
    have closed : noMoreWaves rows.c.status = true := by
      simp only [List.mem_cons, List.not_mem_nil, or_false] at status
      rcases status with status | status | status <;> rw [status] <;> rfl
    have reached := run.invariant_of_guarded Inv (fun s act => s.stillHalted act = true) init keeps
      fun t mem => halted t (List.mem_append_left later mem)
    obtain ⟨-, follows⟩ := goesOn.invariant_of_guarded (fun s => Inv s ∧ Follows ended.store s.store)
      (fun s act => s.stillHalted act = true) ⟨reached, .refl reached.good⟩ (by
        intro s act s' ⟨inv, follows⟩ guard taken
        obtain ⟨inv', next⟩ := step_inv inv guard taken
        exact ⟨inv', follows.trans next.follows⟩)
      fun t mem => halted t (List.mem_append_right earlier mem)
    obtain ⟨rows', found', moves⟩ := follows.moved id rows found
    exact ⟨rows', found', (closed_moves moves closed).2⟩
  · refine (run.append goesOn).transitions_of_guarded Inv (fun s act => s.stillHalted act = true)
      init keeps _ ?_ halted
    intro s act s' inv _ taken by_sweep id rows found status operator
    simp only [taken.2]
    exact sweep_keeps inv by_sweep found status operator

section Example

def fourElements : CampaignStore := {
  registry := { rows := ["gnb-1", "gnb-2", "gnb-3", "gnb-4"].map fun ref =>
    { managedElementRef := ref, entityType := "O-DU" } } }

def twoWaves (refs : List String) : CampaignRequest where
  requestedBy := "operator"
  name := "upgrade"
  choice := .managedElementRefs refs
  waveSize := some ⟨1, Nat.one_pos⟩
  wavePauseSeconds := 60

def untilPause (campaign session : Nat) : List Act :=
  List.replicate 3 (.report campaign 0 true) ++ [.request campaign .progress, .finish session]

def bothPaused : List Act :=
  [.create none (twoWaves ["gnb-1", "gnb-2"]), .create none (twoWaves ["gnb-3", "gnb-4"])] ++
    untilPause 0 0 ++ untilPause 1 1 ++ [.surroundings fourElements.registry [] [] (seconds 61)]

def abortSecond (session : Nat) : List Act :=
  [.request 1 (.abort { requestedBy := "operator" }), .finish session]

def outcome (s : Race) : List (CampaignState × List (Nat × String)) :=
  s.store.campaigns.map fun rows => (rows.c.status, startedJobs rows)

theorem bothPaused_valid : ∀ act ∈ bothPaused, ∀ scope body, act = .create scope body → body.Valid := by
  intro act mem scope body same
  subst same
  simp [bothPaused, untilPause] at mem
  rcases mem with ⟨-, rfl⟩ | ⟨-, rfl⟩ <;> simp [CampaignRequest.Valid, twoWaves]

theorem run_of_acts {start : Race} (acts : List Act)
    (valid : ∀ act ∈ acts, ∀ scope body, act = .create scope body → body.Valid) :
    Run Step start (Runs.stepsOf act start acts) (acts.foldl act start) :=
  Runs.run_follow fun _ act mem => ⟨valid act mem, rfl⟩

/-- When the pause is over a sweep lists both campaigns; an operator aborts the second
while the first is resumed, and the sweep then starts the second's next wave. -/
theorem sweep_restarts_aborted : ∃ earlier ended later final,
    Run Step { store := fourElements } earlier ended ∧ Run Step ended later final ∧
      outcome ended = [(.halted, [(1, "gnb-1")]), (.aborted, [(1, "gnb-3")])] ∧
      outcome final = [(.running, [(1, "gnb-1"), (2, "gnb-2")]),
        (.running, [(1, "gnb-3"), (2, "gnb-4")])] := by
  refine ⟨_, _, _, _, run_of_acts (bothPaused ++ .sweep :: abortSecond 3) ?_,
    run_of_acts [.resume 2, .take 2, .resume 2] ?_, by decide, by decide⟩
  · intro act mem scope body same
    rcases List.mem_append.mp mem with earlier | later
    · exact bothPaused_valid act earlier scope body same
    · subst same
      simp [abortSecond] at later
  · intro act mem scope body same
    subst same
    simp at mem

/-- Aborted before the sweep, the second campaign is not listed and stays as it is. -/
theorem abort_before_sweep :
    let ended := (bothPaused ++ abortSecond 2).foldl act { store := fourElements }
    let final := [.sweep, .resume 3, .summarise 3, .turn 3, .catchUp 3].foldl act ended
    outcome final = [(.running, [(1, "gnb-1"), (2, "gnb-2")]), (.aborted, [(1, "gnb-3")])] ∧
      ∀ (id : Nat) rows, ended.store.campaigns[id]? = some rows →
        rows.c.status ∈ [.aborted, .completed, .rolledBack] →
        ∃ rows', final.store.campaigns[id]? = some rows' ∧ startedJobs rows' = startedJobs rows := by
  refine ⟨by decide, ?_⟩
  refine (sweeps_leave_ended_campaigns rfl (run_of_acts (bothPaused ++ abortSecond 2) ?_)
    (run_of_acts [.sweep, .resume 3, .summarise 3, .turn 3, .catchUp 3] ?_) (by decide)).1
  · intro act mem scope body same
    rcases List.mem_append.mp mem with earlier | later
    · exact bothPaused_valid act earlier scope body same
    · subst same
      simp [abortSecond] at later
  · intro act mem scope body same
    subst same
    simp at mem

end Example

end Race
end Smo.RanNfOam.Lifecycle
