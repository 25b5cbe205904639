import Mathlib.Data.List.Nodup
import Smo.IntentService.Decided

/-! Which conflicts between intents are on record. Requests run one at a time; a conflict is
looked for when an intent is created, among the intents that are ACTIVATED then. -/
namespace Smo.IntentService

open Json (Text Value)
open Runs

section Contests

def contests (mine others : List (IntentExpectation Text)) : Bool :=
  (settings mine).any fun own => (settings others).any fun other =>
    own.1 = other.1 && differs own.2 other.2

def notices (mine others : List (IntentExpectation Text)) : Bool :=
  (settings others).any fun other => (wanted mine other.1).any (differs · other.2)

theorem differs_comm (t u : ExpectationTarget) : differs t u = differs u t := by
  simp only [differs, Json.Value.same_comm (t.targetValueRange.getD .null),
    eq_comm (a := t.targetCondition)]

theorem contests_comm (mine others : List (IntentExpectation Text)) :
    contests mine others = contests others mine := by
  have swap : ∀ mine others, contests mine others = true → contests others mine = true := by
    intro mine others h
    simp only [contests, List.any_eq_true, Bool.and_eq_true, decide_eq_true_eq] at h ⊢
    obtain ⟨own, ownMem, other, otherMem, key, different⟩ := h
    exact ⟨other, otherMem, own, ownMem, key.symm, differs_comm _ _ ▸ different⟩
  exact Bool.eq_iff_iff.mpr ⟨swap _ _, swap _ _⟩

theorem mem_settings {expectations : List (IntentExpectation Text)}
    {setting : (Text × Text) × ExpectationTarget} (mem : setting ∈ settings expectations) :
    ∃ exp ∈ expectations, setting.2 ∈ exp.expectationTargets ∧
      exp.expectationObject.objectInstance = some setting.1.1 ∧ setting.1.2 = setting.2.targetName := by
  obtain ⟨exp, expMem, mem⟩ := List.mem_flatMap.mp mem
  cases named : exp.instance? with
  | none => simp [named] at mem
  | some inst =>
    simp only [named, List.mem_map] at mem
    obtain ⟨target, targetMem, rfl⟩ := mem
    exact ⟨exp, expMem, targetMem, (Option.filter_eq_some_iff.mp named).1, rfl⟩

theorem conflict_found {db : Db} {expectations : List (IntentExpectation Text)}
    {reports : List IntentConflictReport} {other : Intent}
    (ok : conflicts db expectations = .ok reports) (mem : other ∈ db.intents)
    (active : other.intentAdminState = .activated)
    (noticed : notices expectations other.intentExpectations = true) :
    ∃ report ∈ reports, report.conflictingIntent = other.intentId := by
  obtain ⟨found, each, ok⟩ := bind_ok ok
  cases ok
  simp only [notices, List.any_eq_true, Option.any_eq_true] at noticed
  obtain ⟨setting, settingMem, mine, isWanted, different⟩ := noticed
  obtain ⟨exp, expMem, targetMem, inst, name⟩ := mem_settings settingMem
  have pair : (other, exp, setting.2) ∈ (db.intents.filter (·.intentAdminState = .activated)).flatMap
      fun other => other.targets.map fun target => (other, target) := by
    refine List.mem_flatMap.mpr ⟨other, List.mem_filter.mpr ⟨mem, decide_eq_true active⟩, ?_⟩
    exact List.mem_map_of_mem (List.mem_flatMap.mpr ⟨exp, expMem, List.mem_map_of_mem targetMem⟩)
  obtain ⟨result, resultMem, one⟩ := mapM_ok_mem each pair
  have key : setting.1 = (setting.1.1, setting.2.targetName) := Prod.ext rfl name
  rw [key] at isWanted
  simp only [targetConflict, inst, Option.bind_some, isWanted, different] at one
  split at one
  next => cases one
  next =>
    cases one
    exact ⟨_, List.mem_filterMap.mpr ⟨_, resultMem, rfl⟩, rfl⟩

end Contests

/-- The rows between two requests, and for each intent the others that were ACTIVATED when it
was created. -/
structure Registry where
  db : Db
  nextId : Nat
  rivals : Nat → List Nat := fun _ => []

namespace Registry

inductive Act where
  | createIntent (body : CreateIntentRequest)
  | requestAutonomyDispatch (inst : RAppInstance) (body : CreateAutonomyDispatchRequest)
  | resolveAutonomyDispatch (dispatchId : Nat) (regionScope : RegionScope)
  | rejectAutonomyDispatch (dispatchId : Nat) (rejectedBy : String) (reason : Option String)
  | updateIntentAdminState (intentId : Nat) (newState : IntentAdminState) (requesterId : String)
  | deleteIntent (intentId : Nat)

variable (repr : Value → Text) (families : Families)

def answer (s : Registry) : Act → Except Failure Db
  | .createIntent body => createIntent s.db s.nextId body
  | .requestAutonomyDispatch inst body =>
    requestAutonomyDispatch repr families s.db s.nextId (some inst) body
  | .resolveAutonomyDispatch dispatchId regionScope =>
    resolveAutonomyDispatch repr families s.db s.nextId dispatchId regionScope
  | .rejectAutonomyDispatch dispatchId rejectedBy reason =>
    rejectAutonomyDispatch s.db dispatchId rejectedBy reason
  | .updateIntentAdminState intentId newState requesterId =>
    updateIntentAdminState s.db s.nextId intentId newState requesterId
  | .deleteIntent intentId => .ok (deleteIntent s.db intentId)

def active (s : Registry) : List Intent := s.db.intents.filter (·.intentAdminState = .activated)

def after (s : Registry) (db : Db) : Registry where
  db := db
  nextId := s.nextId + 1
  rivals id := if id = s.nextId then s.active.map (·.intentId) else s.rivals id

def act (s : Registry) (act : Act) : Option Registry :=
  (s.answer repr families act).toOption.map s.after

def Step (s : Registry) (act : Act) (s' : Registry) : Prop := s.act repr families act = some s'

/-- The expectations of the intent that a request makes ACTIVATED from the start, if any. -/
def activates (s : Registry) : Act → Option (List (IntentExpectation Text))
  | .createIntent body =>
    if body.intentAdminState = .activated then some body.intentExpectations else none
  | .requestAutonomyDispatch inst body =>
    if inst.autonomyMode = "AUTONOMOUS" then
      (scopedExpectations repr families body.expectations inst.regionScope).toOption
    else none
  | .resolveAutonomyDispatch dispatchId regionScope =>
    (s.db.dispatch dispatchId).bind fun dispatch =>
      (scopedExpectations repr families dispatch.expectations (some regionScope)).toOption
  | _ => none

/-- The younger of two intents was created while the older was ACTIVATED, and noticed it. -/
def noted (s : Registry) (younger older : Intent) : Bool :=
  (s.rivals younger.intentId).contains older.intentId &&
    notices younger.intentExpectations older.intentExpectations

/-- An intent that becomes ACTIVATED contests only those of the ACTIVATED intents that were
noted. -/
def watched (s : Registry) (act : Act) : Bool :=
  ((s.activates repr families act).all fun expectations => s.active.all fun other =>
    !contests expectations other.intentExpectations ||
      notices expectations other.intentExpectations) &&
  match act with
  | .updateIntentAdminState intentId .activated _ =>
    (s.db.intent intentId).all fun intent => intent.intentAdminState = .activated ||
      s.active.all fun other =>
        !contests intent.intentExpectations other.intentExpectations ||
          if other.intentId < intentId then s.noted intent other else s.noted other intent
  | _ => true

def Names (s : Registry) (intent other : Intent) : Prop :=
  ∃ report ∈ s.db.reports, report.intentId = intent.intentId ∧
    ∃ conflicts, report.intentConflictReports = some conflicts ∧
      ∃ conflict ∈ conflicts, conflict.conflictingIntent = other.intentId

def Recorded (s : Registry) (intent other : Intent) : Prop :=
  intent.inConflict = some true ∧ s.Names intent other

/-- What was noted at the younger one's creation is recorded, and two ACTIVATED intents that
contest were noted. -/
structure Inv (s : Registry) : Prop where
  past : ∀ id, ∀ rival ∈ s.rivals id, rival < id
  dated : ∀ intent ∈ s.db.intents, intent.intentId < s.nextId
  sorted : s.db.intents.Pairwise (·.intentId < ·.intentId)
  recorded : ∀ younger ∈ s.db.intents, ∀ older ∈ s.db.intents, s.noted younger older = true →
    s.Recorded younger older
  complete : ∀ younger ∈ s.active, ∀ older ∈ s.active, older.intentId < younger.intentId →
    contests younger.intentExpectations older.intentExpectations = true →
      s.noted younger older = true

section Changes

variable {repr : Value → Text} {families : Families} {s s' : Registry} {act : Act} {db : Db}

inductive Change (repr : Value → Text) (families : Families) (s : Registry) : Act → Db → Prop
  | created {act : Act} {db : Db} {body : CreateIntentRequest}
      {infeasible : List InFeasibleExpectationInfo} {found : List IntentConflictReport}
      (ok : conflicts s.db body.intentExpectations = .ok found)
      (activates : body.intentAdminState = .activated →
        s.activates repr families act = some body.intentExpectations)
      (intents : db.intents = s.db.intents ++ [(newRows s.nextId body infeasible found).1])
      (reports : db.reports = s.db.reports ++ [(newRows s.nextId body infeasible found).2]) :
      Change repr families s act db
  | moved {intentId : Nat} {newState : IntentAdminState} {requesterId : String} {intent : Intent}
      {report : IntentReport} {db : Db} (is : s.db.intent intentId = some intent)
      (differs : intent.intentAdminState ≠ newState) (plain : report.intentConflictReports = none)
      (intents : db.intents = (s.db.updateIntent intentId fun row =>
        applyReport { row with
          intentAdminState := newState, intentReportReference := some s.nextId } report).intents)
      (reports : db.reports = s.db.reports ++ [report]) :
      Change repr families s (.updateIntentAdminState intentId newState requesterId) db
  | deleted (intentId : Nat) :
      Change repr families s (.deleteIntent intentId) (deleteIntent s.db intentId)
  | quiet {act : Act} {db : Db} (intents : db.intents = s.db.intents)
      (reports : db.reports = s.db.reports) : Change repr families s act db

theorem requested_change {inst : RAppInstance} {body : CreateAutonomyDispatchRequest}
    (ok : requestAutonomyDispatch repr families s.db s.nextId (some inst) body = .ok db) :
    Change repr families s (.requestAutonomyDispatch inst body) db := by
  unfold requestAutonomyDispatch at ok
  simp only at ok
  split at ok
  next => cases ok
  next =>
    obtain ⟨-, -, ok⟩ := bind_ok ok
    split at ok
    next autonomous =>
      obtain ⟨request, scoped_, ok⟩ := bind_ok ok
      obtain ⟨rows, created, ok⟩ := bind_ok ok
      cases ok
      obtain ⟨infeasible, found, is, rfl⟩ := createIntentRow_ok created
      refine .created is (fun _ => ?_) rfl rfl
      simp [activates, autonomous, (dispatchIntentRequest_ok scoped_).1, Except.toOption]
    next =>
      split at ok <;> cases ok <;> exact .quiet rfl rfl

theorem answer_change (ok : s.answer repr families act = .ok db) : Change repr families s act db := by
  cases act with
  | createIntent body =>
    obtain ⟨rows, created, rfl⟩ := map_ok ok
    obtain ⟨infeasible, found, is, rfl⟩ := createIntentRow_ok created
    exact .created is (fun active => by simp [activates, active]) rfl rfl
  | requestAutonomyDispatch inst body => exact requested_change ok
  | resolveAutonomyDispatch dispatchId regionScope =>
    obtain ⟨dispatch, awaiting, ok⟩ := bind_ok ok
    obtain ⟨rows, resolved, ok⟩ := bind_ok ok
    cases ok
    obtain ⟨request, scoped_, created⟩ := bind_ok resolved
    obtain ⟨infeasible, found, is, rfl⟩ := createIntentRow_ok created
    refine .created is (fun _ => ?_) rfl rfl
    simp [activates, (Desk.awaitingDispatch_ok awaiting).1, (dispatchIntentRequest_ok scoped_).1,
      Except.toOption]
  | rejectAutonomyDispatch dispatchId rejectedBy reason =>
    obtain ⟨dispatch, -, ok⟩ := bind_ok ok
    cases ok
    exact .quiet rfl rfl
  | updateIntentAdminState intentId newState requesterId =>
    simp only [answer, updateIntentAdminState] at ok
    split at ok
    next => cases ok
    next intent is =>
      split at ok
      next => cases ok
      next =>
        split at ok
        next differs =>
          cases ok
          exact .moved is differs rfl rfl rfl
        next =>
          cases ok
          exact .quiet rfl rfl
  | deleteIntent intentId =>
    cases ok
    exact .deleted intentId

structure Kept (intent intent' : Intent) : Prop where
  intentId : intent'.intentId = intent.intentId
  intentExpectations : intent'.intentExpectations = intent.intentExpectations
  inConflict : intent'.inConflict = intent.inConflict

theorem Kept.refl (intent : Intent) : Kept intent intent := ⟨rfl, rfl, rfl⟩

theorem noted_after {younger older : Intent} (old : younger.intentId < s.nextId) :
    (s.after db).noted younger older = s.noted younger older := by
  have : younger.intentId ≠ s.nextId := by omega
  simp only [noted, after, if_neg this]

theorem mem_active {intent : Intent} :
    intent ∈ s.active ↔ intent ∈ s.db.intents ∧ intent.intentAdminState = .activated := by
  simp [active]

theorem Inv.unique (inv : Inv s) {a b : Intent} (memA : a ∈ s.db.intents) (memB : b ∈ s.db.intents)
    (same : a.intentId = b.intentId) : a = b := by
  have nodup : (s.db.intents.map (·.intentId)).Nodup :=
    List.pairwise_map.mpr (inv.sorted.imp fun lt => Nat.ne_of_lt lt)
  exact List.inj_on_of_nodup_map nodup memA memB same

theorem Inv.past_after (inv : Inv s) : ∀ id, ∀ rival ∈ (s.after db).rivals id, rival < id := by
  intro id rival mem
  simp only [after] at mem
  split at mem
  next now =>
    obtain ⟨intent, active, rfl⟩ := List.mem_map.mp mem
    have := inv.dated intent (mem_active.mp active).1
    omega
  next => exact inv.past id rival mem

theorem Inv.kept (inv : Inv s) (sorted : db.intents.Pairwise (·.intentId < ·.intentId))
    (origin : ∀ intent' ∈ db.intents, ∃ intent ∈ s.db.intents, Kept intent intent')
    (reports : ∀ intent' ∈ db.intents, ∀ report ∈ s.db.reports,
      report.intentId = intent'.intentId → report ∈ db.reports)
    (complete : ∀ younger ∈ (s.after db).active, ∀ older ∈ (s.after db).active,
      older.intentId < younger.intentId →
      contests younger.intentExpectations older.intentExpectations = true →
        s.noted younger older = true) : Inv (s.after db) := by
  have dated : ∀ intent' ∈ db.intents, intent'.intentId < s.nextId := by
    intro intent' mem
    obtain ⟨intent, there, kept⟩ := origin intent' mem
    exact kept.intentId ▸ inv.dated intent there
  refine ⟨inv.past_after, fun intent' mem => Nat.lt_succ_of_lt (dated intent' mem), sorted,
    fun younger' mem older' mem' noted => ?_, fun younger mem older mem' lt contest => ?_⟩
  · rw [noted_after (dated younger' mem)] at noted
    obtain ⟨younger, there, kept⟩ := origin younger' mem
    obtain ⟨older, there', kept'⟩ := origin older' mem'
    have noted : s.noted younger older = true := by
      simpa only [Registry.noted, kept.intentId, kept'.intentId, kept.intentExpectations,
        kept'.intentExpectations] using noted
    obtain ⟨marked, report, reportMem, own, conflicts, is, conflict, conflictMem, names⟩ :=
      inv.recorded younger there older there' noted
    refine ⟨kept.inConflict.trans marked, report, ?_, own.trans kept.intentId.symm, conflicts, is,
      conflict, conflictMem, names.trans kept'.intentId.symm⟩
    exact reports younger' mem report reportMem (own.trans kept.intentId.symm)
  · rw [noted_after (dated younger (mem_active.mp mem).1)]
    exact complete younger mem older mem' lt contest

theorem Inv.created (inv : Inv s) {body : CreateIntentRequest}
    {infeasible : List InFeasibleExpectationInfo} {found : List IntentConflictReport}
    (ok : conflicts s.db body.intentExpectations = .ok found)
    (noticed : body.intentAdminState = .activated → ∀ other ∈ s.active,
      contests body.intentExpectations other.intentExpectations = true →
        notices body.intentExpectations other.intentExpectations = true)
    (intents : db.intents = s.db.intents ++ [(newRows s.nextId body infeasible found).1])
    (reports : db.reports = s.db.reports ++ [(newRows s.nextId body infeasible found).2]) :
    Inv (s.after db) := by
  have mem_iff : ∀ intent, intent ∈ (s.after db).db.intents ↔
      intent ∈ s.db.intents ∨ intent = (newRows s.nextId body infeasible found).1 := by
    simp [after, intents]
  have new : (newRows s.nextId body infeasible found).1.intentId = s.nextId := rfl
  have rivals : (s.after db).rivals s.nextId = s.active.map (·.intentId) := if_pos rfl
  refine ⟨inv.past_after, fun intent mem => ?_, ?_, fun younger mem older mem' noted => ?_,
    fun younger mem older mem' lt contest => ?_⟩
  · rcases (mem_iff intent).mp mem with old | rfl
    · exact Nat.lt_succ_of_lt (inv.dated intent old)
    · exact Nat.lt_succ_self _
  · simp only [after, intents]
    refine List.pairwise_append.mpr ⟨inv.sorted, List.pairwise_singleton _ _, fun a memA b memB => ?_⟩
    obtain rfl := List.mem_singleton.mp memB
    exact inv.dated a memA
  · have before : older.intentId < younger.intentId := by
      simp only [Registry.noted, Bool.and_eq_true, List.contains_iff_mem] at noted
      exact inv.past_after _ _ noted.1
    have older_old : older ∈ s.db.intents := by
      rcases (mem_iff older).mp mem' with old | rfl
      · exact old
      · rcases (mem_iff younger).mp mem with old | rfl
        · have := inv.dated younger old
          omega
        · omega
    rcases (mem_iff younger).mp mem with old | rfl
    · rw [noted_after (inv.dated younger old)] at noted
      obtain ⟨marked, report, reportMem, own⟩ := inv.recorded younger old older older_old noted
      refine ⟨marked, report, ?_, own⟩
      simp [after, reports, reportMem]
    · simp only [Registry.noted, new, rivals, Bool.and_eq_true, List.contains_iff_mem,
        List.mem_map] at noted
      obtain ⟨⟨rival, active, same⟩, notice⟩ := noted
      obtain ⟨there, activated⟩ := mem_active.mp active
      obtain rfl := inv.unique there older_old same
      obtain ⟨conflict, conflictMem, names⟩ := conflict_found ok there activated notice
      have some_ : found.isEmpty = false := by
        cases found with
        | nil => cases conflictMem
        | cons => rfl
      refine ⟨by simp [newRows, some_], (newRows s.nextId body infeasible found).2, ?_, rfl, found,
        by simp [newRows, some_], conflict, conflictMem, names⟩
      simp [after, reports]
  · obtain ⟨there, activated⟩ := mem_active.mp mem
    obtain ⟨there', activated'⟩ := mem_active.mp mem'
    have older_old : older ∈ s.db.intents := by
      rcases (mem_iff older).mp there' with old | rfl
      · exact old
      · rcases (mem_iff younger).mp there with old | rfl
        · have := inv.dated younger old
          omega
        · omega
    have older_active : older ∈ s.active := mem_active.mpr ⟨older_old, activated'⟩
    rcases (mem_iff younger).mp there with old | rfl
    · rw [noted_after (inv.dated younger old)]
      exact inv.complete younger (mem_active.mpr ⟨old, activated⟩) older older_active lt contest
    · simp only [Registry.noted, new, rivals, Bool.and_eq_true, List.contains_iff_mem]
      exact ⟨List.mem_map_of_mem older_active, noticed activated older older_active contest⟩

theorem Inv.moved (inv : Inv s) {intentId : Nat} {newState : IntentAdminState} {intent : Intent}
    {report : IntentReport} (is : s.db.intent intentId = some intent)
    (plain : report.intentConflictReports = none)
    (noted : newState = .activated → ∀ other ∈ s.active,
      contests intent.intentExpectations other.intentExpectations = true →
      (if other.intentId < intentId then s.noted intent other else s.noted other intent) = true)
    (intents : db.intents = (s.db.updateIntent intentId fun row =>
      applyReport { row with
        intentAdminState := newState, intentReportReference := some s.nextId } report).intents)
    (reports : db.reports = s.db.reports ++ [report]) : Inv (s.after db) := by
  have there : intent ∈ s.db.intents := List.mem_of_find?_eq_some is
  have own : intent.intentId = intentId := by simpa using List.find?_some is
  have origin : ∀ intent' ∈ db.intents, ∃ row ∈ s.db.intents, Kept row intent' ∧
      (row.intentId = intentId → intent'.intentAdminState = newState) ∧
      (row.intentId ≠ intentId → intent' = row) := by
    intro intent' mem
    rw [intents] at mem
    obtain ⟨row, rowMem, rfl⟩ := List.mem_map.mp mem
    refine ⟨row, rowMem, ?_⟩
    by_cases mine : row.intentId = intentId
    · rw [if_pos mine]
      exact ⟨⟨rfl, rfl, by simp [applyReport, plain]⟩, fun _ => rfl, fun other => absurd mine other⟩
    · rw [if_neg mine]
      exact ⟨.refl row, fun same => absurd same mine, fun _ => rfl⟩
  refine inv.kept ?_ (fun intent' mem => ?_) (fun _ _ report mem _ => ?_)
    fun younger mem older mem' lt contest => ?_
  · rw [intents, Db.updateIntent, List.pairwise_map]
    refine inv.sorted.imp fun {a b} lt => ?_
    have same : ∀ row : Intent, (if row.intentId = intentId then applyReport { row with
        intentAdminState := newState, intentReportReference := some s.nextId } report
        else row).intentId = row.intentId := fun row => by split <;> rfl
    simpa only [same] using lt
  · obtain ⟨row, rowMem, kept, -⟩ := origin intent' mem
    exact ⟨row, rowMem, kept⟩
  · simp [reports, mem]
  · obtain ⟨memY, activeY⟩ := mem_active.mp mem
    obtain ⟨memO, activeO⟩ := mem_active.mp mem'
    obtain ⟨rowY, rowMemY, keptY, stateY, otherY⟩ := origin younger memY
    obtain ⟨rowO, rowMemO, keptO, stateO, otherO⟩ := origin older memO
    rw [keptY.intentExpectations, keptO.intentExpectations] at contest
    rw [keptY.intentId, keptO.intentId] at lt
    have same : s.noted younger older = s.noted rowY rowO := by
      simp only [Registry.noted, keptY.intentId, keptO.intentId, keptY.intentExpectations,
        keptO.intentExpectations]
    rw [same]
    by_cases mineY : rowY.intentId = intentId
    · obtain rfl := inv.unique rowMemY there (mineY.trans own.symm)
      obtain rfl := otherO (by omega)
      have := noted ((stateY mineY).symm.trans activeY) older (mem_active.mpr ⟨rowMemO, activeO⟩)
        contest
      rwa [if_pos (mineY ▸ lt)] at this
    · obtain rfl := otherY mineY
      have activeY : younger ∈ s.active := mem_active.mpr ⟨rowMemY, activeY⟩
      by_cases mineO : rowO.intentId = intentId
      · obtain rfl := inv.unique rowMemO there (mineO.trans own.symm)
        have := noted ((stateO mineO).symm.trans activeO) younger activeY
          (contests_comm _ _ ▸ contest)
        rwa [if_neg (by omega)] at this
      · obtain rfl := otherO mineO
        exact inv.complete younger activeY older (mem_active.mpr ⟨rowMemO, activeO⟩) lt contest

theorem Inv.deleted (inv : Inv s) (intentId : Nat) : Inv (s.after (deleteIntent s.db intentId)) := by
  have mem_iff : ∀ intent, intent ∈ (deleteIntent s.db intentId).intents ↔
      intent ∈ s.db.intents ∧ intent.intentId ≠ intentId := by
    simp [deleteIntent]
  refine inv.kept (inv.sorted.filter _) (fun intent mem => ?_) (fun intent mem report mem' own => ?_)
    fun younger mem older mem' => ?_
  · exact ⟨intent, ((mem_iff intent).mp mem).1, .refl intent⟩
  · have := ((mem_iff intent).mp mem).2
    simp only [deleteIntent, List.mem_filter, decide_eq_true_eq]
    exact ⟨mem', own ▸ this⟩
  · obtain ⟨there, active⟩ := mem_active.mp mem
    obtain ⟨there', active'⟩ := mem_active.mp mem'
    exact inv.complete younger (mem_active.mpr ⟨((mem_iff _).mp there).1, active⟩) older
      (mem_active.mpr ⟨((mem_iff _).mp there').1, active'⟩)

theorem Inv.quiet (inv : Inv s) (intents : db.intents = s.db.intents)
    (reports : db.reports = s.db.reports) : Inv (s.after db) := by
  refine inv.kept (intents ▸ inv.sorted) (fun intent mem => ⟨intent, intents ▸ mem, .refl intent⟩)
    (fun _ _ report mem _ => reports ▸ mem) fun younger mem older mem' => ?_
  have same : (s.after db).active = s.active := by simp only [active, after, intents]
  rw [same] at mem mem'
  exact inv.complete younger mem older mem'

theorem Inv.step (inv : Inv s) (watched : s.watched repr families act = true)
    (step : Step repr families s act s') : Inv s' := by
  obtain ⟨db, answered, rfl⟩ := Option.map_eq_some_iff.mp step
  have answered : s.answer repr families act = .ok db := by
    cases answer : s.answer repr families act with
    | error => simp [answer, Except.toOption] at answered
    | ok db' => simpa [answer, Except.toOption] using answered
  simp only [Registry.watched, Bool.and_eq_true] at watched
  obtain ⟨creates, moves⟩ := watched
  cases answer_change answered with
  | created ok activates intents reports =>
    refine inv.created ok (fun activated other active contest => ?_) intents reports
    simpa [activates activated, contest] using
      List.all_eq_true.mp (Option.all_eq_true _ _ |>.mp creates _ (activates activated)) other active
  | moved is differs plain intents reports =>
    refine inv.moved is plain (fun activated other active contest => ?_) intents reports
    subst activated
    simp only [is, Option.all_some, decide_eq_false differs, Bool.false_or] at moves
    simpa [contest] using List.all_eq_true.mp moves other active
  | deleted intentId => exact inv.deleted intentId
  | quiet intents reports => exact inv.quiet intents reports

end Changes

structure Opens (s : Registry) : Prop where
  intents : s.db.intents = []
  rivals : s.rivals = fun _ => []

/-- Two distinct ACTIVATED intents that contest have the conflict on record with one of them. -/
def Complete (s : Registry) : Prop :=
  ∀ a ∈ s.db.intents, ∀ b ∈ s.db.intents, a.intentId ≠ b.intentId →
    a.intentAdminState = .activated → b.intentAdminState = .activated →
    contests a.intentExpectations b.intentExpectations = true → s.Recorded a b ∨ s.Recorded b a

section Runs

variable {repr : Value → Text} {families : Families} {start s : Registry}
  {trace : List (Runs.Step Registry Act)}

theorem Opens.inv (opens : Opens start) : Inv start := by
  refine ⟨?_, ?_, ?_, ?_, ?_⟩
  · simp [opens.rivals]
  · simp [opens.intents]
  · simp [opens.intents]
  · simp [opens.intents]
  · simp [active, opens.intents]

theorem Inv.isComplete (inv : Inv s) : Complete s := by
  intro a memA b memB other activeA activeB contest
  rcases Nat.lt_or_gt_of_ne other with lt | gt
  · rw [contests_comm] at contest
    exact .inr (inv.recorded b memB a memA (inv.complete b (mem_active.mpr ⟨memB, activeB⟩) a
      (mem_active.mpr ⟨memA, activeA⟩) lt contest))
  · exact .inl (inv.recorded a memA b memB (inv.complete a (mem_active.mpr ⟨memA, activeA⟩) b
      (mem_active.mpr ⟨memB, activeB⟩) gt contest))

/-- In a run in which an intent that becomes ACTIVATED contests only ACTIVATED intents that
were noted, every conflict between ACTIVATED intents is on record. -/
theorem conflicts_complete (opens : Opens start) (run : Run (Step repr families) start trace s)
    (watched : ∀ t ∈ trace, t.before.watched repr families t.label = true) : Complete s :=
  (run.invariant_of_guarded Inv (fun s act => s.watched repr families act = true) opens.inv
    (fun _ _ _ inv watched step => inv.step watched step) watched).isComplete

section Examples

def cellState (values : List String) : IntentExpectation Text where
  expectationId := text "e1"
  expectationObject := { objectInstance := some (text "NRCellDU=1") }
  expectationTargets := values.map fun value =>
    { targetName := text "state"
      targetCondition := .isEqualTo
      targetValueRange := some (.str (text value)) }

def cellIntent (values : List String) (state : IntentAdminState := .activated) : Act :=
  .createIntent
    { userLabel := "cell", intentExpectations := [cellState values], intentAdminState := state
      rmihId := "energy", rmioId := "rapp-1" }

def openRegistry : Registry where
  db := { functions := [{ rmihId := "energy", intentHandlingCapabilityList := [] }] }
  nextId := 0

abbrev plainAct : Registry → Act → Option Registry := Registry.act (fun _ => []) plainFamilies

def opposed : List Act := [cellIntent ["on"], cellIntent ["off"]]

/-- The second of two opposed intents names the first. -/
theorem opposed_complete : ∃ trace s,
    Run (Step (fun _ => []) plainFamilies) openRegistry trace s ∧ Complete s := by
  have run := @run_enabled _ _ openRegistry plainAct opposed rfl
  have all : (stepsOf (nextOf plainAct) openRegistry opposed).all
      (fun t => t.before.watched (fun _ => []) plainFamilies t.label) = true := by decide +kernel
  exact ⟨_, _, run, conflicts_complete ⟨rfl, rfl⟩ run (List.all_eq_true.mp all)⟩

def activatedLater : List Act := [
  cellIntent ["on"] .deactivated, cellIntent ["off"],
  .updateIntentAdminState 0 .activated "rapp-1"]

def setTwice : List Act := [cellIntent ["on"], cellIntent ["off", "on"]]

def unmarked (s : Registry) : Bool :=
  s.db.intents.any fun a => s.db.intents.any fun b =>
    a.intentId ≠ b.intentId && a.intentAdminState = .activated &&
      b.intentAdminState = .activated && contests a.intentExpectations b.intentExpectations &&
      a.inConflict = some false && b.inConflict = some false

theorem not_complete_of_unmarked (h : s.unmarked = true) : ¬Complete s := by
  simp only [unmarked, List.any_eq_true, Bool.and_eq_true, decide_eq_true_eq] at h
  obtain ⟨a, memA, b, memB, ⟨⟨⟨⟨other, activeA⟩, activeB⟩, contest⟩, plainA⟩, plainB⟩ := h
  intro complete
  rcases complete a memA b memB other activeA activeB contest with ⟨marked, -⟩ | ⟨marked, -⟩
  · rw [plainA] at marked
    cases marked
  · rw [plainB] at marked
    cases marked

/-- A conflict goes unrecorded where an intent is activated later, and where one sets a target
twice. -/
theorem conflicts_missed :
    Opens openRegistry ∧
    (∃ trace s, Run (Step (fun _ => []) plainFamilies) openRegistry trace s ∧ ¬Complete s) ∧
    ∃ trace s, Run (Step (fun _ => []) plainFamilies) openRegistry trace s ∧ ¬Complete s :=
  ⟨⟨rfl, rfl⟩,
    ⟨_, _, @run_enabled _ _ openRegistry plainAct activatedLater rfl,
      not_complete_of_unmarked (by decide +kernel)⟩,
    _, _, @run_enabled _ _ openRegistry plainAct setTwice rfl,
    not_complete_of_unmarked (by decide +kernel)⟩

end Examples

end Runs

end Registry
end Smo.IntentService
