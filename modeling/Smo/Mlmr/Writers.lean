import Mathlib.Data.List.Range
import Mathlib.Data.List.MinMax
import Smo.Lib.Runs
import Smo.Lib.Table
import Smo.Mlmr.Discovery

/-! Concurrent writers of one model (`mlmr/app/main.py`, `mlmr/app/mlr.py`): uploads, phase-info
patches, updates and the delete, each a READ COMMITTED transaction that reads, computes and commits
once. An upload takes the greatest version it saw plus one, a patch writes the whole attribute. -/
namespace Smo.Mlmr

/-- `MLModelPhaseInfo` with its `trainingInfo`; each attribute is the JSON that was sent. -/
structure PhaseInfo where
  phase : Option Str := none
  observedPerf : Option Str := none
  contTrainInd : Option Str := none
  contTrainParams : Option Str := none
  dataSources : Option Str := none
  dataVolume : Option Str := none
  freshness : Option Str := none
  baseModelId : Option Str := none
  deriving DecidableEq

inductive TrainingField
  | dataSources
  | dataVolume
  | freshness
  | baseModelId
  deriving DecidableEq

def PhaseInfo.training (info : PhaseInfo) : TrainingField → Option Str
  | .dataSources => info.dataSources
  | .dataVolume => info.dataVolume
  | .freshness => info.freshness
  | .baseModelId => info.baseModelId

/-- The attributes that were sent over the stored ones, those of `trainingInfo` one by one. -/
def PhaseInfo.update (info sent : PhaseInfo) : PhaseInfo where
  phase := sent.phase.or info.phase
  observedPerf := sent.observedPerf.or info.observedPerf
  contTrainInd := sent.contTrainInd.or info.contTrainInd
  contTrainParams := sent.contTrainParams.or info.contTrainParams
  dataSources := sent.dataSources.or info.dataSources
  dataVolume := sent.dataVolume.or info.dataVolume
  freshness := sent.freshness.or info.freshness
  baseModelId := sent.baseModelId.or info.baseModelId

structure ModelRow where
  artifactLocation : Option Nat := none
  phaseInfo : PhaseInfo := {}
  deriving DecidableEq

inductive Request
  | upload (filename content : Str)
  | patch (body : PhaseInfo)
  | put (phaseInfo : Option PhaseInfo)
  | delete

inductive Stage
  | loaded (request : Request) (row : ModelRow)
  | counted (filename content : Str) (nextVersion : Nat)
  | ended

/-- The row and the artifacts, and the requests that have begun. `told` is history: what each upload
was answered; `patched` is the patches that were committed, oldest first. -/
structure Store where
  model : Option ModelRow
  artifacts : List Artifact := []
  requests : List Stage := []
  told : List Artifact := []
  patched : List PhaseInfo := []

inductive Act
  | load (request : Request)
  | count (i : Nat)
  | commit (i : Nat)

namespace Store

def greatest (s : Store) : Nat := (s.artifacts.map Artifact.version).foldl max 0

def served (s : Store) (version : Nat) : Option Artifact :=
  s.artifacts.find? fun artifact => artifact.version = version

def ending (s : Store) (i : Nat) : Store := { s with requests := s.requests.set i .ended }

/-- The file name ends in `.zip`. -/
def isZip (filename : Str) : Bool := ".zip".toList.isSuffixOf filename

def storeArtifact (s : Store) (artifact : Artifact) : Store :=
  match s.model with
  | none => s
  | some row =>
    { s with
      model := some { row with artifactLocation := some artifact.version }
      artifacts := s.artifacts ++ [artifact]
      told := s.told ++ [artifact] }

/-- The commit of a patch that was computed from a row: an attribute that it leaves as it was read is
not written. -/
def storePatch (s : Store) (read : ModelRow) (body : PhaseInfo) : Store :=
  match s.model with
  | none => s
  | some row =>
    let info := read.phaseInfo.update body
    { s with
      model := some { row with phaseInfo := if info = read.phaseInfo then row.phaseInfo else info }
      patched := s.patched ++ [body] }

def storePut (s : Store) (read : ModelRow) (sent : Option PhaseInfo) : Store :=
  match s.model, sent with
  | some row, some info =>
    { s with model := some { row with phaseInfo := if info = read.phaseInfo then row.phaseInfo else info } }
  | _, _ => s

/-- The first `phaseInfo` needs a phase. -/
def refusesPatch (read : ModelRow) (body : PhaseInfo) : Bool :=
  read.phaseInfo.phase.isNone && body.phase.isNone

def act (s : Store) : Act → Option Store
  | .load request =>
    match s.model with
    | none => some { s with requests := s.requests ++ [.ended] }
    | some row => some { s with requests := s.requests ++ [.loaded request row] }
  | .count i =>
    match s.requests[i]? with
    | some (.loaded (.upload filename content) _) =>
      if isZip filename then
        some { s with requests := s.requests.set i (.counted filename content (s.greatest + 1)) }
      else some (s.ending i)
    | _ => none
  | .commit i =>
    match s.requests[i]? with
    | some (.counted filename content version) => some ((s.storeArtifact ⟨version, filename, content⟩).ending i)
    | some (.loaded (.patch body) row) =>
      if refusesPatch row body then some (s.ending i) else some ((s.storePatch row body).ending i)
    | some (.loaded (.put sent) row) => some ((s.storePut row sent).ending i)
    | some (.loaded .delete _) => some ({ s with model := none, artifacts := [] }.ending i)
    | _ => none

def Step (s : Store) (label : Act) (s' : Store) : Prop := s.act label = some s'

/-- What a request read is no longer so when it commits, or an update sends the phase info, which
takes the place of the stored one. -/
def lapses (s : Store) : Act → Bool
  | .commit i =>
    match s.requests[i]? with
    | some (.counted _ _ version) => s.model.isSome && version ≠ s.greatest + 1
    | some (.loaded (.patch _) row) => s.model.any fun current => current.phaseInfo ≠ row.phaseInfo
    | some (.loaded (.put sent) _) => sent.isSome
    | _ => false
  | _ => false

end Store

/-- The model as it is kept: its artifacts are numbered from 1, its location names the last one, what
an upload was told is what a download serves, and the phase info is that of all the patches. -/
structure Store.Kept (registered : PhaseInfo) (s : Store) (row : ModelRow) : Prop where
  versions : s.artifacts.map Artifact.version = List.range' 1 s.artifacts.length
  location : row.artifactLocation = s.artifacts.getLast?.map Artifact.version
  greatest : ∀ artifact ∈ s.artifacts, ∀ version, row.artifactLocation = some version →
    artifact.version ≤ version
  told : ∀ artifact ∈ s.told, s.served artifact.version = some artifact
  phaseInfo : row.phaseInfo = s.patched.foldl PhaseInfo.update registered
  training : ∀ (i : Nat) (sent : PhaseInfo), s.patched[i]? = some sent → ∀ field value, sent.training field = some value →
    row.phaseInfo.training field = some value ∨
      (row.phaseInfo.training field).isSome ∧
        ∃ (j : Nat) (other : PhaseInfo), j ≠ i ∧ s.patched[j]? = some other ∧ (other.training field).isSome

section Patches

theorem training_update (info sent : PhaseInfo) (field : TrainingField) :
    (info.update sent).training field = (sent.training field).or (info.training field) := by
  cases field <;> rfl

theorem training_kept (info : PhaseInfo) (patches : List PhaseInfo) {i : Nat} {sent : PhaseInfo}
    (mem : patches[i]? = some sent) {field : TrainingField} {value : Str}
    (has : sent.training field = some value) :
    (patches.foldl PhaseInfo.update info).training field = some value ∨
      ((patches.foldl PhaseInfo.update info).training field).isSome ∧
        ∃ (j : Nat) (other : PhaseInfo), j ≠ i ∧ patches[j]? = some other ∧ (other.training field).isSome := by
  induction patches using List.reverseRecOn with
  | nil => cases mem
  | append_singleton earlier last ih =>
    rw [List.foldl_append, List.foldl_cons, List.foldl_nil, training_update]
    rcases Table.append_cases mem with ⟨rfl, rfl⟩ | inEarlier
    · rw [has]
      exact .inl rfl
    · have before : i < earlier.length := (List.getElem?_eq_some_iff.mp inEarlier).1
      cases again : last.training field with
      | none =>
        rw [Option.none_or]
        rcases ih inEarlier with kept | ⟨there, j, other, differs, found, sends⟩
        · exact .inl kept
        · refine .inr ⟨there, j, other, differs, ?_, sends⟩
          rw [List.getElem?_append_left (List.getElem?_eq_some_iff.mp found).1, found]
      | some later =>
        refine .inr ⟨rfl, earlier.length, last, by omega, ?_, by simp [again]⟩
        simp

end Patches

section Writers

variable {registered : PhaseInfo} {s s' : Store} {row : ModelRow}

theorem greatest_range (n : Nat) : (List.range' 1 n).foldl max 0 = n := by
  induction n with
  | zero => rfl
  | succ n ih =>
    rw [List.range'_1_concat, List.foldl_append, ih]
    simp only [List.foldl_cons, List.foldl_nil]
    omega

def Store.Sound (registered : PhaseInfo) (s : Store) : Prop :=
  ∀ row, s.model = some row → s.Kept registered row

theorem Store.Kept.same (kept : s.Kept registered row) (artifacts : s'.artifacts = s.artifacts)
    (told : s'.told = s.told) (patched : s'.patched = s.patched) : s'.Kept registered row := by
  obtain ⟨versions, location, greatest, served, phaseInfo, training⟩ := kept
  refine ⟨?_, ?_, ?_, ?_, ?_, ?_⟩
  · rw [artifacts]
    exact versions
  · rw [artifacts]
    exact location
  · rw [artifacts]
    exact greatest
  · intro artifact mem
    rw [told] at mem
    have there := served artifact mem
    rw [Store.served] at there ⊢
    rwa [artifacts]
  · rw [patched]
    exact phaseInfo
  · rw [patched]
    exact training

theorem Store.Kept.next (kept : s.Kept registered row) : s.greatest = s.artifacts.length := by
  rw [Store.greatest, kept.versions, greatest_range]

theorem Store.Kept.bounded (kept : s.Kept registered row) {artifact : Artifact}
    (mem : artifact ∈ s.artifacts) : artifact.version ≤ s.artifacts.length := by
  have inRange := List.mem_map_of_mem (f := Artifact.version) mem
  rw [kept.versions, List.mem_range'_1] at inRange
  omega

theorem Store.Kept.upload (kept : s.Kept registered row) {artifact : Artifact}
    (next : artifact.version = s.greatest + 1) :
    Store.Kept registered
      { s with artifacts := s.artifacts ++ [artifact], told := s.told ++ [artifact] }
      { row with artifactLocation := some artifact.version } := by
  rw [kept.next] at next
  have fresh : ∀ earlier ∈ s.artifacts, earlier.version ≠ artifact.version := by
    intro earlier mem
    have := kept.bounded mem
    omega
  refine ⟨?_, by simp, ?_, ?_, kept.phaseInfo, kept.training⟩
  · rw [List.map_append, kept.versions, List.length_append, List.length_singleton, List.range'_1_concat,
      List.map_singleton, next, Nat.add_comm 1]
  · rintro earlier mem _ ⟨⟩
    rcases List.mem_append.mp mem with before | last
    · have := kept.bounded before
      omega
    · rw [List.mem_singleton.mp last]
  · intro earlier mem
    simp only [Store.served, List.find?_append]
    rcases List.mem_append.mp mem with before | last
    · rw [show s.artifacts.find? _ = some earlier from kept.told earlier before, Option.some_or]
    · obtain rfl := List.mem_singleton.mp last
      rw [List.find?_eq_none.mpr fun other mem' => by simpa using fresh other mem']
      simp

theorem Store.Kept.patch (kept : s.Kept registered row) (body : PhaseInfo) :
    Store.Kept registered { s with patched := s.patched ++ [body] }
      { row with phaseInfo := row.phaseInfo.update body } := by
  have phaseInfo : row.phaseInfo.update body = (s.patched ++ [body]).foldl PhaseInfo.update registered := by
    rw [List.foldl_append, ← kept.phaseInfo]
    rfl
  refine ⟨kept.versions, kept.location, kept.greatest, kept.told, phaseInfo, ?_⟩
  intro i sent found field value has
  simp only [phaseInfo]
  exact training_kept registered (s.patched ++ [body]) found has

theorem Store.Sound.step (sound : s.Sound registered) {label : Act} (step : Store.Step s label s')
    (careful : s.lapses label = false) : s'.Sound registered := by
  cases label with
  | load request =>
    simp only [Store.Step, Store.act] at step
    intro row stored
    cases is : s.model with
    | none =>
      simp only [is, Option.some.injEq] at step
      subst step
      exact (sound row (is.trans stored)).same rfl rfl rfl
    | some current =>
      simp only [is, Option.some.injEq] at step
      subst step
      exact (sound row (is.trans stored)).same rfl rfl rfl
  | count i =>
    simp only [Store.Step, Store.act] at step
    split at step
    · split_ifs at step <;> cases step <;> exact fun row stored => (sound row stored).same rfl rfl rfl
    · cases step
  | commit i =>
    simp only [Store.Step, Store.act] at step
    simp only [Store.lapses] at careful
    split at step
    · next filename content version found =>
      cases step
      simp only [found] at careful
      intro row stored
      cases is : s.model with
      | none => simp [Store.ending, Store.storeArtifact, is] at stored
      | some current =>
        simp only [is, Option.isSome_some, Bool.true_and, decide_eq_false_iff_not, not_not] at careful
        simp only [Store.ending, Store.storeArtifact, is, Option.some.injEq] at stored ⊢
        subst stored
        exact (@Store.Kept.upload registered s current (sound current is) ⟨version, filename, content⟩
          careful).same rfl rfl rfl
    · next body read found =>
      simp only [found] at careful
      split_ifs at step
      · cases step
        exact fun row stored => (sound row stored).same rfl rfl rfl
      · cases step
        intro row stored
        cases is : s.model with
        | none => simp [Store.ending, Store.storePatch, is] at stored
        | some current =>
          simp only [is, Option.any_some, decide_eq_false_iff_not, not_not] at careful
          simp only [Store.ending, Store.storePatch, is, Option.some.injEq, ← careful] at stored ⊢
          subst stored
          have same : (if current.phaseInfo.update body = current.phaseInfo then current.phaseInfo
              else current.phaseInfo.update body) = current.phaseInfo.update body := by
            split_ifs with unchanged
            · exact unchanged.symm
            · rfl
          rw [same]
          exact ((sound current is).patch body).same rfl rfl rfl
    · next sent read found =>
      cases step
      simp only [found, Option.isSome_eq_false_iff, Option.isNone_iff_eq_none] at careful
      subst careful
      intro row stored
      have unwritten : s.storePut read none = s := by
        unfold Store.storePut
        cases s.model <;> rfl
      rw [unwritten] at stored ⊢
      exact (sound row stored).same rfl rfl rfl
    · cases step
      exact nofun
    · cases step

/-- In every run in which each upload commits the version after the greatest one and each patch the
phase info that is stored, no update sending one, the model is kept as long as it is there. -/
theorem model_kept {trace : List (Runs.Step Store Act)}
    (run : Runs.Run Store.Step { model := some { phaseInfo := registered } } trace s)
    (careful : ∀ t ∈ trace, t.before.lapses t.label = false) :
    ∀ row, s.model = some row → s.Kept registered row := by
  refine run.invariant_of_guarded (Store.Sound registered) (fun s label => s.lapses label = false) ?_
    (fun _ _ _ sound careful step => sound.step step careful) careful
  rintro _ ⟨⟩
  refine ⟨rfl, rfl, nofun, nofun, rfl, ?_⟩
  intro i sent found
  cases found

def newModel : Store := { model := some {} }

def nextStore : Store → Act → Store := Runs.nextOf Store.act

def inTurn : List Act :=
  [.load (.upload "a.zip".toList "A".toList), .count 0, .commit 0,
    .load (.upload "b.zip".toList "B".toList), .count 1, .commit 1,
    .load (.patch { phase := some "TRAINED".toList, dataSources := some "d1".toList }), .commit 2,
    .load (.patch { baseModelId := some "m0".toList }), .commit 3]

theorem in_turn_kept : ∃ row, (inTurn.foldl nextStore newModel).model = some row ∧
    (inTurn.foldl nextStore newModel).Kept {} row := by
  have run : Runs.Run Store.Step newModel (Runs.stepsOf nextStore newModel inTurn)
      (inTurn.foldl nextStore newModel) := Runs.run_enabled (by decide +kernel)
  exact ⟨_, rfl, model_kept run (by decide +kernel) _ rfl⟩

/-- Two uploads that count the artifacts before either commits, and two patches that read the row. -/
def overlapping : List Act :=
  [.load (.upload "a.zip".toList "A".toList), .load (.upload "b.zip".toList "B".toList),
    .count 0, .count 1, .commit 0, .commit 1,
    .load (.patch { phase := some "TRAINED".toList, dataSources := some "d1".toList }),
    .load (.patch { phase := some "TRAINED".toList, baseModelId := some "m0".toList }),
    .commit 2, .commit 3]

/-- Both uploads are version 1, the second one's bytes are not what a download serves, and the first
patch's training field is lost. -/
theorem overlapping_lost :
    Runs.Run Store.Step newModel (Runs.stepsOf nextStore newModel overlapping)
      (overlapping.foldl nextStore newModel) ∧
    (overlapping.foldl nextStore newModel).artifacts.map Artifact.version = [1, 1] ∧
    (overlapping.foldl nextStore newModel).served 1 = some ⟨1, "a.zip".toList, "A".toList⟩ ∧
    ⟨1, "b.zip".toList, "B".toList⟩ ∈ (overlapping.foldl nextStore newModel).told ∧
    (overlapping.foldl nextStore newModel).model.map (·.phaseInfo.dataSources) = some none :=
  ⟨Runs.run_enabled (by decide +kernel), by decide +kernel, by decide +kernel, by decide +kernel,
    by decide +kernel⟩

end Writers

end Smo.Mlmr
