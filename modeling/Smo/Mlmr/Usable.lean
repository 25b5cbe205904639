import Mathlib.Algebra.Group.Nat.Defs
import Smo.Mlmr.Discovery

/-! Discovery answers with exactly the models that the caller may use and that match, and what it and
a download answer says nothing of the others, as long as every period of a stored model ends at a
date that can be computed. -/
namespace Smo.Mlmr

def Datable (m : Model) (seconds : Nat) : Prop :=
  seconds < maxSeconds ∧ m.registeredAt + seconds * second ≤ maxInstant

structure Model.Dated (m : Model) : Prop where
  duration : ∀ reqs, m.storeDiscReqs = some reqs → ∀ seconds, reqs.duration = some seconds →
    Datable m seconds
  timePeriod : ∀ reqs, m.storeDiscReqs = some reqs → ∀ access, reqs.accessReqs = some access →
    ∀ seconds, access.timePeriod = some seconds → Datable m seconds

def Expired (now : Nat) (m : Model) : Prop :=
  ∃ reqs, m.storeDiscReqs = some reqs ∧ ∃ seconds, reqs.duration = some seconds ∧
    m.registeredAt + seconds * second < now

def Admits (now : Nat) (m : Model) (caller : Option Str) : Prop :=
  ∀ reqs, m.storeDiscReqs = some reqs → ∀ access, reqs.accessReqs = some access →
    (∀ seconds, access.timePeriod = some seconds → now ≤ m.registeredAt + seconds * second) ∧
      (access.accessReq = .publiclyAvailable ∨
        ∃ id, caller = some id ∧ (m.owner = some id ∨ access.accessReq = .restricted ∧
          (id ∈ access.valServerIds ∨ id ∈ access.valClientIds)))

def Usable (now : Nat) (caller : Option Str) (m : Model) : Prop :=
  ¬ Expired now m ∧ Admits now m caller

section Rules

variable {now : Nat} {m : Model} {caller : Option Str}

theorem passed_dated {period : Option Nat} (dated : ∀ seconds, period = some seconds → Datable m seconds) :
    ∃ past, passed now m period = .ok past ∧
      (past = true ↔ ∃ seconds, period = some seconds ∧ m.registeredAt + seconds * second < now) := by
  cases period with
  | none => exact ⟨false, rfl, by simp⟩
  | some seconds =>
    obtain ⟨small, early⟩ := dated seconds rfl
    refine ⟨decide (m.registeredAt + seconds * second < now), ?_, by simp⟩
    rw [passed, deadline, if_neg (Nat.not_le.mpr small), if_neg (Nat.not_lt.mpr early)]
    rfl

theorem isExpired_dated (dated : m.Dated) :
    ∃ past, isExpired now m = .ok past ∧ (past = true ↔ Expired now m) := by
  unfold isExpired Expired
  cases is : m.storeDiscReqs with
  | none => exact ⟨false, rfl, by simp⟩
  | some reqs =>
    obtain ⟨past, computed, means⟩ := @passed_dated now m reqs.duration (dated.duration reqs is)
    exact ⟨past, computed, by simpa using means⟩

theorem accessDenied_dated (dated : m.Dated) :
    ∃ reason, accessDenied now m caller = .ok reason ∧ (reason = none ↔ Admits now m caller) := by
  unfold accessDenied Admits
  cases is : m.storeDiscReqs with
  | none => exact ⟨none, rfl, by simp⟩
  | some reqs =>
    cases has : reqs.accessReqs with
    | none => exact ⟨none, by simp [has], by simp [has]⟩
    | some access =>
      obtain ⟨past, computed, means⟩ :=
        @passed_dated now m access.timePeriod (dated.timePeriod reqs is access has)
      simp only [Option.bind_some, has, computed, Option.some.injEq, forall_eq']
      cases past with
      | true =>
        obtain ⟨seconds, period, late⟩ := means.mp rfl
        refine ⟨_, rfl, ⟨nofun, fun admits => ?_⟩⟩
        have early := admits.1 seconds period
        omega
      | false =>
        have within : ∀ seconds, access.timePeriod = some seconds →
            now ≤ m.registeredAt + seconds * second := by
          intro seconds period
          by_contra late
          exact absurd (means.mpr ⟨seconds, period, Nat.not_le.mp late⟩) (by decide)
        cases kind : access.accessReq with
        | publiclyAvailable => exact ⟨none, rfl, fun _ => ⟨within, .inl rfl⟩, fun _ => rfl⟩
        | privateUseOnly =>
          refine ⟨_, rfl, ?_⟩
          cases caller with
          | none => simp
          | some id =>
            by_cases own : m.owner = some id
            · simpa [own] using within
            · have other : (some id == m.owner) = false := by simpa using fun is => own is.symm
              simp [own, other]
        | restricted =>
          refine ⟨_, rfl, ?_⟩
          cases caller with
          | none => simp
          | some id =>
            by_cases own : m.owner = some id
            · simpa [own] using within
            · have other : (some id == m.owner) = false := by simpa using fun is => own is.symm
              by_cases listed : id ∈ access.valServerIds ∨ id ∈ access.valClientIds
              · simpa [own, other, listed] using within
              · simp [own, other, listed]

end Rules

section Answers

open Classical

variable {size : Artifact → Str} {now : Nat} {registry registry' : Registry} {query : Query}
  {caller : Option Str}

noncomputable def Registry.usable (registry : Registry) (now : Nat) (caller : Option Str) : List Model :=
  registry.models.filter fun m => Usable now caller m

noncomputable def Registry.page (size : Artifact → Str) (now : Nat) (registry : Registry) (query : Query) :
    List Model :=
  (((registry.usable now query.caller).filter fun m =>
    subsetMatch (.dict query.criteria) (.dict (modelInfoView size m))).drop query.offset).take query.limit

theorem matching_dated {models : List Model} (dated : ∀ m ∈ models, m.Dated) :
    matching size now query models = .ok ((models.filter fun m => Usable now query.caller m).filter fun m =>
      subsetMatch (.dict query.criteria) (.dict (modelInfoView size m))) := by
  induction models with
  | nil => rfl
  | cons m rest ih =>
    obtain ⟨here, others⟩ := List.forall_mem_cons.mp dated
    obtain ⟨past, expired, means⟩ := @isExpired_dated now m here
    obtain ⟨reason, denied, admits⟩ := @accessDenied_dated now m query.caller here
    have later := ih others
    rw [matching, expired]
    by_cases old : Expired now m
    · have unusable : ¬ Usable now query.caller m := fun usable => usable.1 old
      rw [means.mpr old, List.filter_cons_of_neg (by simpa using unusable), ← later]
      rfl
    · have fresh : past = false := Bool.eq_false_iff.mpr fun is => old (means.mp is)
      rw [fresh]
      by_cases admitted : Admits now m query.caller
      · have usable : Usable now query.caller m := ⟨old, admitted⟩
        rw [admits.mpr admitted] at denied
        rw [denied, List.filter_cons_of_pos (by simpa using usable), List.filter_cons, later]
        simp only [Bind.bind, Except.bind, Option.isSome_none, Bool.false_eq_true, if_false]
        split <;> rfl
      · have unusable : ¬ Usable now query.caller m := fun usable => admitted usable.2
        obtain ⟨why, is⟩ := Option.ne_none_iff_exists'.mp fun none => admitted (admits.mp none)
        rw [denied, is, List.filter_cons_of_neg (by simpa using unusable), ← later]
        rfl

theorem discover_dated (dated : ∀ m ∈ registry.models, m.Dated) :
    discover size now registry query =
      if registry.page size now query = [] then .error .modelNotFound
      else .ok ((registry.page size now query).map (entryOf size query.includeModels)) := by
  rw [discover, matching_dated dated]
  simp only [Bind.bind, Except.bind, List.isEmpty_iff]
  change (if registry.page size now query = [] then _ else _) = _
  split <;> rfl

theorem find_of_mem {m : Model} (mem : m ∈ registry.models) :
    registry.models.find? (fun other => other.modelId = m.modelId) = some m := by
  have distinct := registry.distinct
  generalize registry.models = models at mem distinct
  induction models with
  | nil => cases mem
  | cons other rest ih =>
    rw [List.map_cons, List.nodup_cons] at distinct
    rcases List.mem_cons.mp mem with rfl | later
    · simp
    · have differ : other.modelId ≠ m.modelId := fun same =>
        distinct.1 (same ▸ List.mem_map_of_mem later)
      rw [List.find?_cons_of_neg (by simpa using differ)]
      exact ih later distinct.2

theorem requireUsable_dated {m : Model} (dated : m.Dated) :
    requireUsable now m caller = .ok () ↔ Usable now caller m := by
  obtain ⟨past, expired, means⟩ := @isExpired_dated now m dated
  obtain ⟨reason, denied, admits⟩ := @accessDenied_dated now m caller dated
  rw [requireUsable, expired, denied, Usable, ← means, ← admits]
  cases past <;> cases reason <;> simp [Bind.bind, Except.bind, pure, Except.pure, throw, throwThe,
    MonadExceptOf.throw]

theorem download_found {modelId version : Nat} {m : Model}
    (found : registry.models.find? (fun m => m.modelId = modelId) = some m) :
    downloadModelArtifact now registry caller modelId version = (do
      requireUsable now m caller
      match m.artifacts.find? fun artifact => artifact.version = version with
      | some artifact => return artifact
      | none => throw .artifactVersionNotFound) := by
  rw [downloadModelArtifact, found]
  rfl

theorem download_dated (dated : ∀ m ∈ registry.models, m.Dated) (modelId version : Nat)
    (artifact : Artifact) :
    downloadModelArtifact now registry caller modelId version = .ok artifact ↔
      ∃ m ∈ registry.usable now caller, m.modelId = modelId ∧
        m.artifacts.find? (fun artifact => artifact.version = version) = some artifact := by
  constructor
  · intro served
    cases found : registry.models.find? fun m => m.modelId = modelId with
    | none =>
      rw [downloadModelArtifact, found] at served
      cases served
    | some m =>
      have mem := List.mem_of_find?_eq_some found
      have is : m.modelId = modelId := by simpa using List.find?_some found
      rw [download_found found] at served
      cases allowed : requireUsable now m caller with
      | error problem =>
        rw [allowed] at served
        cases served
      | ok done =>
        refine ⟨m, List.mem_filter.mpr ⟨mem, ?_⟩, is, ?_⟩
        · simpa using (requireUsable_dated (dated m mem)).mp allowed
        · simp only [allowed, Bind.bind, Except.bind] at served
          split at served
          · next stored =>
            cases served
            exact stored
          · cases served
  · rintro ⟨m, mem, rfl, stored⟩
    obtain ⟨mem, usable⟩ := List.mem_filter.mp mem
    have allowed := (requireUsable_dated (dated m mem)).mpr (by simpa using usable)
    rw [download_found (find_of_mem mem), allowed]
    simp only [Bind.bind, Except.bind, stored]
    rfl

theorem usable_of_same (same : ∀ m, Usable now caller m → (m ∈ registry.models ↔ m ∈ registry'.models)) :
    registry.usable now caller = registry'.usable now caller := by
  have irreflexive : ∀ m m' : Model, m.before m' → m'.before m → m = m' := by
    intro m m' first second
    rcases first with earlier | ⟨_, earlier⟩ <;> rcases second with later | ⟨_, later⟩ <;> omega
  have distinct : ∀ registry : Registry, (registry.usable now caller).Nodup := by
    intro registry
    have apart : registry.models.Nodup :=
      (List.pairwise_map.mp registry.distinct).imp fun differ same => differ (congrArg _ same)
    exact apart.filter _
  refine List.Perm.eq_of_pairwise (fun a b _ _ => irreflexive a b) (registry.ordered.filter _)
    (registry'.ordered.filter _) ((List.perm_ext_iff_of_nodup (distinct _) (distinct _)).mpr fun m => ?_)
  simp only [Registry.usable, List.mem_filter, decide_eq_true_eq]
  exact and_congr_left (same m)

/-- Discovery is exact, download serves exactly the callers that the rules admit, and neither
discovery nor what download serves depends on models that the caller may not use. -/
theorem answers_for_the_caller (dated : ∀ m ∈ registry.models, m.Dated)
    (dated' : ∀ m ∈ registry'.models, m.Dated)
    (same : ∀ m, Usable now query.caller m → (m ∈ registry.models ↔ m ∈ registry'.models)) :
    (discover size now registry query =
        if registry.page size now query = [] then .error .modelNotFound
        else .ok ((registry.page size now query).map (entryOf size query.includeModels))) ∧
      (∀ modelId version artifact,
        downloadModelArtifact now registry query.caller modelId version = .ok artifact ↔
          ∃ m ∈ registry.usable now query.caller, m.modelId = modelId ∧
            m.artifacts.find? (fun artifact => artifact.version = version) = some artifact) ∧
      discover size now registry query = discover size now registry' query ∧
      ∀ modelId version artifact,
        downloadModelArtifact now registry query.caller modelId version = .ok artifact ↔
          downloadModelArtifact now registry' query.caller modelId version = .ok artifact := by
  have usable := usable_of_same same
  refine ⟨discover_dated dated, download_dated dated, ?_, fun modelId version artifact => ?_⟩
  · rw [discover_dated dated, discover_dated dated', Registry.page, Registry.page, usable]
  · rw [download_dated dated, download_dated dated', usable]

end Answers

section Example

def openModel : Model := { modelId := 1, registeredAt := 10 }

def privateModel : Model where
  modelId := 2
  registeredAt := 20
  owner := some "ann".toList
  storeDiscReqs := some
    { duration := none, accessReqs := some { accessReq := .privateUseOnly }, given := .inr nofun }
  artifacts := [⟨1, "m.zip".toList, "bytes".toList⟩]

theorem everlasting_given : (some (10 ^ 15) : Option Nat) ≠ none ∨
    (none : Option AccessReqs) ≠ none :=
  .inl (Option.some_ne_none _)

def everlastingModel : Model where
  modelId := 3
  registeredAt := 30
  storeDiscReqs := some { duration := some (10 ^ 15), accessReqs := none, given := everlasting_given }

def one : Registry := ⟨[openModel], by simp, by simp⟩

def two : Registry := ⟨[openModel, privateModel], by simp [Model.before, openModel, privateModel], by decide⟩

def spoilt : Registry :=
  ⟨[openModel, everlastingModel], by simp [Model.before, openModel, everlastingModel], by decide⟩

def everything (caller : Option Str) : Query := { criteria := [], caller, limit := 10, offset := 0 }

theorem private_hidden : ∀ m, Usable 40 none m → (m ∈ one.models ↔ m ∈ two.models) := by
  intro m usable
  have other : m ≠ privateModel := by
    rintro rfl
    obtain ⟨-, kind⟩ := usable.2 _ rfl _ rfl
    simp at kind
  simp [one, two, other]

/-- A caller without an id finds the open model, with and without the private one. -/
theorem private_model_unnoticed :
    discover (fun _ => []) 40 one (everything none) = discover (fun _ => []) 40 two (everything none) ∧
      discover (fun _ => []) 40 one (everything none) =
        .ok [.profile none (modelInfoView (fun _ => []) openModel)] := by
  have dated : ∀ m ∈ two.models, m.Dated := by
    intro m mem
    rcases List.mem_cons.mp mem with rfl | mem
    · exact ⟨nofun, nofun⟩
    · obtain rfl := List.mem_singleton.mp mem
      refine ⟨fun reqs is seconds given => ?_, fun reqs is access has seconds given => ?_⟩ <;>
        cases is
      · cases given
      · cases has
        cases given
  have dated' : ∀ m ∈ one.models, m.Dated := fun m mem => dated m (List.mem_cons.mpr (.inl (by simpa [one] using mem)))
  exact ⟨(answers_for_the_caller dated' dated private_hidden).2.2.1, rfl⟩

/-- The refusal tells a model that is hidden from one that is not there, and a model with a
duration past every date makes each discovery fail. -/
theorem hidden_model_told :
    downloadModelArtifact 40 one none 2 1 = .error .artifactVersionNotFound ∧
      downloadModelArtifact 40 two none 2 1 =
        .error (.modelAccessDenied "the model is for private use only") ∧
      discover (fun _ => []) 40 spoilt (everything none) = .error .overflowError :=
  ⟨rfl, rfl, rfl⟩

end Example

end Smo.Mlmr
