import Mathlib.Data.List.Forall2

/-! The error catalogue of the services (`smo_shared/errors.py`), as far as the
modelled routes raise it. -/
namespace Smo

inductive FrameworkError where
  | schemaValidationFailed | msacAccessDenied | o1ServiceNotSupported | lifecycleIllegalTransition
  | serviceNameConflict | softwareJobNotFound | softwareCampaignNotFound | rollbackNotPossible
  | wavePauseNotElapsed | scopeDenied | configJobNotFound | kpiNotFound | rappRateLimited
  | rappKilled | rappBlastRadiusExceeded | rappMagnitudeExceeded | rappKillNotFound
  | approvalNotFound | approvalNotPending | approvalSelfDecision | roleNotPermitted
  | configChangedSince | changeWindowClosed | changeWindowNotOpen | approvalAlreadyGiven
  | approverIdentityRequired | approverIdentityMismatch
  | rmihCapabilityMismatch | intentHandlingFunctionNotFound | intentNotFound
  | rappInstanceNotFound | autonomyDispatchNotFound | autonomyDispatchNotAwaitingScope
  | nrmObjectNotFound
  | invokerNotRegistered | enrollmentNotConfigured | enrollmentRefused | authzScopeInvalid
  | securityContextInvalid | endpointUnreachable | packageNotFound | modelNotCertified
  | rappUpgradeTimedOut | rollbackHistoryUnavailable | rappInstanceNotUndeployed
  | notThisInstance | approvalPolicyNeedsAssist
  | dmeTypeNotOwner | dmeTypeNotFound | dmeTypeHasActiveProducers | deliveryMethodNotOffered
  | digitalTwinInferenceNotEligible | dataJobNotFound | dataJobTargetImmutable
  | referencedResourceNotFound | resourceAlreadyExists | constraintViolated
  | modelNotFound | coordinationGroupMismatch | trainingJobNotFound | trainingJobIllegalTransition
  | validationJobNotFound | emulationJobNotFound | trainingNotApproved | validationNotApproved
  | governanceDeciderRequired | inferenceModelNotActive | inferenceFunctionNotActivated
  | modelNotLoaded
  deriving DecidableEq, Repr

namespace FrameworkError

def problem : FrameworkError → String × Nat
  | schemaValidationFailed => ("SCHEMA_VALIDATION_FAILED", 422)
  | msacAccessDenied => ("MSAC_ACCESS_DENIED", 403)
  | o1ServiceNotSupported => ("O1_SERVICE_NOT_SUPPORTED", 409)
  | lifecycleIllegalTransition => ("LIFECYCLE_ILLEGAL_TRANSITION", 409)
  | serviceNameConflict => ("SERVICE_NAME_CONFLICT", 409)
  | softwareJobNotFound => ("SOFTWARE_JOB_NOT_FOUND", 404)
  | softwareCampaignNotFound => ("SOFTWARE_CAMPAIGN_NOT_FOUND", 404)
  | rollbackNotPossible => ("ROLLBACK_NOT_POSSIBLE", 422)
  | wavePauseNotElapsed => ("WAVE_PAUSE_NOT_ELAPSED", 409)
  | scopeDenied => ("SCOPE_DENIED", 403)
  | configJobNotFound => ("CONFIG_JOB_NOT_FOUND", 404)
  | kpiNotFound => ("KPI_NOT_FOUND", 404)
  | rappRateLimited => ("RAPP_RATE_LIMITED", 429)
  | rappKilled => ("RAPP_KILLED", 403)
  | rappBlastRadiusExceeded => ("RAPP_BLAST_RADIUS_EXCEEDED", 403)
  | rappMagnitudeExceeded => ("RAPP_MAGNITUDE_EXCEEDED", 403)
  | rappKillNotFound => ("RAPP_KILL_NOT_FOUND", 404)
  | approvalNotFound => ("APPROVAL_NOT_FOUND", 404)
  | approvalNotPending => ("APPROVAL_NOT_PENDING", 409)
  | approvalSelfDecision => ("APPROVAL_SELF_DECISION", 403)
  | roleNotPermitted => ("ROLE_NOT_PERMITTED", 403)
  | configChangedSince => ("CONFIG_CHANGED_SINCE", 409)
  | changeWindowClosed => ("CHANGE_WINDOW_CLOSED", 409)
  | changeWindowNotOpen => ("CHANGE_WINDOW_NOT_OPEN", 409)
  | approvalAlreadyGiven => ("APPROVAL_ALREADY_GIVEN", 409)
  | approverIdentityRequired => ("APPROVER_IDENTITY_REQUIRED", 403)
  | approverIdentityMismatch => ("APPROVER_IDENTITY_MISMATCH", 403)
  | rmihCapabilityMismatch => ("RMIH_CAPABILITY_MISMATCH", 422)
  | intentHandlingFunctionNotFound => ("INTENT_HANDLING_FUNCTION_NOT_FOUND", 404)
  | intentNotFound => ("INTENT_NOT_FOUND", 404)
  | rappInstanceNotFound => ("RAPP_INSTANCE_NOT_FOUND", 404)
  | autonomyDispatchNotFound => ("AUTONOMY_DISPATCH_NOT_FOUND", 404)
  | autonomyDispatchNotAwaitingScope => ("AUTONOMY_DISPATCH_NOT_AWAITING_SCOPE", 409)
  | nrmObjectNotFound => ("NRM_OBJECT_NOT_FOUND", 404)
  | invokerNotRegistered => ("INVOKER_NOT_REGISTERED", 400)
  | enrollmentNotConfigured => ("ENROLLMENT_NOT_CONFIGURED", 503)
  | enrollmentRefused => ("ENROLLMENT_REFUSED", 403)
  | authzScopeInvalid => ("AUTHZ_SCOPE_INVALID", 422)
  | securityContextInvalid => ("SECURITY_CONTEXT_INVALID", 422)
  | endpointUnreachable => ("ENDPOINT_UNREACHABLE", 503)
  | packageNotFound => ("PACKAGE_NOT_FOUND", 404)
  | modelNotCertified => ("MODEL_NOT_CERTIFIED", 409)
  | rappUpgradeTimedOut => ("RAPP_UPGRADE_TIMED_OUT", 409)
  | rollbackHistoryUnavailable => ("ROLLBACK_HISTORY_UNAVAILABLE", 409)
  | rappInstanceNotUndeployed => ("RAPP_INSTANCE_NOT_UNDEPLOYED", 409)
  | notThisInstance => ("NOT_THIS_INSTANCE", 403)
  | approvalPolicyNeedsAssist => ("APPROVAL_POLICY_NEEDS_ASSIST", 422)
  | dmeTypeNotOwner => ("DME_TYPE_NOT_OWNER", 403)
  | dmeTypeNotFound => ("DME_TYPE_NOT_FOUND", 404)
  | dmeTypeHasActiveProducers => ("DME_TYPE_HAS_ACTIVE_PRODUCERS", 409)
  | deliveryMethodNotOffered => ("DELIVERY_METHOD_NOT_OFFERED", 409)
  | digitalTwinInferenceNotEligible => ("DIGITAL_TWIN_INFERENCE_NOT_ELIGIBLE", 422)
  | dataJobNotFound => ("DATA_JOB_NOT_FOUND", 404)
  | dataJobTargetImmutable => ("DATA_JOB_TARGET_IMMUTABLE", 400)
  | referencedResourceNotFound => ("REFERENCED_RESOURCE_NOT_FOUND", 422)
  | resourceAlreadyExists => ("RESOURCE_ALREADY_EXISTS", 409)
  | constraintViolated => ("CONSTRAINT_VIOLATED", 422)
  | modelNotFound => ("MODEL_NOT_FOUND", 404)
  | coordinationGroupMismatch => ("COORDINATION_GROUP_MISMATCH", 422)
  | trainingJobNotFound => ("TRAINING_JOB_NOT_FOUND", 404)
  | trainingJobIllegalTransition => ("TRAINING_JOB_ILLEGAL_TRANSITION", 409)
  | validationJobNotFound => ("VALIDATION_JOB_NOT_FOUND", 404)
  | emulationJobNotFound => ("EMULATION_JOB_NOT_FOUND", 404)
  | trainingNotApproved => ("TRAINING_NOT_APPROVED", 409)
  | validationNotApproved => ("VALIDATION_NOT_APPROVED", 409)
  | governanceDeciderRequired => ("GOVERNANCE_DECIDER_REQUIRED", 422)
  | inferenceModelNotActive => ("INFERENCE_MODEL_NOT_ACTIVE", 409)
  | inferenceFunctionNotActivated => ("INFERENCE_FUNCTION_NOT_ACTIVATED", 409)
  | modelNotLoaded => ("MODEL_NOT_LOADED", 409)

def code (error : FrameworkError) : String := error.problem.1

end FrameworkError

/-- An error answer: the code and the text of `framework_error`. -/
structure Problem where
  error : FrameworkError
  detail : String
  deriving DecidableEq, Repr

variable {ε α β : Type}

theorem bind_ok {first : Except ε α} {next : α → Except ε β} {result : β}
    (h : (first >>= next) = .ok result) : ∃ value, first = .ok value ∧ next value = .ok result := by
  cases first with
  | error error => cases h
  | ok value => exact ⟨value, rfl, h⟩

theorem bind_error {first : Except ε α} {next : α → Except ε β} {error : ε}
    (h : (first >>= next) = .error error) :
    first = .error error ∨ ∃ value, first = .ok value ∧ next value = .error error := by
  cases first with
  | error error =>
    cases h
    exact .inl rfl
  | ok value => exact .inr ⟨value, rfl, h⟩

theorem map_ok {f : α → β} {first : Except ε α} {result : β} (h : f <$> first = .ok result) :
    ∃ value, first = .ok value ∧ result = f value := by
  cases first with
  | error error => cases h
  | ok value =>
    cases h
    exact ⟨value, rfl, rfl⟩

theorem mapM_ok {f : α → Except ε β} {items : List α} {results : List β}
    (h : items.mapM f = .ok results) :
    List.Forall₂ (fun item result => f item = .ok result) items results := by
  induction items generalizing results with
  | nil =>
    cases h
    exact .nil
  | cons item items ih =>
    rw [List.mapM_cons] at h
    obtain ⟨first, one, h⟩ := bind_ok h
    obtain ⟨later, others, h⟩ := bind_ok h
    cases h
    exact .cons one (ih others)

theorem mapM_isOk {f : α → Except ε β} {items : List α}
    (h : ∀ item ∈ items, ∃ result, f item = .ok result) :
    ∃ results, items.mapM f = .ok results := by
  induction items with
  | nil => exact ⟨[], rfl⟩
  | cons item items ih =>
    obtain ⟨first, one⟩ := h item List.mem_cons_self
    obtain ⟨later, others⟩ := ih fun item mem => h item (List.mem_cons_of_mem _ mem)
    exact ⟨first :: later, by rw [List.mapM_cons, one, others]; rfl⟩

theorem mapM_eq_map {f : α → Except ε β} {g : α → β} {items : List α}
    (each : ∀ item ∈ items, f item = .ok (g item)) : items.mapM f = .ok (items.map g) := by
  induction items with
  | nil => rfl
  | cons item items ih =>
    rw [List.mapM_cons, each item List.mem_cons_self,
      ih fun item mem => each item (List.mem_cons_of_mem _ mem)]
    rfl

theorem mapM_error_iff {f : α → Except ε β} {items : List α} {error : ε} :
    items.mapM f = .error error ↔ ∃ before item after, items = before ++ item :: after ∧
      (∀ earlier ∈ before, ∃ result, f earlier = .ok result) ∧ f item = .error error := by
  induction items with
  | nil => simp [pure, Except.pure]
  | cons item items ih =>
    rw [List.mapM_cons]
    cases one : f item with
    | error error' =>
      constructor
      · rintro ⟨⟩
        exact ⟨[], item, items, rfl, nofun, one⟩
      · rintro ⟨before, first, after, split, earlier, failed⟩
        cases before with
        | nil =>
          obtain ⟨rfl, rfl⟩ := List.cons.inj split
          cases one.symm.trans failed
          rfl
        | cons other before =>
          obtain ⟨rfl, -⟩ := List.cons.inj split
          obtain ⟨result, ok⟩ := earlier _ List.mem_cons_self
          cases one.symm.trans ok
    | ok result =>
      have rest : (Except.ok result >>= fun first => do
          let later ← items.mapM f
          pure (first :: later) : Except ε (List β)) = .error error ↔
          items.mapM f = .error error := by
        cases items.mapM f <;> simp [bind, Except.bind, pure, Except.pure]
      rw [rest, ih]
      constructor
      · rintro ⟨before, failing, after, rfl, earlier, failed⟩
        refine ⟨item :: before, failing, after, rfl, ?_, failed⟩
        rintro first (_ | ⟨_, mem⟩)
        · exact ⟨result, one⟩
        · exact earlier first mem
      · rintro ⟨before, failing, after, split, earlier, failed⟩
        cases before with
        | nil =>
          obtain ⟨rfl, rfl⟩ := List.cons.inj split
          cases one.symm.trans failed
        | cons other before =>
          obtain ⟨rfl, rfl⟩ := List.cons.inj split
          exact ⟨before, failing, after, rfl,
            fun first mem => earlier first (List.mem_cons_of_mem _ mem), failed⟩

theorem mapM_ok_mem {f : α → Except ε β} {items : List α} {results : List β} {item : α}
    (h : items.mapM f = .ok results) (mem : item ∈ items) :
    ∃ result ∈ results, f item = .ok result := by
  have each := mapM_ok h
  clear h
  induction each with
  | nil => cases mem
  | cons one _ ih =>
    rcases List.mem_cons.mp mem with rfl | later
    · exact ⟨_, List.mem_cons_self, one⟩
    · obtain ⟨result, there, ok⟩ := ih later
      exact ⟨result, List.mem_cons_of_mem _ there, ok⟩

end Smo
