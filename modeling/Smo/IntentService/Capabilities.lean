import Smo.IntentService.Intents

/-! Which intents a handling function takes: what its declared capabilities say, and what the capability
and feasibility checks of a new intent make of them. -/
namespace Smo.IntentService

open Json (Text)

def Accepts (fn : IntentHandlingFunction) (expectations : List (IntentExpectation Text)) : Prop :=
  validateRmihCanHandle fn (requestedExpectationObjectTypes expectations) none = .ok () ∧
    feasibility fn expectations = []

def SupportedExpectationTargetInfo.Takes (entry : SupportedExpectationTargetInfo)
    (target : ExpectationTarget) : Prop :=
  entry.supportedTargetName = target.targetName ∧
    ∀ condition, entry.supportedTargetCondition = some condition → condition = target.targetCondition

def EachTarget (expectations : List (IntentExpectation Text))
    (holds : ObjectType → ExpectationTarget → Prop) : Prop :=
  ∀ exp ∈ expectations, ∀ objectType, exp.expectationObject.objectType = some objectType →
    ∀ target ∈ exp.expectationTargets, holds objectType target

def Declared (fn : IntentHandlingFunction) (objectType : ObjectType) (target : ExpectationTarget) :
    Prop :=
  ∃ cap ∈ fn.intentHandlingCapabilityList, cap.supportedExpectationObjectType = objectType ∧
    ∃ entry ∈ cap.supportedExpectationTargetInfoList, entry.Takes target

/-- Every capability of the type lists the target, in each of its entries for the name. -/
def DeclaredAlike (fn : IntentHandlingFunction) (objectType : ObjectType)
    (target : ExpectationTarget) : Prop :=
  ∀ cap ∈ fn.intentHandlingCapabilityList, cap.supportedExpectationObjectType = objectType →
    (∃ entry ∈ cap.supportedExpectationTargetInfoList,
      entry.supportedTargetName = target.targetName) ∧
    ∀ entry ∈ cap.supportedExpectationTargetInfoList,
      entry.supportedTargetName = target.targetName → entry.Takes target

def Reordered (fn fn' : IntentHandlingFunction) : Prop :=
  ∃ caps, caps.Perm fn'.intentHandlingCapabilityList ∧
    List.Forall₂ (fun cap cap' : IntentHandlingCapability =>
      cap.supportedExpectationObjectType = cap'.supportedExpectationObjectType ∧
        cap.supportedExpectationTargetInfoList.Perm cap'.supportedExpectationTargetInfoList)
      fn.intentHandlingCapabilityList caps

section Checks

variable {fn fn' : IntentHandlingFunction} {expectations : List (IntentExpectation Text)}
  {objectType : ObjectType} {target : ExpectationTarget}
  {supported : List SupportedExpectationTargetInfo}

theorem infeasibleTarget_false : infeasibleTarget supported target = false ↔
    ∃ entry, supported.reverse.find? (·.supportedTargetName = target.targetName) = some entry ∧
      entry.Takes target := by
  unfold infeasibleTarget
  cases found : supported.reverse.find? (·.supportedTargetName = target.targetName) with
  | none => simp
  | some entry =>
    have named : entry.supportedTargetName = target.targetName := by
      simpa using List.find?_some found
    cases condition : entry.supportedTargetCondition with
    | none => simp [SupportedExpectationTargetInfo.Takes, named, condition]
    | some own => simp [SupportedExpectationTargetInfo.Takes, named, condition]

theorem validate_ok : validateRmihCanHandle fn (requestedExpectationObjectTypes expectations) none
      = .ok () ↔ ∀ exp ∈ expectations, ∀ objectType,
        exp.expectationObject.objectType = some objectType →
          ∃ cap ∈ fn.intentHandlingCapabilityList, cap.supportedExpectationObjectType = objectType := by
  have asked : validateRmihCanHandle fn (requestedExpectationObjectTypes expectations) none = .ok () ↔
      ∀ objectType ∈ requestedExpectationObjectTypes expectations,
        objectType ∈ fn.intentHandlingCapabilityList.map (·.supportedExpectationObjectType) := by
    unfold validateRmihCanHandle refuse
    simp only [Option.any_none, Bool.false_eq_true, and_false, if_false]
    split_ifs with missing
    · refine iff_of_false (by simp) fun all => ?_
      obtain ⟨objectType, mem, absent⟩ := List.any_eq_true.mp missing
      simp [all objectType mem] at absent
    · refine iff_of_true rfl fun objectType mem => ?_
      by_contra absent
      exact missing (List.any_eq_true.mpr ⟨objectType, mem, by simpa using absent⟩)
  rw [asked]
  simp only [requestedExpectationObjectTypes, List.mem_filterMap, List.mem_map]
  constructor
  · intro all exp mem objectType is
    exact all objectType ⟨exp, mem, is⟩
  · rintro all objectType ⟨exp, mem, is⟩
    exact all exp mem objectType is

theorem supportedTargets_none : supportedTargets fn none = none := by
  rw [supportedTargets, List.find?_eq_none.mpr (fun _ _ => by simp)]
  rfl

theorem feasibility_nil : feasibility fn expectations = [] ↔ EachTarget expectations
    fun objectType target => ∀ supported, supportedTargets fn (some objectType) = some supported →
      infeasibleTarget supported target = false := by
  rw [feasibility, List.filterMap_eq_nil_iff]
  refine forall₂_congr fun exp _ => ?_
  cases named : exp.expectationObject.objectType with
  | none =>
    have skipped : supportedTargets fn none = none := supportedTargets_none
    simp [skipped]
  | some objectType =>
    cases is : supportedTargets fn (some objectType) with
    | none => simp [is]
    | some supported => simp [is]

theorem accepts_first (accepts : Accepts fn expectations) : EachTarget expectations
    fun objectType target => ∃ cap, fn.intentHandlingCapabilityList.find?
        (fun cap => cap.supportedExpectationObjectType = objectType) = some cap ∧
      infeasibleTarget cap.supportedExpectationTargetInfoList target = false := by
  intro exp mem objectType named target inTargets
  obtain ⟨cap, inCaps, is⟩ := validate_ok.mp accepts.1 exp mem objectType named
  have there : (fn.intentHandlingCapabilityList.find?
      fun cap => decide (cap.supportedExpectationObjectType = objectType)).isSome :=
    List.find?_isSome.mpr ⟨cap, inCaps, by simpa using is⟩
  obtain ⟨first, found⟩ := Option.isSome_iff_exists.mp there
  refine ⟨first, found, feasibility_nil.mp accepts.2 exp mem objectType named target inTargets _ ?_⟩
  simp [supportedTargets, found]

theorem accepts_declared (accepts : Accepts fn expectations) :
    EachTarget expectations (Declared fn) := by
  intro exp mem objectType named target inTargets
  obtain ⟨cap, found, feasible⟩ := accepts_first accepts exp mem objectType named target inTargets
  obtain ⟨entry, last, takes⟩ := infeasibleTarget_false.mp feasible
  exact ⟨cap, List.mem_of_find?_eq_some found, by simpa using List.find?_some found, entry,
    List.mem_reverse.mp (List.mem_of_find?_eq_some last), takes⟩

theorem accepts_alike (targeted : ∀ exp ∈ expectations, exp.expectationTargets ≠ [])
    (declared : EachTarget expectations (Declared fn))
    (alike : EachTarget expectations (DeclaredAlike fn)) : Accepts fn expectations := by
  constructor
  · refine validate_ok.mpr fun exp mem objectType named => ?_
    obtain ⟨target, inTargets⟩ := List.exists_mem_of_ne_nil _ (targeted exp mem)
    obtain ⟨cap, inCaps, is, -⟩ := declared exp mem objectType named target inTargets
    exact ⟨cap, inCaps, is⟩
  · refine feasibility_nil.mpr fun exp mem objectType named target inTargets supported is => ?_
    obtain ⟨cap, found, rfl⟩ := Option.map_eq_some_iff.mp is
    obtain ⟨⟨listed, inList, same⟩, all⟩ := alike exp mem objectType named target inTargets cap
      (List.mem_of_find?_eq_some found) (by simpa using List.find?_some found)
    have there : (cap.supportedExpectationTargetInfoList.reverse.find?
        fun entry => decide (entry.supportedTargetName = target.targetName)).isSome :=
      List.find?_isSome.mpr ⟨listed, List.mem_reverse.mpr inList, by simpa using same⟩
    obtain ⟨entry, last⟩ := Option.isSome_iff_exists.mp there
    have inList' := List.mem_reverse.mp (List.mem_of_find?_eq_some last)
    have same' : entry.supportedTargetName = target.targetName := by simpa using List.find?_some last
    exact infeasibleTarget_false.mpr ⟨entry, last, all entry inList' same'⟩

end Checks

section Orders

variable {fn fn' : IntentHandlingFunction} {expectations : List (IntentExpectation Text)}
  {objectType : ObjectType} {target : ExpectationTarget}

theorem forall₂_mem {α : Type} {related : α → α → Prop} {items items' : List α} {a : α}
    (all : List.Forall₂ related items items') (mem : a ∈ items) : ∃ b ∈ items', related a b := by
  induction all with
  | nil => cases mem
  | cons first _ ih =>
    rcases List.mem_cons.mp mem with rfl | later
    · exact ⟨_, List.mem_cons_self, first⟩
    · obtain ⟨b, there, is⟩ := ih later
      exact ⟨b, List.mem_cons_of_mem _ there, is⟩

theorem Reordered.cap (reordered : Reordered fn fn') :
    (∀ cap ∈ fn.intentHandlingCapabilityList, ∃ cap' ∈ fn'.intentHandlingCapabilityList,
      cap.supportedExpectationObjectType = cap'.supportedExpectationObjectType ∧
        cap.supportedExpectationTargetInfoList.Perm cap'.supportedExpectationTargetInfoList) ∧
    ∀ cap' ∈ fn'.intentHandlingCapabilityList, ∃ cap ∈ fn.intentHandlingCapabilityList,
      cap.supportedExpectationObjectType = cap'.supportedExpectationObjectType ∧
        cap.supportedExpectationTargetInfoList.Perm cap'.supportedExpectationTargetInfoList := by
  obtain ⟨caps, perm, same⟩ := reordered
  constructor
  · intro cap mem
    obtain ⟨cap', there, is⟩ := forall₂_mem same mem
    exact ⟨cap', perm.mem_iff.mp there, is⟩
  · intro cap' mem
    obtain ⟨cap, there, is⟩ := forall₂_mem same.flip (perm.mem_iff.mpr mem)
    exact ⟨cap, there, is⟩

theorem declared_reordered (reordered : Reordered fn fn') :
    Declared fn objectType target ↔ Declared fn' objectType target := by
  constructor
  · rintro ⟨cap, mem, rfl, entry, inList, takes⟩
    obtain ⟨cap', there, is, perm⟩ := reordered.cap.1 cap mem
    exact ⟨cap', there, is.symm, entry, perm.mem_iff.mp inList, takes⟩
  · rintro ⟨cap', mem, rfl, entry, inList, takes⟩
    obtain ⟨cap, there, is, perm⟩ := reordered.cap.2 cap' mem
    exact ⟨cap, there, is, entry, perm.mem_iff.mpr inList, takes⟩

theorem alike_reordered (reordered : Reordered fn fn') (alike : DeclaredAlike fn objectType target) :
    DeclaredAlike fn' objectType target := by
  rintro cap' mem rfl
  obtain ⟨cap, there, is, perm⟩ := reordered.cap.2 cap' mem
  obtain ⟨⟨listed, inList, same⟩, all⟩ := alike cap there is
  exact ⟨⟨listed, perm.mem_iff.mp inList, same⟩, fun entry inList' => all entry (perm.mem_iff.mpr inList')⟩

theorem reordered_front {cap : IntentHandlingCapability} {front back : List IntentHandlingCapability}
    {entries : List SupportedExpectationTargetInfo}
    (split : fn.intentHandlingCapabilityList = front ++ cap :: back)
    (perm : cap.supportedExpectationTargetInfoList.Perm entries) :
    Reordered fn { fn with intentHandlingCapabilityList :=
      { cap with supportedExpectationTargetInfoList := entries } :: (front ++ back) } := by
  refine ⟨front ++ { cap with supportedExpectationTargetInfoList := entries } :: back,
    List.perm_middle, ?_⟩
  rw [split]
  exact List.rel_append (List.forall₂_same.mpr fun _ _ => ⟨rfl, List.Perm.refl _⟩)
    (.cons ⟨rfl, perm⟩ (List.forall₂_same.mpr fun _ _ => ⟨rfl, List.Perm.refl _⟩))

theorem Reordered.symm_declared (reordered : Reordered fn fn') :
    EachTarget expectations (Declared fn) ↔ EachTarget expectations (Declared fn') :=
  forall₂_congr fun _ _ => forall₂_congr fun _ _ => forall₂_congr fun _ _ => declared_reordered reordered

/-- The checks ask what the capabilities declare, in whatever order they are declared. -/
def Agrees (fn : IntentHandlingFunction) (expectations : List (IntentExpectation Text)) : Prop :=
  (Accepts fn expectations ↔ EachTarget expectations (Declared fn)) ∧
    ∀ fn', Reordered fn fn' → (Accepts fn' expectations ↔ Accepts fn expectations)

theorem alike_of_agrees (agrees : Agrees fn expectations)
    (declared : EachTarget expectations (Declared fn)) :
    EachTarget expectations (DeclaredAlike fn) := by
  rintro exp mem objectType named target inTargets cap inCaps rfl
  obtain ⟨front, back, split⟩ := List.append_of_mem inCaps
  -- in an order with the capability in front, its last entry for the name decides
  have decides (entries : List SupportedExpectationTargetInfo)
      (perm : cap.supportedExpectationTargetInfoList.Perm entries) :
      infeasibleTarget entries target = false := by
    have accepts := (agrees.2 _ (reordered_front split perm)).mpr (agrees.1.mpr declared)
    obtain ⟨first, found, feasible⟩ := accepts_first accepts exp mem _ named target inTargets
    rw [List.find?_cons_of_pos (by simp)] at found
    cases found
    exact feasible
  constructor
  · obtain ⟨entry, last, takes⟩ := infeasibleTarget_false.mp (decides _ (List.Perm.refl _))
    exact ⟨entry, List.mem_reverse.mp (List.mem_of_find?_eq_some last), takes.1⟩
  · intro entry inList same
    obtain ⟨before, after, parts⟩ := List.append_of_mem inList
    have perm : cap.supportedExpectationTargetInfoList.Perm (before ++ after ++ [entry]) := by
      rw [parts]
      exact List.perm_middle.trans (List.perm_append_singleton entry _).symm
    obtain ⟨last, found, takes⟩ := infeasibleTarget_false.mp (decides _ perm)
    rw [List.reverse_append, List.reverse_singleton, List.singleton_append,
      List.find?_cons_of_pos (by simpa using same)] at found
    cases found
    exact takes

/-- The checks agree with the declared capabilities, in every order, exactly when a target that is
declared is declared alike in every capability of its type. -/
theorem capabilities_agree (fn : IntentHandlingFunction) (expectations : List (IntentExpectation Text))
    (targeted : ∀ exp ∈ expectations, exp.expectationTargets ≠ []) :
    Agrees fn expectations ↔
      (EachTarget expectations (Declared fn) → EachTarget expectations (DeclaredAlike fn)) := by
  constructor
  · exact alike_of_agrees
  · intro alike
    have same : Accepts fn expectations ↔ EachTarget expectations (Declared fn) :=
      ⟨accepts_declared, fun declared => accepts_alike targeted declared (alike declared)⟩
    refine ⟨same, fun fn' reordered => ?_⟩
    rw [same, reordered.symm_declared]
    refine ⟨accepts_declared, fun declared => accepts_alike targeted declared ?_⟩
    intro exp mem objectType named target inTargets
    exact alike_reordered reordered
      (alike (reordered.symm_declared.mpr declared) exp mem objectType named target inTargets)

end Orders

section Sample

def latencyTarget : ExpectationTarget where
  targetName := text "latency"
  targetCondition := .isLessThan
  targetValueRange := none

def latencyIntent : IntentExpectation Text where
  expectationId := text "e1"
  expectationObject := { objectType := some .radioService }
  expectationTargets := [latencyTarget]

def radioCapability (name : String) : IntentHandlingCapability :=
  ⟨.radioService, [{ supportedTargetName := text name }]⟩

def twoCapabilities : IntentHandlingFunction where
  rmihId := "rmih"
  intentHandlingCapabilityList := [radioCapability "throughput", radioCapability "latency"]

def oneCapability : IntentHandlingFunction where
  rmihId := "rmih"
  intentHandlingCapabilityList := [radioCapability "latency"]

theorem second_capability_ignored : ¬∀ (fn : IntentHandlingFunction)
    (expectations : List (IntentExpectation Text)),
    (∀ exp ∈ expectations, exp.expectationTargets ≠ []) → Agrees fn expectations := by
  intro always
  have agrees := always twoCapabilities [latencyIntent] (by decide)
  have declared : EachTarget [latencyIntent] (Declared twoCapabilities) := by
    intro exp mem objectType named target inTargets
    obtain rfl := List.mem_singleton.mp mem
    obtain rfl := List.mem_singleton.mp inTargets
    cases named
    exact ⟨radioCapability "latency", by simp [twoCapabilities], rfl, _, List.mem_cons_self, rfl,
      fun _ is => by cases is⟩
  obtain ⟨cap, found, feasible⟩ := accepts_first (agrees.1.mpr declared) latencyIntent
    List.mem_cons_self _ rfl latencyTarget List.mem_cons_self
  cases found
  revert feasible
  decide

theorem one_agrees : Agrees oneCapability [latencyIntent] := by
  refine (capabilities_agree oneCapability [latencyIntent] (by decide)).mpr fun _ => ?_
  intro exp mem objectType named target inTargets cap inCaps _
  obtain rfl := List.mem_singleton.mp mem
  obtain rfl := List.mem_singleton.mp inTargets
  obtain rfl := List.mem_singleton.mp inCaps
  refine ⟨⟨_, List.mem_cons_self, rfl⟩, fun entry inList _ => ?_⟩
  obtain rfl := List.mem_singleton.mp inList
  exact ⟨rfl, fun _ is => by cases is⟩

end Sample

end Smo.IntentService
