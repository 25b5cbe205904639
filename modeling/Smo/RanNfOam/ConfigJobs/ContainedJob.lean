import Mathlib.Data.Finset.Card
import Mathlib.Tactic.Linarith
import Mathlib.Tactic.FieldSimp
import Smo.RanNfOam.ConfigJobs.ChangeLimits
import Smo.RanNfOam.ConfigJobs.Writes

/-! When the limits of an invoker contain every job of a request they let pass. -/
namespace Smo.RanNfOam.ConfigObjects

open EditConfig ConfigJobs Transaction

section Percentages

theorem within_of_not_exceeds {most current target : ℚ}
    (passes : exceeds most current target = false) :
    |target - current| ≤ most / 100 * |current| := by
  unfold exceeds percentOf at passes
  by_cases still : |target - current| = 0
  · simp only [still, if_true, decide_eq_false_iff_not, not_lt] at passes
    rw [still]
    exact mul_nonneg (div_nonneg passes (by norm_num)) (abs_nonneg _)
  · by_cases zero : current = 0
    · rw [if_neg still, if_pos zero] at passes
      cases passes
    · simp only [still, if_false, zero, decide_eq_false_iff_not, not_lt] at passes
      have positive : 0 < |current| := abs_pos.mpr zero
      have scaled : |target - current| / |current| ≤ most / 100 := by linarith
      exact (div_le_iff₀ positive).mp scaled

theorem within_self (most : Percent) (current : ℚ) :
    |current - current| ≤ (most : ℚ) / 100 * |current| := by
  rw [sub_self, abs_zero]
  exact mul_nonneg (div_nonneg most.2.le (by norm_num)) (abs_nonneg _)

theorem mem_of_lookup {attributes : Attributes} {name : String} {value : Value}
    (named : attributes.lookup name = some value) : (name, value) ∈ attributes := by
  induction attributes with
  | nil => cases named
  | cons entry rest ih =>
    obtain ⟨first, old⟩ := entry
    rw [List.lookup_cons] at named
    by_cases same : name = first
    · subst same
      simp only [BEq.rfl, Option.some.injEq] at named
      exact named ▸ List.mem_cons_self
    · have other : (name == first) = false := by simpa using same
      rw [other] at named
      exact List.mem_cons_of_mem _ (ih named)

theorem mem_wantedNumbers {attributes : Attributes} {wanted : List (String × ℚ)}
    (read : wantedNumbers attributes = .ok wanted) {name : String} {value : Value} {target : ℚ}
    (mem : (name, value) ∈ attributes) (is : number value = .ok (some target)) :
    (name, target) ∈ wanted := by
  induction attributes generalizing wanted with
  | nil => exact absurd mem List.not_mem_nil
  | cons entry rest ih =>
    obtain ⟨first, old⟩ := entry
    unfold wantedNumbers at read
    rw [List.foldrM_cons] at read
    obtain ⟨others, later, here⟩ := bind_ok read
    rcases List.mem_cons.mp mem with same | mem
    · cases same
      simp only [is] at here
      cases here
      exact List.mem_cons_self
    · have there := ih later mem
      cases reads : number old with
      | error raised =>
        simp only [reads] at here
        cases here
      | ok now =>
        simp only [reads] at here
        cases here
        exact List.mem_append_right _ there

theorem passes_change {site : Site} {data : Datastore} {most : ℚ} {change : Change}
    (passes : changeProblem objectClients site data most change = none) {me : ManagedEntity}
    {endpoint : O1AdaptorEndpoint}
    (registered : site.registry.get? change.managedElementRef = some me)
    (adaptor : me.endpoint = some endpoint) (spoken : o1Client me.o1Protocol ≠ none)
    {name text : String} {value : Value} {v w : ℚ}
    (mem : (name, value) ∈ change.attributeChanges) (is : number value = .ok (some w))
    (holds : held (data (placeOf change)) name = some text) (was : numberOf text = some v) :
    ∃ seen, Numeral.double v = some seen ∧ exceeds most seen w = false := by
  unfold changeProblem at passes
  cases read : wantedNumbers change.attributeChanges with
  | error raised => simp [read] at passes
  | ok wanted =>
    have asked := mem_wantedNumbers read mem is
    obtain ⟨object, there, named⟩ := Option.bind_eq_some_iff.mp holds
    have current : currentOf objectClients site data change =
        .ok (readAttributes me.o1Protocol object) := by
      have read : objectClients.sendGet data me endpoint change =
          .values (readAttributes me.o1Protocol object) := by
        show readObject me.o1Protocol (data (placeOf change)) = _
        rw [there]
        rfl
      unfold currentOf
      simp only [registered, Option.bind_some, adaptor, Option.map_some, spoken, if_false, read]
    have known : valueOf (readAttributes me.o1Protocol object) name = .text text := by
      have nonempty : text ≠ "" := by
        rintro rfl
        rw [show numberOf "" = none by decide] at was
        cases was
      simp [valueOf, lookup_readAttributes, named, readText, nonempty]
    cases wanted with
    | nil => exact absurd asked List.not_mem_nil
    | cons first rest =>
      simp only [read, current] at passes
      have here := List.findSome?_eq_none_iff.mp passes _ asked
      simp only [numberProblem, known, number, was, Option.bind_some] at here
      cases seen : Numeral.double v with
      | none => simp [seen] at here
      | some seen_ =>
        refine ⟨seen_, rfl, ?_⟩
        cases over_ : exceeds most seen_ w with
        | false => rfl
        | true => simp [seen, over_] at here

end Percentages

section Sent

variable {site : Site} {data : Datastore} {changes : List Change}

/-- A job sends changes of the request alone, those of one object in the request's order. -/
def Sends (changes : List Change) (job : ObjectJob site) : Prop :=
  ∀ target, ((((job.exchanges.flatMap (·.subs)).map (·.row.change)).filter (placeOf · = target)).Sublist
    (changes.filter (placeOf · = target)))

def ObjectJob.elements (job : ObjectJob site) : List String :=
  (job.exchanges.flatMap (·.subs)).map (·.row.managedElementRef)

structure Spoken (site : Site) (ref : String) (me : ManagedEntity) (endpoint : O1AdaptorEndpoint) :
    Prop where
  registered : site.registry.get? ref = some me
  adaptor : me.endpoint = some endpoint
  known : o1Client me.o1Protocol ≠ none

def SubChange.Spoken (sub : SubChange) (site : Site) : Prop :=
  ∃ me endpoint, ConfigObjects.Spoken site sub.row.managedElementRef me endpoint

/-- A sub-change that can put its values on an object that is there: it is no create, or the
request takes the object away first. -/
def CanSet (site : Site) (changes : List Change) (sub : SubChange) : Prop :=
  sub.Spoken site ∧ ∃ before after, changes = before ++ sub.row.change :: after ∧
    (sub.operation = .merge ∨ sub.operation = .replace ∨ sub.operation = .create ∧
      ∃ removal : SubChange, removal.Spoken site ∧ removal.row.change ∈ before ∧
        removal.target = sub.target ∧ (removal.operation = .delete ∨ removal.operation = .remove))

theorem CanSet.mem {sub : SubChange} (canSet : CanSet site changes sub) :
    sub.row.change ∈ changes := by
  obtain ⟨_, before, after, is, _⟩ := canSet
  rw [is]
  exact List.mem_append_right _ List.mem_cons_self

theorem sent_mem {job : ObjectJob site} (sends : Sends changes job) {sub : SubChange}
    (mem : sub ∈ job.exchanges.flatMap (·.subs)) : sub.row.change ∈ changes := by
  have filtered : sub.row.change ∈ (((job.exchanges.flatMap (·.subs)).map (·.row.change)).filter
      (placeOf · = placeOf sub.row.change)) :=
    List.mem_filter.mpr ⟨List.mem_map_of_mem mem, by simp⟩
  exact (List.mem_filter.mp ((sends _).subset filtered)).1

theorem elements_le {job : ObjectJob site} (sends : Sends changes job) :
    job.elements.toFinset.card ≤ (elementsOf changes).length := by
  refine le_trans (Finset.card_le_card fun ref mem => ?_) (List.toFinset_card_le (elementsOf changes))
  obtain ⟨sub, there, rfl⟩ := List.mem_map.mp (List.mem_toFinset.mp mem)
  unfold elementsOf
  rw [List.mem_toFinset, List.mem_eraseDups]
  exact List.mem_map.mpr ⟨_, sent_mem sends there, rfl⟩

theorem applied_sublist (exchanges : List (Exchange site)) (data : Datastore) :
    ((applied data exchanges).map (·.sub)).Sublist (exchanges.flatMap (·.subs)) := by
  induction exchanges generalizing data with
  | nil => exact List.Sublist.slnil
  | cons exchange rest ih =>
    unfold applied
    rw [List.map_append, List.flatMap_cons]
    refine List.Sublist.append ?_ (ih _)
    unfold Exchange.applied
    cases editEach data exchange.changes with
    | ok data' =>
      simp only [List.map_map]
      exact (List.map_id _).symm ▸ List.Sublist.refl _
    | error tag => exact List.nil_sublist _

theorem entries_sublist {job : ObjectJob site} (sends : Sends changes job) (target : Target) :
    ((entriesAt (job.entries data) target).map (·.sub.row.change)).Sublist changes := by
  have all : ((job.entries data).map (·.sub.row.change)).Sublist
      ((job.exchanges.flatMap (·.subs)).map (·.row.change)) := by
    have mapped := (applied_sublist job.exchanges data).map (·.row.change)
    rw [List.map_map] at mapped
    exact mapped
  have here : (entriesAt (job.entries data) target).map (·.sub.row.change) =
      ((job.entries data).map (·.sub.row.change)).filter (placeOf · = target) := by
    rw [List.filter_map]
    unfold entriesAt
    congr 1
    exact List.filter_congr fun entry _ => by simp
  rw [here]
  exact ((all.filter _).trans (sends target)).trans List.filter_sublist

theorem entry_spoken {exchanges : List (Exchange site)} {data : Datastore} {entry : Applied}
    (mem : entry ∈ applied data exchanges) : entry.sub.Spoken site := by
  have sent := (applied_sublist exchanges data).subset (List.mem_map_of_mem (f := (·.sub)) mem)
  obtain ⟨exchange, _, there⟩ := List.mem_flatMap.mp sent
  exact ⟨exchange.me, exchange.endpoint, exchange.registered _ there, exchange.adaptor,
    exchange.spoken⟩

end Sent

section Settled

variable {start finish : Option Texts} {entries : List Applied} {name text : String}

theorem removed_of_none (becomes : Becomes start entries none) (there : start.isSome) :
    ∃ entry ∈ entries, entry.Removes := by
  induction entries using List.reverseRecOn with
  | nil =>
    have same : start = none := Except.ok.inj becomes
    rw [same] at there
    cases there
  | append_singleton before entry ih =>
    obtain ⟨mid, _, last⟩ := becomes_append.mp becomes
    obtain ⟨_, edited, nil⟩ := becomes_cons.mp last
    cases nil
    have effect := (editObject_iff entry.sub).mp edited
    refine ⟨entry, List.mem_append_right _ (List.mem_singleton_self _), ?_⟩
    cases is : entry.sub.operation with
    | merge | replace | create => simp [is] at effect
    | delete => exact .inl is
    | remove => exact .inr is

theorem held_from (becomes : Becomes start entries finish) (there : start.isSome)
    (holds : held finish name = some text) : held start name = some text ∨
      ∃ before entry after, entries = before ++ entry :: after ∧
        (∃ value, entry.sub.row.attributeChanges.lookup name = some value ∧ value.str = text) ∧
        (entry.sub.operation = .merge ∨ entry.sub.operation = .replace ∨
          entry.sub.operation = .create ∧ ∃ removal ∈ before, removal.Removes) := by
  induction entries using List.reverseRecOn generalizing finish with
  | nil =>
    have same : start = finish := Except.ok.inj becomes
    exact .inl (same ▸ holds)
  | append_singleton before entry ih =>
    obtain ⟨mid, front, last⟩ := becomes_append.mp becomes
    obtain ⟨_, edited, nil⟩ := becomes_cons.mp last
    cases nil
    have effect := (editObject_iff entry.sub).mp edited
    have fresh := held_overlaid none entry.sub.row.attributeChanges name
    have put (value : Value) (named : entry.sub.row.attributeChanges.lookup name = some value)
        (same : value.str = text) (kind : entry.sub.operation = .merge ∨
          entry.sub.operation = .replace ∨ entry.sub.operation = .create ∧
            ∃ removal ∈ before, removal.Removes) :
        ∃ front_ entry_ after, before ++ [entry] = front_ ++ entry_ :: after ∧
          (∃ value, entry_.sub.row.attributeChanges.lookup name = some value ∧ value.str = text) ∧
          (entry_.sub.operation = .merge ∨ entry_.sub.operation = .replace ∨
            entry_.sub.operation = .create ∧ ∃ removal ∈ front_, removal.Removes) :=
      ⟨before, entry, [], rfl, ⟨value, named, same⟩, kind⟩
    cases is : entry.sub.operation with
    | merge =>
      simp only [is] at effect
      rw [effect, held_overlaid] at holds
      cases named : entry.sub.row.attributeChanges.lookup name with
      | some value =>
        rw [named] at holds
        exact .inr (put value named (by simpa using holds) (.inl is))
      | none =>
        rw [named] at holds
        rcases ih front (by simpa using holds) with was | ⟨front_, entry_, after, split, rest⟩
        · exact .inl was
        · exact .inr ⟨front_, entry_, after ++ [entry], by rw [split]; simp, rest⟩
    | replace =>
      simp only [is] at effect
      rw [effect] at holds
      rw [show (none : Option Texts).getD [] = [] from rfl] at fresh
      rw [fresh] at holds
      cases named : entry.sub.row.attributeChanges.lookup name with
      | some value =>
        rw [named] at holds
        exact .inr (put value named (by simpa using holds) (.inr (.inl is)))
      | none => simp [named, held] at holds
    | create =>
      simp only [is] at effect
      rw [effect.2] at holds
      rw [show (none : Option Texts).getD [] = [] from rfl] at fresh
      rw [fresh] at holds
      cases named : entry.sub.row.attributeChanges.lookup name with
      | some value =>
        rw [named] at holds
        rw [effect.1] at front
        exact .inr (put value named (by simpa using holds)
          (.inr (.inr ⟨is, removed_of_none front there⟩)))
      | none => simp [named, held] at holds
    | delete =>
      simp only [is] at effect
      rw [effect.2] at holds
      cases holds
    | remove =>
      simp only [is] at effect
      rw [effect] at holds
      cases holds

end Settled

section Jobs

variable {site : Site} {data : Datastore} {changes : List Change}

theorem leaves_from {job : ObjectJob site} (sends : Sends changes job) {target : Target}
    {name text text' : String} (was : held (data target) name = some text)
    (is : held (job.leaves data target) name = some text') : text' = text ∨
      ∃ sub, CanSet site changes sub ∧ sub.target = target ∧
        ∃ value, sub.row.attributeChanges.lookup name = some value ∧ value.str = text' := by
  have there : (data target).isSome := by
    cases object : data target with
    | some texts => rfl
    | none =>
      rw [object] at was
      cases was
  rcases held_from (@ObjectJob.becomes_at _ job data target) there is with
    same | ⟨before, entry, after, split, value, kind⟩
  · exact .inl (Option.some.inj (same.symm.trans was))
  · have order := @entries_sublist _ data _ _ sends target
    rw [split, List.map_append, List.map_cons] at order
    obtain ⟨front, back, whole, first, second⟩ := List.append_sublist_iff.mp order
    obtain ⟨skipped, later, parts, mem, _⟩ := List.cons_sublist_iff.mp second
    obtain ⟨skipped_, later_, skips⟩ := List.append_of_mem mem
    have here (entry' : Applied) (among : entry' ∈ before ++ entry :: after) :
        entry' ∈ job.entries data ∧ entry'.sub.target = target := by
      rw [← split] at among
      have filtered := List.mem_filter.mp among
      exact ⟨filtered.1, by simpa using filtered.2⟩
    have self := here entry (List.mem_append_right _ List.mem_cons_self)
    refine .inr ⟨entry.sub, ⟨entry_spoken self.1, front ++ skipped_, later_ ++ later, ?_, ?_⟩,
      self.2, value⟩
    · rw [whole, parts, skips]
      simp
    · rcases kind with merge | replace | ⟨create, removal, among, removes⟩
      · exact .inl merge
      · exact .inr (.inl replace)
      · have taken := here removal (List.mem_append_left _ among)
        exact .inr (.inr ⟨create, removal.sub, entry_spoken taken.1,
          List.mem_append_left _ (first.subset (List.mem_map_of_mem among)),
          taken.2.trans self.2.symm, removes⟩)

def SubChange.first (sub : SubChange) : SubChange :=
  { sub with row := { sub.row with wave := 0 } }

def exchangeOf (sub : SubChange) {me : ManagedEntity} {endpoint : O1AdaptorEndpoint}
    (spoken : Spoken site sub.row.managedElementRef me endpoint) : Exchange site where
  me := me
  endpoint := endpoint
  subs := [sub.first]
  registered := fun sub' mem => by
    cases List.mem_singleton.mp mem
    exact spoken.registered
  adaptor := spoken.adaptor
  spoken := spoken.known

theorem exchangeOf_send (sub : SubChange) {me : ManagedEntity} {endpoint : O1AdaptorEndpoint}
    (spoken : Spoken site sub.row.managedElementRef me endpoint) {object : Option Texts}
    (edited : editObject (data sub.target) sub.row.change = .ok object) :
    ((exchangeOf sub spoken).send data).1 = Function.update data sub.target object := by
  have ok : editEach data (exchangeOf sub spoken).changes =
      .ok (Function.update data sub.target object) := by
    have one : editChange data sub.row.change = .ok (Function.update data sub.target object) :=
      editChange_ok.mpr ⟨object, by rw [SubChange.place_change]; exact edited,
        by rw [SubChange.place_change]⟩
    show [sub.row.change].foldlM editChange data = _
    rw [List.foldlM_cons, one]
    rfl
  unfold Exchange.send
  rw [ok]

def plainJob : WriteConfigJob where
  jobId := 0
  requestedBy := ""
  scope := ""
  msacRole := none
  rollbackOf := none
  rollbackForced := false
  waveSize := none
  wavePauseSeconds := 0
  waveCount := 1
  gateMaxNewAlarms := 0
  onGateFailure := .halt
  invokerId := none
  createdAt := 0
  kpiGuard := none
  scheduledAt := none
  windowEnd := none

theorem sets_value {sub : SubChange} (canSet : CanSet site changes sub)
    (there : (data sub.target).isSome) {name : String} {value : Value}
    (named : sub.row.attributeChanges.lookup name = some value) :
    ∃ job : ObjectJob site, Sends changes job ∧
      held (job.leaves data sub.target) name = some value.str := by
  obtain ⟨⟨me, endpoint, spoken⟩, before, after, whole, kind⟩ := canSet
  have merged_ := held_overlaid (data sub.target) sub.row.attributeChanges name
  have fresh := held_overlaid none sub.row.attributeChanges name
  rw [named] at merged_ fresh
  have alone {object : Option Texts} (edited : editObject (data sub.target) sub.row.change = .ok object)
      (holds : held object name = some value.str) :
      ∃ job : ObjectJob site, Sends changes job ∧
        held (job.leaves data sub.target) name = some value.str := by
    refine ⟨⟨plainJob, [exchangeOf sub spoken], List.pairwise_singleton _ _⟩, fun target => ?_, ?_⟩
    · refine List.Sublist.filter _ ?_
      rw [whole]
      exact List.singleton_sublist.mpr (List.mem_append_right _ List.mem_cons_self)
    · show held ((perform data [exchangeOf sub spoken]).1 sub.target) name = _
      show held (((exchangeOf sub spoken).send data).1 sub.target) name = _
      rw [exchangeOf_send sub spoken edited, Function.update_self]
      exact holds
  rcases kind with merge | replace | ⟨create, removal, ⟨me', endpoint', spoken'⟩, among, same, removes⟩
  · refine alone (editObject_iff sub |>.mpr ?_) merged_
    simp only [merge]
  · refine alone (editObject_iff sub |>.mpr ?_) fresh
    simp only [replace, Option.getD_none]
  · have taken : editObject (data removal.target) removal.row.change = .ok none := by
      refine (editObject_iff removal).mpr ?_
      rw [same]
      rcases removes with is | is
      · simp only [is]
        exact ⟨there, trivial⟩
      · simp only [is]
    have created : editObject (Function.update data removal.target none sub.target)
        sub.row.change = .ok (some (overlaid [] (written sub.row.attributeChanges))) := by
      refine (editObject_iff sub).mpr ?_
      simp only [create]
      exact ⟨by rw [same, Function.update_self], trivial⟩
    refine ⟨⟨plainJob, [exchangeOf removal spoken', exchangeOf sub spoken], ?_⟩, fun target => ?_, ?_⟩
    · exact List.pairwise_pair.mpr (Nat.le_refl 0)
    · refine List.Sublist.filter _ ?_
      rw [whole]
      exact List.Sublist.append (List.singleton_sublist.mpr among)
        (List.singleton_sublist.mpr List.mem_cons_self)
    · show held (((exchangeOf sub spoken).send ((exchangeOf removal spoken').send data).1).1
        sub.target) name = _
      rw [exchangeOf_send removal spoken' taken, exchangeOf_send sub spoken created,
        Function.update_self]
      exact fresh

end Jobs

section Limits

variable (site : Site) (maxChangePercent : RAppLimit → Option Percent)

/-- What an invoker's limits promise of a job: it touches no more elements than they say, and
moves no number farther. -/
structure Contained (limit : RAppLimit) (data : Datastore) (job : ObjectJob site) : Prop where
  elements : ∀ most, limit.maxElementsPerJob = some most → job.elements.toFinset.card ≤ most
  numbers : ∀ most, maxChangePercent limit = some most → ∀ target name text text' v w,
    held (data target) name = some text → numberOf text = some v →
    held (job.leaves data target) name = some text' → numberOf text' = some w →
    |w - v| ≤ (most : ℚ) / 100 * |v|

def Accepted (data : Datastore) (now : Time) (body : WriteConfigRequest) (caller : String) : Prop :=
  ∃ s s', (enforceChangeLimits (limitedSite site data maxChangePercent) now body (some caller) :
    Db Datastore Unit) s = .ok () s'

/-- Every job of a request the check lets pass is contained, and a request it does not let pass
has sent nothing. -/
structure LimitsHold (limit : RAppLimit) (data : Datastore) (now : Time)
    (body : WriteConfigRequest) (caller : String) : Prop where
  contained : Accepted site maxChangePercent data now body caller →
    ∀ job : ObjectJob site, Sends body.changes job → Contained site maxChangePercent limit data job
  refused : ∀ s raised s', (enforceChangeLimits (limitedSite site data maxChangePercent) now body
    (some caller) : Db Datastore Unit) s = .error raised s' → s'.world = s.world

/-- No number past the range of the floats is set, or replaced, beyond the limit: only such a
number is not measured as what it is. -/
def NothingUnseen (limit : RAppLimit) (data : Datastore) (changes : List Change) : Prop :=
  ∀ most, maxChangePercent limit = some most → ∀ sub, CanSet site changes sub →
    ∀ name value text v w, sub.row.attributeChanges.lookup name = some value →
      held (data sub.target) name = some text → numberOf text = some v →
      numberOf value.str = some w → number value ≠ .ok (some w) ∨ ¬Numeral.InRange v →
      |w - v| ≤ (most : ℚ) / 100 * |v|

variable {site maxChangePercent} {limit : RAppLimit} {data : Datastore} {now : Time}
  {body : WriteConfigRequest} {caller : String}

theorem refuse_world {α : Type} (problem : Problem) (requestedBy : Option String)
    {s s' : Session Store (Wire Datastore)} {raised : Raised}
    (refused : (refuse now caller requestedBy problem : Db Datastore α) s = .error raised s') :
    s'.world = s.world := by
  cases refused
  rfl

structure Passes (site : Site) (maxChangePercent : RAppLimit → Option Percent) (limit : RAppLimit)
    (data : Datastore) (changes : List Change) : Prop where
  few : ∀ most, limit.maxElementsPerJob = some most → (elementsOf changes).length ≤ most
  near : ∀ most, maxChangePercent limit = some most →
    magnitudeExceeded objectClients site data most changes = none

theorem enforceChangeLimits_cases (limited : limitOf site (some caller) = some limit) :
    (Passes site maxChangePercent limit data body.changes ∧
      ∀ s, (enforceChangeLimits (limitedSite site data maxChangePercent) now body (some caller) :
        Db Datastore Unit) s = .ok () s) ∨
    (¬Passes site maxChangePercent limit data body.changes ∧
      ∃ problem, ∀ s, (enforceChangeLimits (limitedSite site data maxChangePercent) now body
        (some caller) : Db Datastore Unit) s =
          (refuse now limit.invokerId (some body.requestedBy) problem : Db Datastore Unit) s) := by
  have limited_ : limitOf (limitedSite site data maxChangePercent) (some caller) = some limit := limited
  unfold enforceChangeLimits
  rw [limited_]
  dsimp only
  cases few : limit.maxElementsPerJob.filter (· < (elementsOf body.changes).length) with
  | some most =>
    obtain ⟨is, over_⟩ := Option.filter_eq_some_iff.mp few
    have more : most < (elementsOf body.changes).length := by simpa using over_
    exact .inr ⟨fun passes => absurd (passes.few most is) (Nat.not_le.mpr more), _, fun _ => rfl⟩
  | none =>
    dsimp only [limitedSite]
    cases exceeded : (maxChangePercent limit).bind fun most =>
        magnitudeExceeded objectClients site data most body.changes with
    | some detail =>
      obtain ⟨most, is, problem⟩ := Option.bind_eq_some_iff.mp exceeded
      refine .inr ⟨fun passes => ?_, _, fun _ => rfl⟩
      rw [passes.near most is] at problem
      cases problem
    | none =>
      refine .inl ⟨⟨fun most is => ?_, fun most is => ?_⟩, fun _ => rfl⟩
      · rw [is] at few
        simpa [Option.filter] using few
      · rw [is] at exceeded
        exact exceeded

theorem accepted_iff (limited : limitOf site (some caller) = some limit) :
    Accepted site maxChangePercent data now body caller ↔
      Passes site maxChangePercent limit data body.changes := by
  rcases @enforceChangeLimits_cases site maxChangePercent limit data now body caller limited with
    ⟨passes, ok⟩ | ⟨fails, problem, refused⟩
  · exact ⟨fun _ => passes, fun _ => ⟨⟨{}, {}, ⟨data, [], 0⟩⟩, _, ok _⟩⟩
  · refine ⟨fun ⟨s, s', ok⟩ => ?_, fun passes => absurd passes fails⟩
    rw [refused] at ok
    cases ok

theorem measured_within {most : Percent}
    (passes : magnitudeExceeded objectClients site data most body.changes = none) {sub : SubChange}
    (canSet : CanSet site body.changes sub) {name text : String} {value : Value} {v w : ℚ}
    (named : sub.row.attributeChanges.lookup name = some value)
    (holds : held (data sub.target) name = some text) (was : numberOf text = some v)
    (is : number value = .ok (some w)) (seen : Numeral.InRange v) :
    |w - v| ≤ (most : ℚ) / 100 * |v| := by
  obtain ⟨me, endpoint, spoken⟩ := canSet.1
  have here := List.findSome?_eq_none_iff.mp passes _ canSet.mem
  have mem : (name, value) ∈ sub.row.change.attributeChanges := mem_of_lookup named
  rw [← sub.place_change] at holds
  obtain ⟨read, reads, near⟩ :=
    passes_change here spoken.registered spoken.adaptor spoken.known mem is holds was
  rw [show Numeral.double v = some v from seen] at reads
  cases reads
  exact within_of_not_exceeds near

end Limits

section Unseen

def raiser : RAppLimit where
  invokerId := "rapp-1"
  maxConfigJobsPerHour := none
  maxElementsPerJob := some 1

def raiserSite : Site := { labSite with limits := [raiser] }

def tenPercent (_ : RAppLimit) : Option Percent := some ⟨10, by norm_num⟩

def raise (power : String) : WriteConfigRequest where
  requestedBy := "rapp-1"
  accessScope := "cells"
  changes := [{ managedElementRef := "gnb-1", attributeChanges := [("txPower", .text power)] }]

def raiseJob (power : String) : SubChange where
  row := { managedElementRef := "gnb-1", managedFunctionRef := none,
           attributeChanges := [("txPower", .text power)], operation := "merge",
           position := 0, wave := 0 }
  operation := .merge
  asked := rfl
  named := nofun
  keyed := List.nodup_singleton _
  unsettled := rfl

theorem raiser_limited : limitOf raiserSite (some "rapp-1") = some raiser := by decide

theorem raise_mem {power : String} {sub : SubChange} (mem : sub.row.change ∈ (raise power).changes) :
    sub.target = ("gnb-1", none) ∧ sub.row.attributeChanges = [("txPower", .text power)] := by
  have is : sub.row.change = _ := List.mem_singleton.mp mem
  have attributes := congrArg Change.attributeChanges is
  have place := sub.place_change.symm.trans (congrArg placeOf is)
  exact ⟨place, attributes⟩

end Unseen

end Smo.RanNfOam.ConfigObjects
