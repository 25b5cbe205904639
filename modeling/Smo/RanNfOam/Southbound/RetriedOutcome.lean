import Smo.RanNfOam.ConfigJobs.Sending
import Smo.RanNfOam.Southbound.Courses

/-! What is recorded of a sub-change that was sent until it was answered, against what the
network element did. -/
namespace Smo.RanNfOam

open ConfigJobs Retry NetworkElement

section Retrying

variable {C : Type} (element : NetworkElement C) (channel : Channel) (model : String → Bool)
variable (reads : Network C → ManagedEntity → O1AdaptorEndpoint → Change → ReadAnswer)

def transacts (me : ManagedEntity) (endpoint : O1AdaptorEndpoint) : Bool :=
  (transactionGroupKey (.ok (me, endpoint))).isSome

def deviceCourse (attempt : Attempt) (me : ManagedEntity) (endpoint : O1AdaptorEndpoint)
    (change : Change) (device : Device C) : Course :=
  if me.o1Protocol = "NETCONF" then
    if sshTransport endpoint then
      element.sshCourse attempt (model endpoint.adaptorUri) endpoint.candidate [change] device
    else (attempt.fate 0).course
  else restconfCourse attempt change

variable {me : ManagedEntity} {endpoint : O1AdaptorEndpoint} {changes : List Change} {now : Time}
  {job : WriteConfigJob}

theorem transacts_ssh (netconf : me.o1Protocol = "NETCONF") (ssh : sshTransport endpoint) :
    transacts me endpoint = endpoint.candidate := by
  have ssh' : endpoint.transport = "ssh" ∨ endpoint.transport = "tls" := ssh
  unfold transacts transactionGroupKey
  cases candidate : endpoint.candidate <;> simp [netconf, ssh', candidate]

theorem transacts_other (other : ¬(me.o1Protocol = "NETCONF" ∧ sshTransport endpoint)) :
    transacts me endpoint = false := by
  unfold transacts transactionGroupKey
  dsimp only
  rw [if_neg fun all => other ⟨all.1, all.2.1⟩]
  rfl

theorem deviceEdit_ends (attempt : Attempt) (me : ManagedEntity) (endpoint : O1AdaptorEndpoint)
    (change : Change) (device : Device C) :
    ∃ again done, Says (deviceEdit element model attempt me endpoint change device).2 again done ∧
      Ends (element.performed (transacts me endpoint) change)
        (deviceCourse element model attempt me endpoint change device) device.running
        (deviceEdit element model attempt me endpoint change device).1.running again done := by
  unfold deviceEdit deviceCourse
  by_cases netconf : me.o1Protocol = "NETCONF"
  · by_cases ssh : sshTransport endpoint
    · rw [if_pos netconf, if_pos ssh, if_pos netconf, if_pos ssh, transacts_ssh netconf ssh]
      exact element.sshEdit_ends attempt _ _ change device
    · rw [if_pos netconf, if_neg ssh, if_pos netconf, if_neg ssh,
        transacts_other fun both => ssh both.2]
      exact element.httpEdit_ends attempt change device
  · rw [if_neg netconf, if_neg netconf, transacts_other fun both => netconf both.1]
    exact element.restconfEdit_ends attempt change device

variable (site : Site) (started : Nat)

/-- The attempts of `_dispatch_with_retries`. -/
def editPolicy (me : ManagedEntity) (endpoint : O1AdaptorEndpoint) (change : Change) :
    Policy (Network C) EditResult where
  late made delay network :=
    budgetSpent (clients element channel model reads) site started delay made network
  wait delay network := (clients element channel model reads).sleep network delay
  send network :=
    let ended := deviceEdit element model (channel network.attempt) me endpoint change
      network.device
    (network.after (channel network.attempt) ended.1, ended.2)
  again result := !result.applied && result.retryable

/-- The attempts of `_dispatch_group_with_retries`. -/
def groupPolicy (endpoint : O1AdaptorEndpoint) (changes : List Change) :
    Policy (Network C) (List EditResult) where
  late made delay network :=
    budgetSpent (clients element channel model reads) site started delay made network
  wait delay network := (clients element channel model reads).sleep network delay
  send network :=
    let ended := element.sshEdits (channel network.attempt) (model endpoint.adaptorUri) changes
      network.device
    (network.after (channel network.attempt) ended.1, ended.2)
  again results := !results.all (·.applied) && results.any (·.retryable)

def running (network : Network C) : C := network.device.running

def editCourse (me : ManagedEntity) (endpoint : O1AdaptorEndpoint) (change : Change)
    (network : Network C) : Course :=
  deviceCourse element model (channel network.attempt) me endpoint change network.device

def groupCourse (endpoint : O1AdaptorEndpoint) (changes : List Change) (network : Network C) :
    Course :=
  element.sshCourse (channel network.attempt) (model endpoint.adaptorUri) true changes
    network.device

theorem again_of_done {E : Type} {perform : C → Except E C} {course : Course} {before after : C}
    {again : Bool} (ends : Ends perform course before after again true) : again = false := by
  cases course with
  | unreached => cases ends.2.2
  | unanswered => cases ends.2.2
  | answered => exact ends.2.1
  | turnedAway => cases ends.2.2

theorem edit_carries (me : ManagedEntity) (endpoint : O1AdaptorEndpoint) (change : Change) :
    Carries (element.performed (transacts me endpoint) change)
      (editPolicy element channel model reads site started me endpoint change) running
      (editCourse element channel model me endpoint change) (·.applied) where
  wait _ _ := rfl
  send network := by
    obtain ⟨again, done, ⟨applied, asks⟩, ends⟩ := deviceEdit_ends element model
      (channel network.attempt) me endpoint change network.device
    subst applied
    have told : (editPolicy element channel model reads site started me endpoint change).again
        (deviceEdit element model (channel network.attempt) me endpoint change
          network.device).2 = again := by
      unfold editPolicy
      dsimp only
      cases applied : (deviceEdit element model (channel network.attempt) me endpoint change
          network.device).2.applied with
      | false => exact (asks applied).1
      | true =>
        rw [applied] at ends
        exact (again_of_done ends).symm
    rw [show (editPolicy element channel model reads site started me endpoint change).send network =
      (network.after (channel network.attempt) (deviceEdit element model (channel network.attempt)
        me endpoint change network.device).1, (deviceEdit element model (channel network.attempt)
        me endpoint change network.device).2) from rfl]
    dsimp only
    rw [told]
    exact ends

theorem groupSend_ends (endpoint : O1AdaptorEndpoint) (some : changes ≠ []) (network : Network C) :
    let policy := groupPolicy element channel model reads site started endpoint changes
    let results := (policy.send network).2
    results.length = changes.length ∧
      Uniform results (policy.again results) (results.all (·.applied)) ∧
      Ends (element.transaction changes) (groupCourse element channel model endpoint changes network)
        (running network) (running (policy.send network).1) (policy.again results)
        (results.all (·.applied)) := by
  intro policy results
  obtain ⟨again, done, length, uniform, ends⟩ := element.sshEdits_ends
    (channel network.attempt) (model endpoint.adaptorUri) changes network.device
  obtain ⟨first, mem⟩ : ∃ first, first ∈ results :=
    List.exists_mem_of_ne_nil _ fun none => some (List.length_eq_zero_iff.1
      (length.symm.trans (List.length_eq_zero_iff.2 none)))
  have all : results.all (·.applied) = done := by
    cases done with
    | true => exact List.all_eq_true.2 fun result mem => (uniform result mem).1
    | false =>
      refine Bool.eq_false_iff.2 fun applied => ?_
      have := (uniform first mem).1
      rw [List.all_eq_true.1 applied first mem] at this
      cases this
  have any : policy.again results = again := by
    show (!results.all (·.applied) && results.any (·.retryable)) = again
    rw [all]
    cases done with
    | true => exact (again_of_done ends).symm
    | false =>
      have asks := fun result mem => ((uniform result mem).2 (uniform result mem).1).1
      cases again with
      | true => exact List.any_eq_true.2 ⟨first, mem, asks first mem⟩
      | false =>
        refine Bool.eq_false_iff.2 fun retries => ?_
        obtain ⟨result, mem, retries⟩ := List.any_eq_true.1 retries
        rw [asks result mem] at retries
        cases retries
  rw [all, any]
  exact ⟨length, uniform, ends⟩

theorem groupEdit_carries (endpoint : O1AdaptorEndpoint) (some : changes ≠ []) :
    Carries (element.transaction changes)
      (groupPolicy element channel model reads site started endpoint changes) running
      (groupCourse element channel model endpoint changes) (fun results => results.all (·.applied))
      where
  wait _ _ := rfl
  send network :=
    (groupSend_ends element channel model reads site started endpoint some network).2.2

def told (me : ManagedEntity) (last : Option EditResult) : Option String :=
  last.bind fun result => result.reason.or (o1Client me.o1Protocol)

theorem ok_bind {σ α β : Type} {x : Line σ α} {f : α → Line σ β} {wire wire' : Wire σ} {a : α}
    (ok : x wire = .ok a wire') : (x >>= f) wire = f a wire' := by
  simp only [bind, EStateM.bind, ok]

theorem sendOnce_sent (dispatched : o1Client me.o1Protocol ≠ none) (endpoint : O1AdaptorEndpoint)
    (change : Change) (wire : Wire (Network C)) :
    let sent := (editPolicy element channel model reads site started me endpoint change).send
      wire.network
    sendOnce (clients element channel model reads) me endpoint change wire =
      .ok sent.2 { wire with network := sent.1 } := by
  simp only [sendOnce, clients, if_neg dispatched]
  rfl

theorem dispatchAttempts_retry (dispatched : o1Client me.o1Protocol ≠ none)
    (endpoint : O1AdaptorEndpoint) (change : Change) (delays : List Nat) (made : Nat)
    (detail : Option String) (last : Option EditResult)
    (unapplied : ∀ result ∈ last, result.applied = false) (wire : Wire (Network C)) :
    let ended := (editPolicy element channel model reads site started me endpoint change).retry
      delays made wire.network last
    ∃ count detail', dispatchAttempts (clients element channel model reads) site me endpoint
        change started delays made (told me last) detail wire =
      .ok (ended.2.any (·.applied),
        if ended.2.any (·.applied) then none else told me ended.2, count, detail')
        { wire with network := ended.1 } := by
  induction delays generalizing made detail last wire with
  | nil =>
    have not : last.any (·.applied) = false := by
      cases last with
      | none => rfl
      | some result => exact unapplied result rfl
    refine ⟨made, detail, ?_⟩
    simp only [Policy.retry, not, Bool.false_eq_true, if_false]
    rfl
  | cons delay delays ih =>
    have sends := sendOnce_sent element channel model reads site started dispatched endpoint change
      { wire with
        network := (editPolicy element channel model reads site started me endpoint change).wait
          delay wire.network }
    unfold dispatchAttempts Policy.retry
    rw [ok_bind (show (get : Line (Network C) _) wire = .ok wire wire from rfl)]
    by_cases late : (editPolicy element channel model reads site started me endpoint change).late
        made delay wire.network = true
    · have not : last.any (·.applied) = false := by
        cases last with
        | none => rfl
        | some result => exact unapplied result rfl
      refine ⟨made, detail, ?_⟩
      rw [if_pos late, if_pos (show budgetSpent _ _ _ _ _ _ = true from late)]
      simp only [not, Bool.false_eq_true, if_false]
      rfl
    · rw [if_neg late, if_neg (show ¬budgetSpent _ _ _ _ _ _ = true from late),
        ok_bind (show wait (clients element channel model reads) delay wire = .ok ()
          { wire with network := (editPolicy element channel model reads site started me endpoint
              change).wait delay wire.network } from rfl),
        ok_bind sends]
      dsimp only
      generalize (editPolicy element channel model reads site started me endpoint change).send
        ((editPolicy element channel model reads site started me endpoint change).wait delay
          wire.network) = sent
      obtain ⟨network, result⟩ := sent
      have again : (editPolicy element channel model reads site started me endpoint change).again
          result = (!result.applied && result.retryable) := rfl
      rw [again]
      dsimp only
      cases applied : result.applied with
      | true =>
        refine ⟨made + 1, none, ?_⟩
        simp only [Bool.not_true, Bool.false_and, Bool.false_eq_true, if_false, if_true,
          Option.any_some, applied]
        rfl
      | false =>
        cases retryable : result.retryable with
        | false =>
          refine ⟨made + 1, result.detail, ?_⟩
          simp only [Bool.not_false, Bool.and_false, Bool.false_eq_true, if_false, if_true,
            Option.any_some, applied]
          rfl
        | true =>
          simp only [Bool.not_false, Bool.not_true, Bool.and_true, Bool.false_eq_true, if_false,
            if_true]
          exact ih (made + 1) result.detail (some result)
            (fun r mem => by cases mem; exact applied) { wire with network }

theorem groupAttempts_retry (endpoint : O1AdaptorEndpoint) (changes : List Change)
    (delays : List Nat) (made : Nat) (last : Option (List EditResult)) (wire : Wire (Network C)) :
    let ended := (groupPolicy element channel model reads site started endpoint changes).retry
      delays made wire.network last
    ∃ count, groupAttempts (clients element channel model reads) site endpoint changes started
        delays made (last.getD []) wire =
      .ok (ended.2.getD [], count) { wire with network := ended.1 } := by
  induction delays generalizing made last wire with
  | nil => exact ⟨made, rfl⟩
  | cons delay delays ih =>
    have sends : sendGroupOnce (clients element channel model reads) endpoint changes
        { wire with
          network := (groupPolicy element channel model reads site started endpoint changes).wait
            delay wire.network } =
        .ok ((groupPolicy element channel model reads site started endpoint changes).send
            ((groupPolicy element channel model reads site started endpoint changes).wait delay
              wire.network)).2
          { wire with
            network := ((groupPolicy element channel model reads site started endpoint
              changes).send ((groupPolicy element channel model reads site started endpoint
                changes).wait delay wire.network)).1 } := rfl
    unfold groupAttempts Policy.retry
    rw [ok_bind (show (get : Line (Network C) _) wire = .ok wire wire from rfl)]
    by_cases late : (groupPolicy element channel model reads site started endpoint changes).late
        made delay wire.network = true
    · refine ⟨made, ?_⟩
      rw [if_pos late, if_pos (show budgetSpent _ _ _ _ _ _ = true from late)]
      rfl
    · rw [if_neg late, if_neg (show ¬budgetSpent _ _ _ _ _ _ = true from late),
        ok_bind (show wait (clients element channel model reads) delay wire = .ok ()
          { wire with network := (groupPolicy element channel model reads site started endpoint
              changes).wait delay wire.network } from rfl),
        ok_bind sends]
      dsimp only
      generalize (groupPolicy element channel model reads site started endpoint changes).send
        ((groupPolicy element channel model reads site started endpoint changes).wait delay
          wire.network) = sent
      obtain ⟨network, results⟩ := sent
      have again : (groupPolicy element channel model reads site started endpoint changes).again
          results = (!results.all (·.applied) && results.any (·.retryable)) := rfl
      rw [again]
      dsimp only
      cases results.all (·.applied) with
      | true => exact ⟨made + 1, rfl⟩
      | false =>
        cases results.any (·.retryable) with
        | false => exact ⟨made + 1, rfl⟩
        | true => exact ih (made + 1) (some results) { wire with network }

def Untouched {ρ : Type} (policy : Policy (Network C) ρ) (network : Network C) : Prop :=
  running (policy.send network).1 = running network

/-- What a sub-change is recorded as, given the attempts made for it: what it asked of the
element when applied; when rejected for a reason that is not transient, whether every attempt
left the element as it was. -/
structure Recorded (row : WriteConfigSubChange) (inPlace untouched : Prop) (kept : Prop) :
    Prop where
  applied : row.status = .applied → inPlace
  rejected : (row.status = .rejected → transient row.rejectionReason = false → untouched) ↔ kept

/-- An attempt took effect without an answer, and a later one was answered by a refusal, or
turned away on the way. -/
def Overtaken (perform : C → Except String C) (course : Network C → Course)
    (refused : Network C → Prop) (attempts : List (Network C)) : Prop :=
  ∃ a b, [a, b].Sublist attempts ∧ Unheard perform running course a ∧
    (course b = .turnedAway ∨ course b = .answered ∧ refused b)

theorem performed_again (transacts : Bool) (change : Change) :
    ((change.operation = "create" ∨ change.operation = "delete") →
      Once (element.performed transacts change)) ∧
    (¬(change.operation = "create" ∨ change.operation = "delete") →
      Repeats (element.performed transacts change)) := by
  have once : (change.operation = "create" ∨ change.operation = "delete") →
      Once (element.edit change) := by
    rintro kind c c' ok
    unfold edit at ok ⊢
    rcases kind with create | delete
    · rw [create] at ok ⊢
      exact ⟨_, element.create_exists change c' (element.created change c c' ok)⟩
    · rw [delete] at ok ⊢
      exact ⟨_, (element.delete_missing change c').2 (element.deleted change c c' ok)⟩
  have repeats : ¬(change.operation = "create" ∨ change.operation = "delete") →
      Repeats (element.edit change) := fun kind c c' ok =>
    element.again _ change c c' (fun create => kind (.inl create))
      (fun delete => kind (.inr delete)) ok
  unfold performed
  cases transacts with
  | false => exact ⟨once, repeats⟩
  | true =>
    have made : ∀ c c', element.transaction [change] c = .ok c' →
        element.edit change c = .ok c' ∧ ∃ done, element.accepts c' = .ok done := by
      intro c c' ok
      unfold transaction edits at ok
      cases edited : element.edit change c with
      | error tag => rw [edited] at ok; cases ok
      | ok c'' =>
        rw [edited] at ok
        simp only [edits] at ok
        cases accepted : element.accepts c'' with
        | error tag => rw [accepted] at ok; cases ok
        | ok done =>
          rw [accepted] at ok
          cases ok
          exact ⟨rfl, done, accepted⟩
    simp only [if_true]
    refine ⟨fun kind c c' ok => ?_, fun kind c c' ok => ?_⟩
    · obtain ⟨e, error⟩ := once kind c c' (made c c' ok).1
      exact ⟨e, by simp only [transaction, edits, error]⟩
    · obtain ⟨edited, done, accepted⟩ := made c c' ok
      simp only [transaction, edits, repeats kind c c' edited, accepted]

theorem transient_or {default : Option String} (lasting : transient default = false)
    (reason : Option String) : transient (reason.or default) = transient reason := by
  cases reason with
  | some reason => rfl
  | none => exact lasting

theorem transient_told (me : ManagedEntity) (result : EditResult) :
    transient (told me (some result)) = transient result.reason := by
  refine transient_or ?_ result.reason
  unfold o1Client
  split
  · rfl
  · split <;> rfl

theorem reply_asks {change : Change} {delays : List Nat} {made : Nat} {network : Network C}
    {result : EditResult}
    (heard : ((editPolicy element channel model reads site started me endpoint change).retry delays
      made network none).2 = some result) (not : result.applied = false) :
    transient (told me (some result)) = result.retryable := by
  rw [Policy.retry_eq] at heard
  cases last : ((editPolicy element channel model reads site started me endpoint change).attempts
      delays made network).getLast? with
  | none => rw [last] at heard; cases heard
  | some b =>
    rw [last] at heard
    obtain rfl := Option.some.inj heard
    obtain ⟨again, done, ⟨_, asks⟩, _⟩ := deviceEdit_ends element model (channel b.attempt) me
      endpoint change b.device
    obtain ⟨retryable, named⟩ := asks not
    exact (transient_told me _).trans (named.trans retryable.symm)

theorem alone_recorded (dispatched : o1Client me.o1Protocol ≠ none) (endpoint : O1AdaptorEndpoint)
    (row : WriteConfigSubChange) (wire : Wire (Network C)) :
    let policy := editPolicy element channel model reads site wire.network.clock me endpoint
      row.change
    let attempts := policy.attempts site.retryDelays 0 wire.network
    ∃ outcome wire', dispatchAlone (clients element channel model reads) site now job me endpoint
        row wire = .ok outcome wire' ∧
      Recorded (settle site row outcome)
        (element.performed (transacts me endpoint) row.change (running wire.network) =
          .ok (running wire'.network))
        (∀ a ∈ attempts, Untouched policy a)
        ¬Overtaken (element.performed (transacts me endpoint) row.change)
          (editCourse element channel model me endpoint row.change)
          (fun _ => row.operation = "create" ∨ row.operation = "delete") attempts := by
  intro policy attempts
  have carries := edit_carries element channel model reads site wire.network.clock me endpoint
    row.change
  obtain ⟨once, repeats⟩ := performed_again element (transacts me endpoint) row.change
  have settles : Settles (element.performed (transacts me endpoint) row.change) := by
    by_cases kind : row.change.operation = "create" ∨ row.change.operation = "delete"
    · exact (once kind).settles
    · exact (repeats kind).settles
  have spoiled : Spoiled (element.performed (transacts me endpoint) row.change) running
      (editCourse element channel model me endpoint row.change) attempts ↔
      Overtaken (element.performed (transacts me endpoint) row.change)
        (editCourse element channel model me endpoint row.change)
        (fun _ => row.operation = "create" ∨ row.operation = "delete") attempts := by
    unfold Overtaken
    by_cases kind : row.change.operation = "create" ∨ row.change.operation = "delete"
    · rw [carries.spoiled_iff_of_once (once kind)]
      simp only [show row.operation = "create" ∨ row.operation = "delete" from kind, and_true]
      exact Iff.rfl
    · rw [carries.spoiled_iff_of_repeats (repeats kind)]
      simp only [show ¬(row.operation = "create" ∨ row.operation = "delete") from kind, and_false,
        or_false]
      exact Iff.rfl
  obtain ⟨count, detail, sent⟩ := dispatchAttempts_retry element channel model reads site
    wire.network.clock dispatched endpoint row.change site.retryDelays 0 none none nofun
    { wire with sent := wire.sent ++ [dispatchOf now job row] }
  refine ⟨_, _, (ok_bind rfl).trans ((ok_bind rfl).trans ((ok_bind sent).trans rfl)), ?_, ?_⟩
  · intro applied
    cases heard : (policy.retry site.retryDelays 0 wire.network none).2 with
    | none => simp [settle, policy, heard] at applied
    | some result =>
      refine carries.done_once settles heard ?_
      cases done : result.applied with
      | true => rfl
      | false => simp [settle, policy, heard, done] at applied
  · rw [← spoiled, ← carries.untouched_iff]
    cases heard : (policy.retry site.retryDelays 0 wire.network none).2 with
    | none =>
      have none : attempts = [] := policy.attempts_eq_nil heard
      rw [show policy.attempts site.retryDelays 0 wire.network = [] from none, none]
      exact iff_of_true (fun _ _ _ mem => absurd mem List.not_mem_nil)
        (fun _ _ mem => absurd mem List.not_mem_nil)
    | some result =>
      have again : policy.again result = (!result.applied && result.retryable) := rfl
      constructor
      · rintro untouched ⟨reply, eq, not, asks⟩
        obtain rfl : result = reply := Option.some.inj eq
        refine untouched ?_ ?_
        · simp [settle, not]
        · have named := reply_asks element channel model reads site _ heard not
          rw [again, not] at asks
          simp only [settle, Option.any_some, not, Bool.false_eq_true, if_false]
          exact named.trans asks
      · intro untouched rejected lasting
        have not : result.applied = false := by
          cases applied : result.applied with
          | false => rfl
          | true => simp [settle, applied] at rejected
        refine untouched ⟨result, rfl, not, ?_⟩
        have named := reply_asks element channel model reads site _ heard not
        simp only [settle, Option.any_some, not, Bool.false_eq_true, if_false] at lasting
        rw [again, not, ← named]
        exact lasting

theorem group_replies (endpoint : O1AdaptorEndpoint) (changes : List Change)
    (network : Network C) :
    ∃ b, ((groupPolicy element channel model reads site started endpoint changes).attempts
      site.retryDelays 0 network).getLast? = some b := by
  cases delays : site.retryDelays with
  | nil => exact absurd delays site.tried
  | cons delay rest =>
    unfold Policy.attempts
    have early : (groupPolicy element channel model reads site started endpoint changes).late 0 delay
        network = false := by
      simp [groupPolicy, budgetSpent]
    rw [early]
    exact ⟨_, List.getLast?_cons⟩

theorem group_recorded (me : ManagedEntity) (endpoint : O1AdaptorEndpoint)
    {members : List (WriteConfigSubChange × Nat)} (some : members ≠ []) (wire : Wire (Network C)) :
    let changes := members.map (·.1.change)
    let policy := groupPolicy element channel model reads site wire.network.clock endpoint changes
    let attempts := policy.attempts site.retryDelays 0 wire.network
    ∃ outcomes wire', dispatchGroup (clients element channel model reads) site now job me endpoint
        members wire = .ok outcomes wire' ∧ outcomes.map (·.1) = members.map (·.2) ∧
      ∀ member ∈ members, ∀ outcome, (member.2, outcome) ∈ outcomes →
        Recorded (settle site member.1 outcome)
          (∃ a ∈ attempts, element.transaction changes (running a) = .ok (running wire'.network))
          (∀ a ∈ attempts, Untouched policy a)
          ¬Overtaken (element.transaction changes)
            (groupCourse element channel model endpoint changes)
            (fun b => ∃ tag, element.transaction changes (running b) = .error tag) attempts := by
  intro changes policy attempts
  have nonempty : changes ≠ [] := fun none => some (List.map_eq_nil_iff.1 none)
  have carries := groupEdit_carries element channel model reads site wire.network.clock endpoint
    nonempty
  obtain ⟨b, last⟩ := group_replies element channel model reads site wire.network.clock endpoint
    changes wire.network
  have heard : (policy.retry site.retryDelays 0 wire.network none).2 =
      .some (policy.send b).2 := by
    rw [policy.retry_eq, last]
  obtain ⟨length, uniform, ends⟩ := groupSend_ends element channel model reads site
    wire.network.clock endpoint nonempty b
  obtain ⟨count, sent⟩ := groupAttempts_retry element channel model reads site wire.network.clock
    endpoint changes site.retryDelays 0 none
    { wire with sent := wire.sent ++ members.map fun member => dispatchOf now job member.1 }
  have replies : ((policy.retry site.retryDelays 0 wire.network none).2.getD []) =
      (policy.send b).2 := by
    rw [heard]
    rfl
  refine ⟨_, _, (ok_bind rfl).trans ((ok_bind rfl).trans ((ok_bind sent).trans rfl)), ?_, ?_⟩
  · rw [List.map_map]
    dsimp only
    rw [show (policy.retry site.retryDelays 0 wire.network none).2.getD [] = _ from replies]
    have places : ∀ befores : List (Option Attributes × Option String),
        befores.length = members.length →
        (members.zip (befores.zip (policy.send b).2)).map (fun entry => entry.1.2) =
          members.map (·.2) := by
      intro befores same
      have enough : members.length ≤ (befores.zip (policy.send b).2).length := by
        rw [List.length_zip, show (policy.send b).2.length = _ from length, same, List.length_map]
        omega
      calc (members.zip (befores.zip (policy.send b).2)).map (fun entry => entry.1.2)
          = ((members.zip (befores.zip (policy.send b).2)).map Prod.fst).map Prod.snd := by
            rw [List.map_map]
            rfl
        _ = members.map (·.2) := by rw [List.map_fst_zip enough]
    exact places _ (List.length_map _)
  · intro member mem outcome listed
    rw [show (policy.retry site.retryDelays 0 wire.network none).2.getD [] = _ from replies] at listed
    obtain ⟨entry, zipped, eq⟩ := List.mem_map.1 listed
    have fromResults := (List.of_mem_zip (List.of_mem_zip zipped).2).2
    obtain ⟨applied, asks⟩ := uniform _ fromResults
    obtain rfl := (Prod.mk.inj eq).2
    refine ⟨fun recorded => ?_, ?_⟩
    · have done : (policy.send b).2.all (·.applied) = true := by
        cases all : (policy.send b).2.all (·.applied) with
        | true => rfl
        | false =>
          have not : entry.2.2.applied = false := applied.trans all
          simp [settle, groupOutcome, not] at recorded
      obtain ⟨a, mem, final, ok⟩ := carries.done_leaves heard done
      exact ⟨a, mem, ok.trans (by rw [← final])⟩
    · refine Iff.trans ?_ (carries.untouched_iff site.retryDelays 0 wire.network)
      constructor
      · rintro untouched ⟨reply, eq, all, asked⟩
        obtain rfl : (policy.send b).2 = reply := Option.some.inj (heard.symm.trans eq)
        have not : entry.2.2.applied = false := applied.trans all
        refine untouched (by simp [settle, groupOutcome, not]) ?_
        simp only [settle, groupOutcome, not, Bool.false_eq_true, if_false]
        exact (transient_or rfl _).trans ((asks not).2.trans asked)
      · intro untouched rejected lasting
        have not : entry.2.2.applied = false := by
          cases done : entry.2.2.applied with
          | false => rfl
          | true => simp [settle, groupOutcome, done] at rejected
        simp only [settle, groupOutcome, not, Bool.false_eq_true, if_false] at lasting
        refine untouched ⟨_, heard, applied.symm.trans not, ?_⟩
        exact (asks not).2.symm.trans ((transient_or rfl _).symm.trans lasting)

/-- Over a channel on which an attempt takes at most `timeout`, the attempts at a sub-change, and
those at a candidate transaction, take at most the budget, or the first delay if that is longer,
and one attempt. -/
theorem retries_within {timeout : Nat} (took : ∀ attempt, (channel attempt).took ≤ timeout)
    (dispatched : o1Client me.o1Protocol ≠ none) (endpoint : O1AdaptorEndpoint) (change : Change)
    (changes : List Change) (wire : Wire (Network C)) :
    let o1 := clients element channel model reads
    let clock := wire.network.clock
    let latest := clock + max (site.retryDelays.headD 0) site.retryBudget
    (∃ ended wire', dispatchAttempts o1 site me endpoint change clock site.retryDelays 0 none none
      wire = .ok ended wire' ∧ wire'.network.clock ≤ latest + timeout) ∧
    ∃ ended wire', groupAttempts o1 site endpoint changes clock site.retryDelays 0 [] wire =
      .ok ended wire' ∧ wire'.network.clock ≤ latest + timeout := by
  intro o1 clock latest
  have first : ∀ delay ∈ site.retryDelays.head?, clock + delay ≤ latest := by
    intro delay head
    rw [show latest = clock + max (site.retryDelays.headD 0) site.retryBudget from rfl,
      List.headD_eq_head?_getD, head]
    exact Nat.add_le_add_left (Nat.le_max_left _ _) _
  have begins : ∀ made delay (network : Network C), made ≠ 0 →
      budgetSpent o1 site clock delay made network = false → network.clock + delay ≤ latest := by
    intro made delay network isRetry early
    have inBudget : o1.monotonic network - clock + delay ≤ site.retryBudget := by
      simpa [budgetSpent, isRetry] using early
    change network.clock - clock + delay ≤ site.retryBudget at inBudget
    omega
  have sends : ∀ network : Network C, network.clock + (channel network.attempt).took ≤
      network.clock + timeout := fun network => Nat.add_le_add_left (took _) _
  have here : clock ≤ latest + timeout := by omega
  obtain ⟨_, _, alone⟩ := dispatchAttempts_retry element channel model reads site clock
    dispatched endpoint change site.retryDelays 0 none none (by simp) wire
  obtain ⟨_, group⟩ := groupAttempts_retry element channel model reads site clock endpoint
    changes site.retryDelays 0 none wire
  exact ⟨⟨_, _, alone, Policy.retry_by _ begins sends (fun _ => first) here⟩,
    _, _, group, Policy.retry_by _ begins sends (fun _ => first) here⟩

end Retrying

def firstUnanswered : Channel := fun attempt =>
  if attempt = 0 then { fate := fun _ => .replyLost .timeout } else {}

def emptyNetwork : Network ElementConfig := { device := { running := fun _ => none } }

def lossyClients : O1Clients (Network ElementConfig) :=
  clients rfcElement firstUnanswered (fun _ => false) fun _ _ _ _ => .failed

def cellRow (operation : String) : WriteConfigSubChange where
  managedElementRef := "gnb-1"
  managedFunctionRef := some "NRCellDU=1"
  attributeChanges := [("power", .text "10")]
  operation := operation
  position := 0
  wave := 1

def gnb : ManagedEntity := { managedElementRef := "gnb-1", entityType := "gNB" }

def gnbEndpoint : O1AdaptorEndpoint := { adaptorUri := "http://gnb-1" }

def cellJob : WriteConfigJob where
  jobId := 0
  requestedBy := "ana"
  scope := "cell"
  msacRole := none
  rollbackOf := none
  rollbackForced := false
  waveSize := none
  wavePauseSeconds := 0
  waveCount := 1
  gateMaxNewAlarms := 0
  onGateFailure := .halt
  invokerId := none
  createdAt := 0
  kpiGuard := none
  scheduledAt := none
  windowEnd := none

/-- Two attempts that wait out their 30 s and the delay between them use up the budget. -/
theorem unanswered_within :
    let silent : Channel := fun _ => { fate := fun _ => .requestLost .timeout, took := 30 }
    ∃ ended wire', dispatchAttempts (clients rfcElement silent (fun _ => false)
        fun _ _ _ _ => .failed) {} gnb gnbEndpoint (cellRow "merge").change 0 [0, 5, 10, 20] 0
        none none { network := emptyNetwork } = .ok ended wire' ∧
      ended.2.2.1 = 2 ∧ wire'.network.clock ≤ 65 := by
  intro silent
  obtain ⟨ended, wire', ran, inTime⟩ := (retries_within rfcElement silent (fun _ => false)
    (fun _ _ _ _ => .failed) {} (fun _ => Nat.le_refl 30)
    (show o1Client gnb.o1Protocol ≠ none by decide) gnbEndpoint (cellRow "merge").change []
    { network := emptyNetwork }).1
  have computed := ran.symm
  refine ⟨ended, wire', ran, ?_, inTime⟩
  cases computed
  rfl

end Smo.RanNfOam
