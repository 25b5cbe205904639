import Smo.Lib.Retry
import Smo.RanNfOam.Southbound.Network

/-! What becomes of one attempt at an edit that opens a session: which of its messages the
channel loses decides what it leaves on the element and what the client is told. -/
namespace Smo.RanNfOam

open ConfigJobs NetconfSsh Retry

def Fate.course : Fate → Course
  | .requestLost _ => .unreached
  | .replyLost _ => .unanswered
  | .delivered => .answered

namespace NetworkElement

variable {C : Type} (element : NetworkElement C)

/-- The edits of a transaction and its commit, from the message `sent` on. -/
def editsCourse (fate : Nat → Fate) : List Change → (sent : Nat) → C → Course
  | [], sent, _ => (fate sent).course
  | change :: changes, sent, c =>
    match fate sent with
    | .delivered =>
      match element.edit change c with
      | .error _ => .answered
      | .ok c => editsCourse fate changes (sent + 1) c
    | _ => .unreached

def transactionCourse (fate : Nat → Fate) (changes : List Change) (device : Device C) : Course :=
  if !element.candidate then .turnedAway
  else
    match fate 0 with
    | .delivered =>
      if device.locked || device.candidate.isSome then .turnedAway
      else element.editsCourse fate changes 1 device.running
    | _ => .unreached

def sessionCourse (attempt : Attempt) (candidate : Bool) (changes : List Change)
    (device : Device C) : Course :=
  match attempt.unopened with
  | some reason => if reason.val = "NETCONF_RPC_FAILED" then .turnedAway else .unreached
  | none =>
    if candidate then
      element.transactionCourse attempt.fate changes (notice attempt.noticed device)
    else (attempt.fate 0).course

def sshCourse (attempt : Attempt) (model candidate : Bool) (changes : List Change)
    (device : Device C) : Course :=
  if (unknownOperation model changes).isSome then .turnedAway
  else element.sessionCourse attempt candidate changes device

theorem notice_running (noticed : Bool) (device : Device C) :
    (notice noticed device).running = device.running := by
  unfold notice
  split <;> rfl

theorem serveCandidate_running {command : Command} (kept : command ≠ .commit)
    (device : Device C) :
    (element.serveCandidate command device).1.running = device.running := by
  cases command with
  | commit => exact absurd rfl kept
  | discard => rfl
  | unlock => rfl
  | lock =>
    simp only [serveCandidate]
    split <;> rfl
  | edit change =>
    simp only [serveCandidate]
    split <;> rfl

theorem editOutcome_ok : NetconfClient.editOutcome (some (reply (.ok ()))) =
    { applied := true } := by
  decide

def transient (reason : Option String) : Bool :=
  reason ∈ [some "NETCONF_TIMEOUT", some "NETCONF_UNREACHABLE", some "RESTCONF_TIMEOUT",
    some "RESTCONF_UNREACHABLE"]

/-- Whether a result that is not applied asks for another attempt, with the reason on it. -/
def Asks (result : EditResult) (again : Bool) : Prop :=
  result.retryable = again ∧ transient result.reason = again

def Refused (result : EditResult) : Prop := result.applied = false ∧ Asks result false

theorem refused_rpc (detail : Option String) :
    Refused (NetconfClient.rejected "NETCONF_RPC_FAILED" detail) :=
  ⟨rfl, rfl, rfl⟩

theorem editOutcome_error (tag : String) :
    Refused (NetconfClient.editOutcome (some (reply (.error tag)))) := by
  have unlike : Xml.localName (.element "rpc-error" [] "" [.element "error-tag" [] tag []]) ≠
      "ok" :=
    show Xml.localPart "rpc-error" ≠ "ok" by decide
  simp only [NetconfClient.editOutcome, reply, Xml.children, List.any_cons, unlike,
    decide_false, List.any_nil, Bool.or_false, Bool.false_eq_true, if_false]
  exact refused_rpc _

variable (attempt : Attempt)

theorem step_cases (name : String) (command : Command) (s : Device C × Nat) :
    (∃ loss, attempt.fate s.2 = .requestLost loss ∧
      step (element.session attempt true) name command s = ((s.1, s.2 + 1), .error loss.sshError)) ∨
    (∃ loss, attempt.fate s.2 = .replyLost loss ∧
      step (element.session attempt true) name command s =
        (((element.serveCandidate command s.1).1, s.2 + 1), .error loss.sshError)) ∨
    (attempt.fate s.2 = .delivered ∧ (element.serveCandidate command s.1).2 = .ok () ∧
      step (element.session attempt true) name command s =
        (((element.serveCandidate command s.1).1, s.2 + 1), .ok { applied := true })) ∨
    (∃ tag refused, attempt.fate s.2 = .delivered ∧
      (element.serveCandidate command s.1).2 = .error tag ∧
      step (element.session attempt true) name command s =
        (((element.serveCandidate command s.1).1, s.2 + 1), .ok refused) ∧ Refused refused) := by
  cases fate : attempt.fate s.2 with
  | requestLost loss =>
    refine .inl ⟨loss, rfl, ?_⟩
    simp only [step, session, fate, Fate.deliver]
  | replyLost loss =>
    refine .inr (.inl ⟨loss, rfl, ?_⟩)
    simp only [step, session, fate, Fate.deliver, serve, if_true]
  | delivered =>
    refine .inr (.inr ?_)
    cases answer : (element.serveCandidate command s.1).2 with
    | ok done =>
      obtain ⟨⟩ := done
      refine .inl ⟨rfl, rfl, ?_⟩
      simp only [step, session, fate, Fate.deliver, serve, if_true, answer, editOutcome_ok]
    | error tag =>
      refine .inr ⟨tag, refusal name (NetconfClient.editOutcome (some (reply (.error tag)))), rfl,
        rfl, ?_, refused_rpc _⟩
      simp only [step, session, fate, Fate.deliver, serve, if_true, answer,
        (editOutcome_error tag).1, Bool.false_eq_true, if_false]

theorem step_running (name : String) {command : Command} (kept : command ≠ .commit)
    (s : Device C × Nat) :
    (step (element.session attempt true) name command s).1.1.running = s.1.running := by
  have serves := element.serveCandidate_running kept s.1
  rcases element.step_cases attempt name command s with
    ⟨loss, _, eq⟩ | ⟨loss, _, eq⟩ | ⟨_, _, eq⟩ | ⟨tag, refused, _, _, eq, _⟩ <;> rw [eq]
  all_goals exact serves

theorem editAll_cases (changes : List Change) (index : Nat) (s : Device C × Nat) :
    (∃ s', editAll (element.session attempt true) changes index s = (s', .ok none) ∧
      s'.1.running = s.1.running ∧
      element.edits changes (s.1.candidate.getD s.1.running) =
        .ok (s'.1.candidate.getD s'.1.running) ∧
      element.editsCourse attempt.fate changes s.2 (s.1.candidate.getD s.1.running) =
        (attempt.fate s'.2).course) ∨
    (∃ s' place refused tag,
      editAll (element.session attempt true) changes index s = (s', .ok (some (place, refused))) ∧
      s'.1.running = s.1.running ∧ Refused refused ∧
      element.edits changes (s.1.candidate.getD s.1.running) = .error tag ∧
      element.editsCourse attempt.fate changes s.2 (s.1.candidate.getD s.1.running) =
        .answered) ∨
    (∃ s' loss, editAll (element.session attempt true) changes index s =
        (s', .error (Loss.sshError loss)) ∧
      s'.1.running = s.1.running ∧
      element.editsCourse attempt.fate changes s.2 (s.1.candidate.getD s.1.running) =
        .unreached) := by
  induction changes generalizing index s with
  | nil => exact .inl ⟨s, rfl, rfl, rfl, rfl⟩
  | cons change changes ih =>
    have kept : Command.edit change ≠ .commit := by simp
    have running := element.serveCandidate_running kept s.1
    simp only [editAll, editsCourse, edits]
    rcases element.step_cases attempt "edit-config" (.edit change) s with
      ⟨loss, fate, eq⟩ | ⟨loss, fate, eq⟩ | ⟨fate, answer, eq⟩ |
      ⟨tag, refused, fate, answer, eq, down⟩
    · rw [eq, fate]
      exact .inr (.inr ⟨_, loss, rfl, rfl, rfl⟩)
    · rw [eq, fate]
      exact .inr (.inr ⟨_, loss, rfl, running, rfl⟩)
    · rw [eq, fate]
      simp only [serveCandidate] at answer running ⊢
      cases edited : element.edit change (s.1.candidate.getD s.1.running) with
      | error tag => rw [edited] at answer; cases answer
      | ok c =>
        simp only [if_true]
        exact ih (index + 1) ({ s.1 with candidate := some c }, s.2 + 1)
    · rw [eq, fate]
      simp only [serveCandidate] at answer running ⊢
      cases edited : element.edit change (s.1.candidate.getD s.1.running) with
      | ok c => rw [edited] at answer; cases answer
      | error tag' =>
        simp only [down.1, Bool.false_eq_true, if_false]
        exact .inr (.inl ⟨_, index, refused, tag', rfl, rfl, down, rfl, trivial⟩)

def Uniform (results : List EditResult) (again done : Bool) : Prop :=
  ∀ result ∈ results, result.applied = done ∧ (result.applied = false → Asks result again)

/-- What is heard of a transaction of `n` edits: its results, or the loss of an answer. -/
def Heard (n : Nat) (again done : Bool) : Except NetconfSshError (List EditResult) → Prop
  | .error exc => ∃ loss : Loss, exc = loss.sshError ∧ again = true ∧ done = false
  | .ok results => results.length = n ∧ Uniform results again done

theorem heard_replicate {n : Nat} {result : EditResult} (down : Refused result) :
    Heard n false false (.ok (List.replicate n result)) := by
  refine ⟨List.length_replicate, fun each mem => ?_⟩
  rw [List.eq_of_mem_replicate mem]
  exact ⟨down.1, fun _ => down.2⟩

theorem heard_applied (n : Nat) : Heard n false true (.ok (List.replicate n { applied := true })) := by
  refine ⟨List.length_replicate, fun each mem => ?_⟩
  rw [List.eq_of_mem_replicate mem]
  exact ⟨rfl, fun not => by cases not⟩

theorem heard_refusals {n place : Nat} {refused : EditResult} (down : Refused refused)
    (inside : place < n) : Heard n false false (.ok (refusals n place refused)) := by
  unfold refusals
  split
  · rename_i single
    subst single
    exact ⟨rfl, fun each mem => by rw [List.mem_singleton.1 mem]; exact ⟨down.1, fun _ => down.2⟩⟩
  · refine ⟨?_, fun each mem => ?_⟩
    · simp only [List.length_append, List.length_cons, List.length_replicate]
      omega
    · rcases List.mem_append.1 mem with earlier | later
      · rw [List.eq_of_mem_replicate earlier]
        exact ⟨rfl, fun _ => ⟨rfl, rfl⟩⟩
      · rcases List.mem_cons.1 later with rfl | later
        · exact ⟨down.1, fun _ => down.2⟩
        · rw [List.eq_of_mem_replicate later]
          exact ⟨rfl, fun _ => ⟨rfl, rfl⟩⟩

theorem editAll_place {changes : List Change} {index : Nat} {s s' : Device C × Nat} {place : Nat}
    {refused : EditResult}
    (eq : editAll (element.session attempt true) changes index s = (s', .ok (some (place, refused)))) :
    place < index + changes.length := by
  induction changes generalizing index s with
  | nil => cases eq
  | cons change changes ih =>
    unfold editAll at eq
    split at eq
    · cases eq
    · split at eq
      · have := ih eq
        rw [List.length_cons]
        omega
      · cases eq
        rw [List.length_cons]
        omega

theorem underLock_ends (changes : List Change) {s : Device C × Nat}
    (clean : s.1.candidate = none) :
    ∃ again done,
      Heard changes.length again done (underLock (element.session attempt true) changes s).2 ∧
        Ends (element.transaction changes)
          (element.editsCourse attempt.fate changes s.2 s.1.running) s.1.running
          (underLock (element.session attempt true) changes s).1.1.running again done := by
  have start : s.1.candidate.getD s.1.running = s.1.running := by rw [clean]; rfl
  have walked := element.editAll_cases attempt changes 0 s
  rw [start] at walked
  unfold underLock
  rcases walked with ⟨s', eq, kept, edited, course⟩ |
    ⟨s', place, refused, tag, eq, kept, down, edited, course⟩ | ⟨s', loss, eq, kept, course⟩
  · rw [eq, course]
    simp only
    rcases element.step_cases attempt "commit" .commit s' with
      ⟨loss, fate, eq⟩ | ⟨loss, fate, eq⟩ | ⟨fate, answer, eq⟩ |
      ⟨tag, refused, fate, answer, eq, down⟩
    · rw [eq, fate]
      exact ⟨true, false, ⟨loss, rfl, rfl, rfl⟩, kept, rfl, rfl⟩
    · rw [eq, fate]
      refine ⟨true, false, ⟨loss, rfl, rfl, rfl⟩, ?_, rfl, rfl⟩
      simp only [serveCandidate, left, transaction, edited]
      cases element.accepts (s'.1.candidate.getD s'.1.running) with
      | error tag => exact kept
      | ok _ => rfl
    · rw [eq, fate]
      simp only [serveCandidate] at answer ⊢
      refine ⟨false, true, heard_applied _, ?_⟩
      cases accepted : element.accepts (s'.1.candidate.getD s'.1.running) with
      | error tag => rw [accepted] at answer; cases answer
      | ok _ =>
        simp only [Fate.course, Ends, left, transaction, edited, accepted, if_true]
        exact ⟨trivial, trivial, by simp⟩
    · rw [eq, fate]
      simp only [serveCandidate] at answer ⊢
      refine ⟨false, false, heard_replicate down, ?_⟩
      cases accepted : element.accepts (s'.1.candidate.getD s'.1.running) with
      | ok _ => rw [accepted] at answer; cases answer
      | error tag =>
        simp only [Fate.course, Ends, left, transaction, edited, accepted, down.1,
          Bool.false_eq_true, if_false]
        refine ⟨?_, trivial, by simp⟩
        exact (element.step_running attempt _ (by simp) _).trans kept
  · rw [eq, course]
    simp only
    refine ⟨false, false, heard_refusals down (by have := element.editAll_place attempt eq; omega), ?_⟩
    simp only [Ends, left, transaction, edited]
    refine ⟨?_, trivial, by simp⟩
    exact (element.step_running attempt _ (by simp) _).trans kept
  · rw [eq, course]
    exact ⟨true, false, ⟨loss, rfl, rfl, rfl⟩, kept, rfl, rfl⟩

theorem candidateEdits_ends (changes : List Change) (device : Device C) :
    ∃ again done,
      Heard changes.length again done
          (candidateEdits (element.session attempt true) element.candidate changes (device, 0)).2 ∧
        Ends (element.transaction changes) (element.transactionCourse attempt.fate changes device)
          device.running
          (candidateEdits (element.session attempt true) element.candidate changes
            (device, 0)).1.1.running again done := by
  unfold candidateEdits transactionCourse
  by_cases offered : element.candidate = true
  · simp only [offered, Bool.not_true, Bool.false_eq_true, if_false]
    rcases element.step_cases attempt "lock" .lock (device, 0) with
      ⟨loss, fate, eq⟩ | ⟨loss, fate, eq⟩ | ⟨fate, answer, eq⟩ |
      ⟨tag, refused, fate, answer, eq, down⟩
    · rw [eq, fate]
      exact ⟨true, false, ⟨loss, rfl, rfl, rfl⟩, rfl, rfl, rfl⟩
    · rw [eq, fate]
      exact ⟨true, false, ⟨loss, rfl, rfl, rfl⟩, element.serveCandidate_running (by simp) device,
        rfl, rfl⟩
    · rw [eq, fate]
      simp only [serveCandidate] at answer ⊢
      split at answer
      · cases answer
      · rename_i granted
        have clean : device.candidate = none := by
          cases candidate : device.candidate with
          | none => rfl
          | some c => simp [candidate] at granted
        simp only [granted, Bool.false_eq_true, if_false, Bool.not_true]
        have unlocked := element.step_running attempt "unlock" (nofun : Command.unlock ≠ .commit)
          (underLock (element.session attempt true) changes
            ({ device with locked := true }, 1)).1
        rw [unlocked]
        exact element.underLock_ends attempt changes clean
    · rw [eq, fate]
      simp only [serveCandidate] at answer ⊢
      split at answer
      · rename_i denied
        simp only [denied, if_true, down.1, Bool.not_false]
        exact ⟨false, false, heard_replicate down, rfl, rfl, rfl⟩
      · cases answer
  · simp only [offered, Bool.not_false, if_true]
    exact ⟨false, false, heard_replicate (refused_rpc _), rfl, rfl, rfl⟩

theorem sshError_result (loss : Loss) :
    loss.sshError.result.applied = false ∧ Asks loss.sshError.result true := by
  cases loss <;> exact ⟨rfl, rfl, rfl⟩

theorem unopened_result (reason : { reason : String // reason = "NETCONF_TIMEOUT" ∨
      reason = "NETCONF_UNREACHABLE" ∨ reason = "NETCONF_RPC_FAILED" }) (detail : String) :
    (NetconfSshError.result ⟨reason.val, detail⟩).applied = false ∧
      Asks (NetconfSshError.result ⟨reason.val, detail⟩)
        (!decide (reason.val = "NETCONF_RPC_FAILED")) := by
  refine ⟨rfl, ?_⟩
  obtain ⟨reason, rfl | rfl | rfl⟩ := reason <;>
    simp [Asks, transient, NetconfSshError.result, NetconfClient.rejected]

/-- The results a body of a session gives to `n` edits, a failure of the session being the
result of each. -/
def resultsOf {α : Type} (n : Nat) (view : α → List EditResult) :
    Except NetconfSshError α → List EditResult
  | .error exc => List.replicate n exc.result
  | .ok results => view results

theorem within_ends {α : Type} (candidate : Bool) (changes : List Change) (device : Device C)
    (body : Bool → Device C × Nat → (Device C × Nat) × Except NetconfSshError α) (n : Nat)
    (view : α → List EditResult) (perform : C → Except String C)
    (opened : attempt.unopened = none → ∃ again done,
      Heard n again done
          ((body element.candidate (notice attempt.noticed device, 0)).2.map view) ∧
        Ends perform (element.sessionCourse attempt candidate changes device) device.running
          (body element.candidate (notice attempt.noticed device, 0)).1.1.running again done) :
    ∃ again done,
      (resultsOf n view (within (element.session attempt candidate) body (device, 0)).2).length = n ∧
      Uniform (resultsOf n view (within (element.session attempt candidate) body (device, 0)).2)
        again done ∧
      Ends perform (element.sessionCourse attempt candidate changes device) device.running
        (within (element.session attempt candidate) body (device, 0)).1.1.running again done := by
  cases unopened : attempt.unopened with
  | some reason =>
    have result := unopened_result reason "the session was not established"
    simp only [within, session, unopened, sessionCourse, resultsOf]
    refine ⟨!decide (reason.val = "NETCONF_RPC_FAILED"), false, List.length_replicate, ?_, ?_⟩
    · intro each mem
      rw [List.eq_of_mem_replicate mem]
      exact ⟨result.1, fun _ => result.2⟩
    · by_cases refused : reason.val = "NETCONF_RPC_FAILED"
      · rw [if_pos refused, decide_eq_true refused]
        exact ⟨rfl, rfl, rfl⟩
      · rw [if_neg refused, decide_eq_false refused]
        exact ⟨rfl, rfl, rfl⟩
  | none =>
    obtain ⟨again, done, heard, ends⟩ := opened unopened
    refine ⟨again, done, ?_⟩
    simp only [within, session, unopened]
    cases answer : (body element.candidate (notice attempt.noticed device, 0)).2 with
    | error exc =>
      rw [answer] at heard
      obtain ⟨loss, rfl, rfl, rfl⟩ := heard
      refine ⟨List.length_replicate, fun each mem => ?_, ends⟩
      rw [List.eq_of_mem_replicate mem]
      exact ⟨(sshError_result loss).1, fun _ => (sshError_result loss).2⟩
    | ok results =>
      rw [answer] at heard
      exact ⟨heard.1, heard.2, ends⟩

theorem sshEdits_ends (model : Bool) (changes : List Change) (device : Device C) :
    ∃ again done, (element.sshEdits attempt model changes device).2.length = changes.length ∧
      Uniform (element.sshEdits attempt model changes device).2 again done ∧
        Ends (element.transaction changes) (element.sshCourse attempt model true changes device)
          device.running (element.sshEdits attempt model changes device).1.running again done := by
  unfold sshEdits sendEditConfigs sshCourse
  cases unknown : unknownOperation model changes with
  | some text =>
    obtain ⟨length, uniform⟩ := @heard_replicate changes.length _ (refused_rpc (some text))
    exact ⟨false, false, length, uniform, rfl, rfl, rfl⟩
  | none =>
    simp only [Option.isSome_none, Bool.false_eq_true, if_false]
    have ends := element.within_ends attempt true changes device
      (fun offered => candidateEdits (element.session attempt true) offered changes)
      changes.length id (element.transaction changes) (fun opened => by
        obtain ⟨again, done, heard, ends⟩ :=
          element.candidateEdits_ends attempt changes (notice attempt.noticed device)
        rw [notice_running] at ends
        refine ⟨again, done, ?_, ?_⟩
        · cases answer : (candidateEdits (element.session attempt true) element.candidate changes
            (notice attempt.noticed device, 0)).2 <;> rw [answer] at heard <;> exact heard
        · simpa only [sessionCourse, opened, if_true] using ends)
    revert ends
    generalize within _ _ _ = ended
    obtain ⟨s, exc | results⟩ := ended <;> exact id

def performed (transacts : Bool) (change : Change) : C → Except String C :=
  if transacts then element.transaction [change] else element.edit change

def Says (result : EditResult) (again done : Bool) : Prop :=
  result.applied = done ∧ (result.applied = false → Asks result again)

theorem serveRunning_ends (operation : String) (change : Change) (fate : Fate) (device : Device C) :
    (fate.deliver (element.serveRunning operation change) device).1.running =
      match fate.course with
      | .unreached => device.running
      | _ => left (element.execute operation change) device.running := by
  cases fate with
  | requestLost loss => rfl
  | replyLost loss =>
    simp only [Fate.deliver, Fate.course, serveRunning, left]
    cases element.execute operation change device.running <;> rfl
  | delivered =>
    simp only [Fate.deliver, Fate.course, serveRunning, left]
    cases element.execute operation change device.running <;> rfl

theorem runningEdit_ends (change : Change) (device : Device C) :
    ∃ again done,
      Heard 1 again done
          ((runningEdit (element.session attempt false) change (device, 0)).2.map fun r => [r]) ∧
        Ends (element.edit change) (attempt.fate 0).course device.running
          (runningEdit (element.session attempt false) change (device, 0)).1.1.running
          again done := by
  have running := element.serveRunning_ends change.operation change (attempt.fate 0) device
  cases fate : attempt.fate 0 with
  | requestLost loss =>
    simp only [runningEdit, session, fate, Fate.deliver]
    exact ⟨true, false, ⟨loss, rfl, rfl, rfl⟩, rfl, rfl, rfl⟩
  | replyLost loss =>
    rw [fate] at running
    simp only [runningEdit, session, fate, Fate.deliver]
    exact ⟨true, false, ⟨loss, rfl, rfl, rfl⟩, running, rfl, rfl⟩
  | delivered =>
    rw [fate] at running
    simp only [runningEdit, session, fate, Fate.deliver]
    cases done : element.edit change device.running with
    | ok c =>
      have served : (element.serve false (.edit change) device).2 = .ok () := by
        simp only [serve, Bool.false_eq_true, if_false, serveRunning, replaced]
        rw [show element.execute change.operation change device.running = .ok c from done]
      rw [served]
      refine ⟨false, true, heard_applied 1, running, rfl, ?_⟩
      exact iff_of_true rfl ⟨c, done⟩
    | error tag =>
      have served : (element.serve false (.edit change) device).2 = .error tag := by
        simp only [serve, Bool.false_eq_true, if_false, serveRunning, replaced]
        rw [show element.execute change.operation change device.running = .error tag from done]
      rw [served]
      refine ⟨false, false, @heard_replicate 1 _ (editOutcome_error tag), running, rfl, ?_⟩
      refine iff_of_false (by simp) ?_
      rintro ⟨c, ok⟩
      rw [done] at ok
      cases ok

theorem sshEdit_ends (model candidate : Bool) (change : Change) (device : Device C) :
    ∃ again done, Says (element.sshEdit attempt model candidate change device).2 again done ∧
      Ends (element.performed candidate change)
        (element.sshCourse attempt model candidate [change] device) device.running
        (element.sshEdit attempt model candidate change device).1.running again done := by
  unfold sshEdit sendEditConfig sshCourse
  cases unknown : unknownOperation model [change] with
  | some text => exact ⟨false, false, ⟨rfl, fun _ => (refused_rpc _).2⟩, rfl, rfl, rfl⟩
  | none =>
    simp only [Option.isSome_none, Bool.false_eq_true, if_false]
    have ends := element.within_ends attempt candidate [change] device
      (fun offered =>
        if candidate then candidateTransaction (element.session attempt candidate) offered change
        else runningEdit (element.session attempt candidate) change)
      1 (fun r => [r]) (element.performed candidate change) (fun opened => by
        unfold performed sessionCourse
        rw [opened]
        cases candidate with
        | false =>
          have ends := element.runningEdit_ends attempt change
            (notice attempt.noticed device)
          rw [notice_running] at ends
          exact ends
        | true =>
          obtain ⟨again, done, heard, ends⟩ := element.candidateEdits_ends attempt
            [change] (notice attempt.noticed device)
          rw [notice_running] at ends
          refine ⟨again, done, ?_⟩
          simp only [if_true, candidateTransaction]
          revert heard ends
          generalize candidateEdits _ _ _ _ = ended
          obtain ⟨s, exc | results⟩ := ended
          · exact fun heard ends => ⟨heard, ends⟩
          · rintro ⟨length, uniform⟩ ends
            obtain ⟨result, rfl⟩ := List.length_eq_one_iff.1 length
            exact ⟨⟨rfl, uniform⟩, ends⟩)
    revert ends
    generalize within _ _ _ = ended
    obtain ⟨s, exc | result⟩ := ended
    · rintro ⟨again, done, _, uniform, ends⟩
      exact ⟨again, done, uniform _ (List.mem_singleton.2 rfl), ends⟩
    · rintro ⟨again, done, _, uniform, ends⟩
      exact ⟨again, done, uniform _ (List.mem_singleton.2 rfl), ends⟩

end NetworkElement

end Smo.RanNfOam
