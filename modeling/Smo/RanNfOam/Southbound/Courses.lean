import Smo.RanNfOam.Southbound.SessionCourses

/-! What becomes of one attempt at an edit over HTTP, as NETCONF or as RESTCONF, and over
the transport that an element's endpoint has. -/
namespace Smo.RanNfOam

open ConfigJobs NetconfSsh Retry

namespace NetworkElement

variable {C : Type} (element : NetworkElement C) (attempt : Attempt)

theorem netconf_loss (loss : Loss) : Says
    (NetconfClient.sendEditConfig some (netconfAnswer (.error loss))) true false := by
  cases loss with
  | timeout => exact ⟨rfl, fun _ => ⟨rfl, rfl⟩⟩
  | unreachable => exact ⟨rfl, fun _ => ⟨rfl, rfl⟩⟩
  | gateway status =>
    obtain ⟨status, transient⟩ := status
    by_cases timeout : status = 408 ∨ status = 504
    · simp only [netconfAnswer, Loss.httpAnswer, NetconfClient.sendEditConfig, NetconfClient.post,
        if_pos timeout]
      exact ⟨rfl, fun _ => ⟨rfl, rfl⟩⟩
    · have high : 500 ≤ status := transient.resolve_left fun h => timeout (.inl h)
      simp only [netconfAnswer, Loss.httpAnswer, NetconfClient.sendEditConfig, NetconfClient.post,
        if_neg timeout, if_pos high]
      exact ⟨rfl, fun _ => ⟨rfl, rfl⟩⟩

theorem httpEdit_ends (change : Change) (device : Device C) :
    ∃ again done, Says (element.httpEdit attempt change device).2 again done ∧
      Ends (element.edit change) (attempt.fate 0).course device.running
        (element.httpEdit attempt change device).1.running again done := by
  have running := element.serveRunning_ends change.operation change (attempt.fate 0) device
  unfold httpEdit
  cases fate : attempt.fate 0 with
  | requestLost loss => exact ⟨true, false, netconf_loss loss, rfl, rfl, rfl⟩
  | replyLost loss =>
    rw [fate] at running
    exact ⟨true, false, netconf_loss loss, running, rfl, rfl⟩
  | delivered =>
    rw [fate] at running
    simp only [Fate.deliver, netconfAnswer, NetconfClient.sendEditConfig, NetconfClient.post]
    cases done : element.edit change device.running with
    | ok c =>
      have served : (element.serveRunning change.operation change device).2 = .ok () := by
        simp only [serveRunning, replaced]
        rw [show element.execute change.operation change device.running = .ok c from done]
      rw [served]
      refine ⟨false, true, ⟨rfl, fun not => by cases not⟩, running, rfl, ?_⟩
      exact iff_of_true rfl ⟨c, done⟩
    | error tag =>
      have served : (element.serveRunning change.operation change device).2 = .error tag := by
        simp only [serveRunning, replaced]
        rw [show element.execute change.operation change device.running = .error tag from done]
      rw [served]
      refine ⟨false, false, ⟨(editOutcome_error tag).1, fun _ => (editOutcome_error tag).2⟩,
        running, rfl, ?_⟩
      refine iff_of_false (by simp) ?_
      rintro ⟨c, ok⟩
      rw [done] at ok
      cases ok

theorem restconf_loss (loss : Loss) : ∃ failure,
    RestconfClient.send id (element.restconfAnswer (.error loss)) = some failure ∧
      failure.errorTag = none ∧ Asks failure.result true := by
  cases loss with
  | timeout => exact ⟨_, rfl, rfl, rfl, rfl⟩
  | unreachable => exact ⟨_, rfl, rfl, rfl, rfl⟩
  | gateway status =>
    obtain ⟨status, transient⟩ := status
    have high : ¬status < 300 := by omega
    by_cases timeout : status = 408 ∨ status = 504
    · refine ⟨⟨"RESTCONF_TIMEOUT", none⟩, ?_, rfl, rfl, rfl⟩
      simp only [restconfAnswer, Loss.httpAnswer, RestconfClient.send, if_neg high,
        if_pos timeout, id]
    · have high' : 500 ≤ status := transient.resolve_left fun h => timeout (.inl h)
      refine ⟨⟨"RESTCONF_UNREACHABLE", none⟩, ?_, rfl, rfl, rfl⟩
      simp only [restconfAnswer, Loss.httpAnswer, RestconfClient.send, if_neg high,
        if_neg timeout, id, high', and_self, true_or, if_true]

theorem restconf_refusal (tag : String) :
    RestconfClient.send id (element.restconfAnswer (.ok (.error tag))) =
      some ⟨"RESTCONF_REQUEST_FAILED", some tag⟩ := by
  obtain ⟨refused, not408, not502, not503, not504⟩ := element.definite tag
  have high : ¬element.status tag < 300 := by omega
  simp only [restconfAnswer, RestconfClient.send, if_neg high, not408, not502, not503, not504,
    id, or_self, if_false, reduceCtorEq, false_and]

theorem operationOf_methodOf {operation : String} {method : RestconfClient.Method}
    (sent : RestconfClient.methodOf operation = some method) :
    operationOf method = operation ∨ operation = "remove" ∧ method = .delete := by
  unfold RestconfClient.methodOf at sent
  split at sent
  · cases sent; exact .inl (by simp [operationOf, *])
  split at sent
  · cases sent; exact .inl (by simp [operationOf, *])
  split at sent
  · cases sent; exact .inl (by simp [operationOf, *])
  split at sent
  · rename_i delete
    cases sent
    rcases delete with rfl | rfl
    · exact .inl rfl
    · exact .inr ⟨rfl, rfl⟩
  · cases sent

theorem left_remove (change : Change) (c : C) :
    left (element.execute "remove" change) c = left (element.execute "delete" change) c := by
  unfold left
  rw [element.remove_eq]
  cases present : element.present change c with
  | true => simp
  | false => rw [(element.delete_missing change c).2 present]; simp

theorem left_method {change : Change} {method : RestconfClient.Method}
    (sent : RestconfClient.methodOf change.operation = some method) (c : C) :
    left (element.execute (operationOf method) change) c = left (element.edit change) c := by
  rcases operationOf_methodOf sent with same | ⟨remove, rfl⟩
  · rw [same]
    rfl
  · unfold edit
    rw [remove, left_remove]
    rfl

theorem restconf_delivered {change : Change} {method : RestconfClient.Method}
    (sent : RestconfClient.methodOf change.operation = some method) (device : Device C) :
    Says (element.restconfEdit { } change device).2 false
      (match element.edit change device.running with
        | .ok _ => true
        | .error _ => false) := by
  have unlike : operationOf method ≠ "remove" := by cases method <;> decide
  unfold restconfEdit RestconfClient.sendEdit
  rw [sent]
  simp only [Fate.deliver, serveRunning]
  cases answer : element.execute (operationOf method) change device.running with
  | ok c =>
    have done : ∃ c', element.edit change device.running = .ok c' := by
      rcases operationOf_methodOf sent with same | ⟨remove, rfl⟩
      · exact ⟨c, by rw [edit, ← same]; exact answer⟩
      · unfold edit
        rw [remove, element.remove_eq]
        split
        · exact ⟨c, answer⟩
        · exact ⟨_, rfl⟩
    obtain ⟨c', done⟩ := done
    rw [done]
    exact ⟨rfl, fun not => by cases not⟩
  | error tag =>
    rw [show (replaced device (.error tag)).2 = .error tag from rfl, restconf_refusal]
    rcases operationOf_methodOf sent with same | ⟨remove, rfl⟩
    · have failed : element.edit change device.running = .error tag := by
        rw [edit, ← same]
        exact answer
      rw [failed]
      dsimp only
      rw [if_neg fun removes => unlike (same.trans removes.1)]
      exact ⟨rfl, fun _ => ⟨rfl, rfl⟩⟩
    · by_cases missing : tag = "data-missing"
      · subst missing
        have absent := (element.delete_missing change device.running).1 answer
        have done : element.edit change device.running = .ok device.running := by
          unfold edit
          rw [remove, element.remove_eq, absent]
          rfl
        rw [done]
        dsimp only
        rw [if_pos ⟨remove, rfl⟩]
        exact ⟨rfl, fun not => by cases not⟩
      · have there : element.present change device.running = true := by
          cases present : element.present change device.running with
          | true => rfl
          | false =>
            have := (element.delete_missing change device.running).2 present
            rw [show element.execute (operationOf .delete) change device.running =
              element.execute "delete" change device.running from rfl, this] at answer
            cases answer
            exact absurd rfl missing
        have failed : element.edit change device.running = .error tag := by
          unfold edit
          rw [remove, element.remove_eq, there]
          exact answer
        rw [failed]
        dsimp only
        rw [if_neg fun removes => missing (Option.some.inj removes.2)]
        exact ⟨rfl, fun _ => ⟨rfl, rfl⟩⟩

def restconfCourse (attempt : Attempt) (change : Change) : Course :=
  match RestconfClient.methodOf change.operation with
  | none => .turnedAway
  | some _ => (attempt.fate 0).course

theorem restconfEdit_ends (change : Change) (device : Device C) :
    ∃ again done, Says (element.restconfEdit attempt change device).2 again done ∧
      Ends (element.edit change) (restconfCourse attempt change) device.running
        (element.restconfEdit attempt change device).1.running again done := by
  cases sent : RestconfClient.methodOf change.operation with
  | none =>
    unfold restconfEdit RestconfClient.sendEdit restconfCourse
    rw [sent]
    exact ⟨false, false, ⟨rfl, fun _ => ⟨rfl, rfl⟩⟩, rfl, rfl, rfl⟩
  | some method =>
    have running := element.serveRunning_ends (operationOf method) change (attempt.fate 0) device
    rw [element.left_method sent] at running
    have leaves : (element.restconfEdit attempt change device).1 =
        ((attempt.fate 0).deliver (element.serveRunning (operationOf method) change) device).1 := by
      unfold restconfEdit RestconfClient.sendEdit
      rw [sent]
      simp only
      split
      · rfl
      · split <;> rfl
    have lost : ∀ loss, ((attempt.fate 0).deliver
        (element.serveRunning (operationOf method) change) device).2 = .error loss →
        Says (element.restconfEdit attempt change device).2 true false := by
      intro loss unanswered
      obtain ⟨failure, send, noTag, retryable⟩ := element.restconf_loss loss
      unfold restconfEdit RestconfClient.sendEdit
      rw [sent]
      simp only [unanswered, send, noTag, reduceCtorEq, and_false, if_false]
      exact ⟨rfl, fun _ => retryable⟩
    rw [leaves, running]
    unfold restconfCourse
    rw [sent]
    cases fate : attempt.fate 0 with
    | requestLost loss => exact ⟨true, false, lost loss (by rw [fate]; rfl), rfl, rfl, rfl⟩
    | replyLost loss => exact ⟨true, false, lost loss (by rw [fate]; rfl), rfl, rfl, rfl⟩
    | delivered =>
      have told := element.restconf_delivered sent device
      have same : (element.restconfEdit attempt change device).2 =
          (element.restconfEdit {} change device).2 := by
        simp only [restconfEdit, fate]
      rw [same]
      refine ⟨false, _, told, rfl, rfl, ?_⟩
      cases element.edit change device.running <;> simp

end NetworkElement

end Smo.RanNfOam
